import Geopm.Library.Hexadecimal
import Mathlib.Data.List.TakeWhile
import Mathlib.Data.Nat.Digits.Lemmas

namespace Geopm

/-! `geopm_sched_proc_cpuset_helper`: the CPUs that the status file of the process allows. -/

namespace Sched

inductive SchedError where
  | runtime
  | logic
deriving Repr, DecidableEq

/-- What C does not define, or what does not end. -/
inductive Fault where
  /-- A scan starts outside of the line. -/
  | outside
  | unfinished
deriving Repr, DecidableEq

/-- A pointer to a character of the line, or to none. -/
inductive Pointer where
  | inside (offset : Nat)
  | null
  /-- behind a null pointer -/
  | wild
deriving Repr, DecidableEq

def key : List Char := "Cpus_allowed:".toList

/-- `getline` up to the end of the file: the lines with their ends. -/
def lines : List Char → List (List Char)
  | [] => []
  | letter :: rest =>
      if letter = '\n' then [letter] :: lines rest
      else match lines rest with
        | [] => [[letter]]
        | line :: others => (letter :: line) :: others

/-- The characters up to the one that ends a string. -/
def cString (line : List Char) : List Char := line.takeWhile (· ≠ '\x00')

/-- `++`. -/
def Pointer.next : Pointer → Pointer
  | .inside offset => .inside (offset + 1)
  | .null => .wild
  | .wild => .wild

/-- The text from a pointer on. The end of the line can be pointed to. -/
def behind (line : List Char) : Pointer → Except Fault (Nat × List Char)
  | .inside offset => if offset ≤ line.length then .ok (offset, line.drop offset) else .error .outside
  | .null => .error .outside
  | .wild => .error .outside

def strchr (line : List Char) (letter : Char) (pointer : Pointer) : Except Fault Pointer := do
  let (offset, text) ← behind line pointer
  match text.idxOf? letter with
  | some further => .ok (.inside (offset + further))
  | none => .ok .null

/-- `isspace`. -/
def isSpace (letter : Char) : Bool :=
  letter ∈ [' ', '\t', '\n', '\x0b', '\x0c', '\r']

/-- A number may have a sign. -/
def unsigned (text : List Char) : Bool × List Char :=
  if text.head? = some '-' then (true, text.tail)
  else if text.head? = some '+' then (false, text.tail)
  else (false, text)

def unprefixed (text : List Char) : List Char :=
  if text.head? = some '0' ∧ (text.tail.head? = some 'x' ∨ text.tail.head? = some 'X') then text.drop 2 else text

/-- The conversion `%x` of `sscanf`, which reads as `strtoul` does. -/
def scanHex (text : List Char) : Option Nat :=
  let (negative, text) := unsigned (text.dropWhile isSpace)
  let digits := (unprefixed text).takeWhile fun letter => (Hexadecimal.digit letter).isSome
  let number := Hexadecimal.number digits
  if digits.isEmpty then none
  else if 2 ^ 64 ≤ number then some (2 ^ 32 - 1)
  else if negative then some ((2 ^ 64 - number) % 2 ^ 32)
  else some (number % 2 ^ 32)

def sscanf (line : List Char) (pointer : Pointer) : Except Fault (Option Nat) := do
  let (_, text) ← behind line pointer
  .ok (scanHex text)

/-- The loop that counts commas, with a bound on its passes. -/
def countCommas (line : List Char) : Nat → Pointer → Nat → Except Fault Nat
  | 0, _, _ => .error .unfinished
  | passes + 1, commaPtr, numComma => do
      match ← strchr line ',' commaPtr with
      | .null => .ok numComma
      | found => countCommas line passes found.next (numComma + 1)

/-- The loop that skips words. -/
def skipWords (line : List Char) : Nat → Pointer → Except Fault (Option SchedError × Pointer)
  | 0, linePtr => .ok (none, linePtr)
  | times + 1, linePtr => do
      match ← strchr line ',' linePtr with
      | .null => .ok (some .logic, .null)
      | found => skipWords line times found.next

/-- As many words are skipped as the line has too many. -/
def skipExtra (line : List Char) (numRead numComma : Nat) (err : Option SchedError) (linePtr : Pointer) :
    Except Fault (Option SchedError × Pointer) :=
  if err = none ∧ (numRead : Int) - 1 < numComma then
    skipWords line (numComma - (numRead - 1) : Int).toNat linePtr
  else .ok (err, linePtr)

/-- What the loops leave: `err`, `read_idx` and `proc_cpuset`. -/
structure Progress where
  err : Option SchedError
  readIdx : Int
  procCpuset : List Nat
deriving Repr, DecidableEq

/-- The loop that reads as many words, down to the one with index 0. The index is decremented after an error too. -/
def readWords (line : List Char) : Nat → Pointer → List Nat → Except Fault Progress
  | 0, _, procCpuset => .ok ⟨none, -1, procCpuset⟩
  | readIdx + 1, linePtr, procCpuset => do
      match ← sscanf line linePtr with
      | none => .ok ⟨some .runtime, readIdx - 1, procCpuset⟩
      | some word =>
          let procCpuset := procCpuset.set readIdx word
          let found ← strchr line ',' linePtr
          if readIdx ≠ 0 ∧ found = .null then .ok ⟨some .runtime, readIdx - 1, procCpuset⟩
          else readWords line readIdx found.next procCpuset

/-- The body of the loop over the lines. -/
def readLine (numRead : Nat) (progress : Progress) (line : List Char) : Except Fault Progress :=
  if key.isPrefixOf line then do
    let line := cString line
    let linePtr := Pointer.inside key.length
    let numComma ← countCommas line (line.length + 1) linePtr 0
    let (err, linePtr) ← skipExtra line numRead numComma progress.err linePtr
    match err with
    | some _ => .ok { progress with err, readIdx := numRead - 1 }
    | none => readWords line numRead linePtr progress.procCpuset
  else .ok progress

/-- `num_read`. -/
def numRead (numCpu : Nat) : Nat := numCpu / 32 + if numCpu % 32 ≠ 0 then 1 else 0

/-- `geopm_sched_proc_cpuset_helper`: the error that it returns, if any, and the words. -/
def procCpusetHelper (numCpu : Nat) (procCpuset : List Nat) (fid : List Char) :
    Except Fault (Option SchedError × List Nat) := do
  let progress ← (lines fid).foldlM (readLine (numRead numCpu)) ⟨none, 0, procCpuset⟩
  .ok (if progress.readIdx ≠ -1 then some .runtime else progress.err, progress.procCpuset)

/-- `CPU_ISSET` of the words as a set of CPUs. -/
def isSet (words : List Nat) (cpu : Nat) : Bool := (words.getD (cpu / 32) 0).testBit (cpu % 32)

/-- Words of at most 8 hexadecimal digits. -/
def Words (words : List (List Char)) : Prop :=
  ∀ word ∈ words, word ≠ [] ∧ word.length ≤ 8 ∧ Hexadecimal.Digits word

/-- Words with commas between them, and blanks before and behind. -/
def Separated (text : List Char) (words : List (List Char)) : Prop :=
  ∃ blanks ending, text = blanks ++ [','].intercalate words ++ ending ∧
    (∀ letter ∈ blanks, isSpace letter) ∧ ∀ letter ∈ ending, isSpace letter

/-- The line of the key with these words. -/
def MaskLine (line : List Char) (words : List (List Char)) : Prop :=
  ∃ text, line = key ++ text ∧ Separated text words ∧ Words words

/-- The number of a mask, whose last word is the least significant. -/
def maskNumber (words : List (List Char)) : Nat :=
  Nat.ofDigits (2 ^ 32) (words.reverse.map Hexadecimal.number)

/-- The pointer is in the line, before the text. -/
def Before (line : List Char) (pointer : Pointer) (text : List Char) : Prop := ∃ offset, pointer = .inside offset ∧
  offset ≤ line.length ∧ line.drop offset = text

variable {line text before after word : List Char} {words : List (List Char)} {pointer : Pointer} {letter : Char}
  {procCpuset : List Nat} {progress : Progress} {passes times count : Nat}

theorem Before.behind (inside : Before line pointer text) :
    ∃ offset, Sched.behind line pointer = .ok (offset, text) ∧ pointer = .inside offset := by
  obtain ⟨offset, rfl, bound, rfl⟩ := inside
  exact ⟨offset, if_pos bound, rfl⟩

theorem sscanf_ok (inside : Before line pointer text) : sscanf line pointer = .ok (scanHex text) := by
  obtain ⟨offset, found, _⟩ := inside.behind
  rw [sscanf, found]
  rfl

theorem strchr_none (inside : Before line pointer text) (absent : letter ∉ text) :
    strchr line letter pointer = .ok .null := by
  obtain ⟨offset, found, _⟩ := inside.behind
  rw [strchr, found]
  simp only [bind, Except.bind, List.idxOf?_eq_none_iff.mpr absent]

theorem idxOf?_first (absent : letter ∉ before) : (before ++ letter :: after).idxOf? letter = some before.length := by
  rw [List.idxOf?_eq_some_iff]
  refine ⟨by simp, by simp, ?_⟩
  intro place early same
  rw [List.getElem_append_left early] at same
  exact absent (same ▸ List.getElem_mem early)

theorem strchr_some (inside : Before line pointer (before ++ letter :: after)) (absent : letter ∉ before) :
    ∃ offset, strchr line letter pointer = .ok (.inside offset) ∧ Before line (.inside (offset + 1)) after := by
  obtain ⟨offset, rfl, bound, rest⟩ := inside
  refine ⟨offset + before.length, ?_, offset + before.length + 1, rfl, ?_, ?_⟩
  · rw [strchr, Sched.behind, if_pos bound, rest]
    simp only [bind, Except.bind, idxOf?_first absent]
  · have sized := congrArg List.length rest
    rw [List.length_drop, List.length_append, List.length_cons] at sized
    omega
  · rw [Nat.add_assoc, ← List.drop_drop, rest]
    simp

/-- The loop counts all the commas, and each scan starts in the line. -/
theorem countCommas_ok {numComma : Nat} (inside : Before line pointer text) (enough : text.length < passes) :
    countCommas line passes pointer numComma = .ok (numComma + text.count ',') := by
  induction passes generalizing pointer text numComma with
  | zero => exact absurd enough (Nat.not_lt_zero _)
  | succ passes ih =>
      rw [countCommas]
      by_cases member : ',' ∈ text
      case neg =>
          simp only [strchr_none inside member, bind, Except.bind, List.count_eq_zero_of_not_mem member, Nat.add_zero]
      case pos =>
          obtain ⟨before, after, rfl, absent⟩ := List.eq_append_cons_of_mem member
          obtain ⟨offset, found, later⟩ := strchr_some inside absent
          rw [List.length_append, List.length_cons] at enough
          simp only [found, bind, Except.bind, Pointer.next]
          rw [ih later (by omega), List.count_append, List.count_cons_self, List.count_eq_zero_of_not_mem absent]
          congr 1
          omega

/-- A letter that ends a number and is no part of a prefix. -/
def Ends (letter : Char) : Prop := Hexadecimal.digit letter = none ∧ letter ≠ 'x' ∧ letter ≠ 'X'

theorem ends_comma : Ends ',' := by
  rw [Ends]
  decide

theorem ends_of_isSpace (space : isSpace letter) : Ends letter := by
  rw [isSpace, decide_eq_true_iff] at space
  simp only [List.mem_cons, List.not_mem_nil, or_false] at space
  rcases space with rfl | rfl | rfl | rfl | rfl | rfl <;> exact ⟨rfl, by decide, by decide⟩

theorem ne_of_digit (other : Char) (written : (Hexadecimal.digit letter).isSome)
    (refused : Hexadecimal.digit other = none) : letter ≠ other := by
  rintro rfl
  rw [refused] at written
  cases written

theorem not_isSpace_of_digit (written : (Hexadecimal.digit letter).isSome) : ¬ isSpace letter := by
  intro space
  exact ne_of_digit letter written (ends_of_isSpace space).1 rfl

theorem unsigned_digit (written : (Hexadecimal.digit letter).isSome) :
    unsigned (letter :: text) = (false, letter :: text) := by
  have minus := ne_of_digit '-' written rfl
  have plus := ne_of_digit '+' written rfl
  simp [unsigned, minus, plus]

theorem unprefixed_word (written : Hexadecimal.Digits word) (some_digit : word ≠ [])
    (ended : ∀ letter, after.head? = some letter → Ends letter) : unprefixed (word ++ after) = word ++ after := by
  rw [unprefixed, if_neg]
  rintro ⟨_, marked⟩
  obtain ⟨first, others, rfl⟩ := List.exists_cons_of_ne_nil some_digit
  rw [List.cons_append, List.tail_cons] at marked
  cases others with
  | nil =>
      rw [List.nil_append] at marked
      rcases marked with lower | upper
      · exact (ended _ lower).2.1 rfl
      · exact (ended _ upper).2.2 rfl
  | cons second rest =>
      have digit := written second (by simp)
      simp only [List.cons_append, List.head?_cons, Option.some.injEq] at marked
      rcases marked with rfl | rfl
      · exact ne_of_digit 'x' digit rfl rfl
      · exact ne_of_digit 'X' digit rfl rfl

theorem takeWhile_word (written : Hexadecimal.Digits word)
    (ended : ∀ letter, after.head? = some letter → Ends letter) :
    (word ++ after).takeWhile (fun letter => (Hexadecimal.digit letter).isSome) = word := by
  rw [List.takeWhile_append_of_pos written]
  cases after with
  | nil => simp
  | cons letter rest => simp [(ended letter rfl).1]

/-- A word is read up to what ends it. -/
theorem scanHex_word {blanks : List Char} (spaces : ∀ letter ∈ blanks, isSpace letter) (some_digit : word ≠ [])
    (short : word.length ≤ 8) (written : Hexadecimal.Digits word)
    (ended : ∀ letter, after.head? = some letter → Ends letter) :
    scanHex (blanks ++ (word ++ after)) = some (Hexadecimal.number word) := by
  have small : Hexadecimal.number word < 2 ^ 32 :=
    (Hexadecimal.number_lt written).trans_le (Nat.pow_le_pow_right (by decide) short)
  have dropped : (blanks ++ (word ++ after)).dropWhile isSpace = word ++ after := by
    obtain ⟨first, others, rfl⟩ := List.exists_cons_of_ne_nil some_digit
    rw [List.dropWhile_append_of_pos spaces, List.cons_append,
      List.dropWhile_cons_of_neg (not_isSpace_of_digit (written first (by simp)))]
  have signless : unsigned (word ++ after) = (false, word ++ after) := by
    obtain ⟨first, others, rfl⟩ := List.exists_cons_of_ne_nil some_digit
    exact unsigned_digit (written first (by simp))
  rw [scanHex, dropped, signless]
  simp only [unprefixed_word written some_digit ended, takeWhile_word written ended]
  rw [if_neg (by simpa using some_digit), if_neg (by omega), if_neg (by simp), Nat.mod_eq_of_lt small]

theorem scanHex_blank (spaces : ∀ letter ∈ text, isSpace letter) : scanHex text = none := by
  have dropped : text.dropWhile isSpace = [] := List.dropWhile_eq_nil_iff.mpr spaces
  rw [scanHex, dropped]
  rfl

theorem absent_of_spaces (spaces : ∀ letter ∈ text, isSpace letter) (visible : isSpace letter = false) :
    letter ∉ text := by
  intro member
  have space := spaces letter member
  rw [visible] at space
  cases space

theorem absent_of_digits (written : Hexadecimal.Digits word) (refused : Hexadecimal.digit letter = none) :
    letter ∉ word := by
  intro member
  exact ne_of_digit letter (written letter member) refused rfl

theorem comma_free_word {blanks : List Char} (spaces : ∀ letter ∈ blanks, isSpace letter)
    (written : Hexadecimal.Digits word) : ',' ∉ blanks ++ word := by
  rw [List.mem_append, not_or]
  exact ⟨absent_of_spaces spaces rfl, absent_of_digits written rfl⟩

theorem Words.cons (words_read : Words (word :: words)) : (word ≠ [] ∧ word.length ≤ 8 ∧ Hexadecimal.Digits word) ∧
    Words words := List.forall_mem_cons.mp words_read

/-- Before its last word, a text has a word and a comma. -/
theorem Separated.first {next : List Char} (separated : Separated text (word :: next :: words)) :
    ∃ blanks after, text = (blanks ++ word) ++ ',' :: after ∧ (∀ letter ∈ blanks, isSpace letter) ∧
      Separated after (next :: words) := by
  obtain ⟨blanks, ending, rfl, spaces, ended⟩ := separated
  refine ⟨blanks, [','].intercalate (next :: words) ++ ending, ?_, spaces, [], ending, rfl, by simp, ended⟩
  rw [List.intercalate_cons_of_ne_nil (List.cons_ne_nil _ _)]
  simp only [List.append_assoc, List.nil_append, List.cons_append]

theorem Separated.last (separated : Separated text [word]) :
    ∃ blanks ending, text = blanks ++ (word ++ ending) ∧ (∀ letter ∈ blanks, isSpace letter) ∧
      ∀ letter ∈ ending, isSpace letter := by
  obtain ⟨blanks, ending, rfl, spaces, ended⟩ := separated
  exact ⟨blanks, ending, by simp, spaces, ended⟩

theorem Separated.empty (separated : Separated text []) : ∀ letter ∈ text, isSpace letter := by
  obtain ⟨blanks, ending, rfl, spaces, ended⟩ := separated
  simpa [or_imp, forall_and] using ⟨spaces, ended⟩

/-- The first word of a text is the one that is read. -/
theorem Separated.scanHex (separated : Separated text (word :: words)) (written : Words (word :: words)) :
    scanHex text = some (Hexadecimal.number word) := by
  obtain ⟨⟨some_digit, short, digits⟩, _⟩ := written.cons
  cases words with
  | nil =>
      obtain ⟨blanks, ending, rfl, spaces, ended⟩ := separated.last
      apply scanHex_word spaces some_digit short digits
      intro letter first
      exact ends_of_isSpace (ended letter (List.mem_of_mem_head? first))
  | cons next rest =>
      obtain ⟨blanks, after, rfl, spaces, _⟩ := separated.first
      rw [List.append_assoc]
      apply scanHex_word spaces some_digit short digits
      intro letter first
      cases first
      exact ends_comma

theorem Separated.comma_free (separated : Separated text [word]) (written : Words [word]) : ',' ∉ text := by
  obtain ⟨blanks, ending, rfl, spaces, ended⟩ := separated.last
  rw [← List.append_assoc, List.mem_append, not_or]
  exact ⟨comma_free_word spaces written.cons.1.2.2, absent_of_spaces ended rfl⟩

/-- The scan for a comma goes on to the next word. -/
theorem Separated.next_word {next : List Char} (separated : Separated text (word :: next :: words))
    (written : Words (word :: next :: words)) (inside : Before line pointer text) :
    ∃ offset after, strchr line ',' pointer = .ok (.inside offset) ∧
      Before line (.inside (offset + 1)) after ∧ Separated after (next :: words) := by
  obtain ⟨blanks, after, rfl, spaces, rest⟩ := separated.first
  obtain ⟨offset, found, later⟩ := strchr_some inside (comma_free_word spaces written.cons.1.2.2)
  exact ⟨offset, after, found, later, rest⟩

/-- The commas of a text are one fewer than its words. -/
theorem Separated.commas (separated : Separated text words) (written : Words words) :
    text.count ',' = words.length - 1 := by
  induction words generalizing text with
  | nil => exact List.count_eq_zero_of_not_mem (absent_of_spaces separated.empty rfl)
  | cons word rest ih =>
      cases rest with
      | nil => exact List.count_eq_zero_of_not_mem (separated.comma_free written)
      | cons next rest =>
          obtain ⟨blanks, after, rfl, spaces, later⟩ := separated.first
          have absent := comma_free_word spaces written.cons.1.2.2
          rw [List.count_append, List.count_cons_self, ih later written.cons.2, List.count_eq_zero_of_not_mem absent]
          simp

theorem skipWords_ok (separated : Separated text words) (written : Words words) (inside : Before line pointer text)
    (fewer : times < words.length) :
    ∃ reached after, skipWords line times pointer = .ok (none, reached) ∧ Before line reached after ∧
      Separated after (words.drop times) ∧ Words (words.drop times) := by
  induction times generalizing pointer text words with
  | zero => exact ⟨pointer, text, rfl, inside, separated, written⟩
  | succ times ih =>
      match words with
      | [] => exact absurd fewer (by simp)
      | [word] => exact absurd fewer (by simp)
      | word :: next :: rest =>
          obtain ⟨offset, after, found, later, separated⟩ := separated.next_word written inside
          rw [skipWords, found]
          exact ih separated written.cons.2 later (by simpa using fewer)

/-- As many words as there are are read, the last one to index 0. -/
theorem readWords_ok (separated : Separated text words) (written : Words words) (inside : Before line pointer text)
    (room : words.length ≤ procCpuset.length) :
    readWords line words.length pointer procCpuset =
      .ok ⟨none, -1, (words.map Hexadecimal.number).reverse ++ procCpuset.drop words.length⟩ := by
  induction words generalizing pointer text procCpuset with
  | nil => rfl
  | cons word rest ih =>
      rw [List.length_cons] at room ⊢
      have scanned := sscanf_ok inside
      rw [separated.scanHex written] at scanned
      have filled : (procCpuset.set rest.length (Hexadecimal.number word)).drop rest.length =
          Hexadecimal.number word :: procCpuset.drop (rest.length + 1) := by
        rw [List.drop_set, if_neg (lt_irrefl _), Nat.sub_self, List.drop_eq_getElem_cons (by omega), List.set_cons_zero]
      rw [readWords, scanned]
      cases rest with
      | nil =>
          simp only [bind, Except.bind, strchr_none inside (separated.comma_free written), List.length_nil, ne_eq,
            not_true_eq_false, false_and, if_false, readWords, Pointer.next]
          simpa using filled
      | cons next rest =>
          obtain ⟨offset, after, found, later, separated⟩ := separated.next_word written inside
          simp only [bind, Except.bind, found, reduceCtorEq, and_false, if_false, Pointer.next]
          rw [ih separated written.cons.2 later (by simpa using Nat.le_of_succ_le room), filled]
          simp only [List.map_cons, List.reverse_cons, List.append_assoc, List.cons_append, List.nil_append]

/-- With fewer words an error is returned, and no scan starts outside of the line. -/
theorem readWords_few (separated : Separated text words) (written : Words words) (inside : Before line pointer text)
    (few : words.length < count) :
    ∃ left : Progress, readWords line count pointer procCpuset = .ok left ∧ left.err = some .runtime := by
  induction words generalizing pointer text procCpuset count with
  | nil =>
      obtain ⟨readIdx, rfl⟩ := Nat.exists_eq_add_of_le' few
      refine ⟨⟨some .runtime, readIdx - 1, procCpuset⟩, ?_, rfl⟩
      rw [List.length_nil, readWords, sscanf_ok inside, scanHex_blank separated.empty]
      rfl
  | cons word rest ih =>
      obtain ⟨readIdx, rfl⟩ := Nat.exists_eq_add_of_le' (Nat.one_le_of_lt few)
      have scanned := sscanf_ok inside
      rw [separated.scanHex written] at scanned
      rw [readWords, scanned]
      cases rest with
      | nil =>
          have not_last : readIdx ≠ 0 := by
            rintro rfl
            exact absurd few (by simp)
          refine ⟨⟨some .runtime, readIdx - 1, procCpuset.set readIdx (Hexadecimal.number word)⟩, ?_, rfl⟩
          simp only [bind, Except.bind, strchr_none inside (separated.comma_free written), not_last, ne_eq,
            not_false_eq_true, and_self, if_true]
      | cons next rest =>
          obtain ⟨offset, after, found, later, separated⟩ := separated.next_word written inside
          simp only [bind, Except.bind, found, reduceCtorEq, and_false, if_false, Pointer.next]
          exact ih separated written.cons.2 later (by simpa using few)

theorem Words.nul_free (written : Words words) : '\x00' ∉ [','].intercalate words := by
  induction words with
  | nil => exact List.not_mem_nil
  | cons word rest ih =>
      have digits : '\x00' ∉ word := absent_of_digits written.cons.1.2.2 rfl
      cases rest with
      | nil => simpa using digits
      | cons next rest =>
          rw [List.intercalate_cons_of_ne_nil (List.cons_ne_nil _ _)]
          simp only [List.mem_append, List.mem_singleton, not_or]
          exact ⟨⟨digits, by decide⟩, ih written.cons.2⟩

theorem cString_maskLine (mask : MaskLine line words) : cString line = line := by
  obtain ⟨text, rfl, ⟨blanks, ending, rfl, spaces, ended⟩, written⟩ := mask
  rw [cString, List.takeWhile_eq_self_iff]
  intro letter member
  have nul_free : '\x00' ∉ key ++ (blanks ++ [','].intercalate words ++ ending) := by
    simp only [List.mem_append, not_or]
    exact ⟨by decide +kernel, ⟨absent_of_spaces spaces rfl, written.nul_free⟩, absent_of_spaces ended rfl⟩
  exact decide_eq_true fun same : letter = '\x00' => nul_free (same ▸ member)

theorem before_key : Before (key ++ text) (.inside key.length) text :=
  ⟨key.length, rfl, by simp, List.drop_left⟩

theorem skipExtra_ok (separated : Separated text words) (written : Words words) (inside : Before line pointer text)
    (some_word : 1 ≤ count) :
    ∃ reached after, skipExtra line count (words.length - 1) none pointer = .ok (none, reached) ∧
      Before line reached after ∧ Separated after (words.drop (words.length - count)) ∧
      Words (words.drop (words.length - count)) := by
  by_cases many : count < words.length
  · have times : ((words.length - 1 : Nat) - (count - 1) : Int).toNat = words.length - count := by omega
    rw [skipExtra, if_pos ⟨rfl, by omega⟩, times]
    exact skipWords_ok separated written inside (by omega)
  · have all : words.drop (words.length - count) = words := by
      rw [Nat.sub_eq_zero_of_le (by omega), List.drop_zero]
    rw [skipExtra, if_neg (by omega), all]
    exact ⟨pointer, text, rfl, inside, separated, written⟩

/-- A line of the key is read from the words that are not skipped. -/
theorem readLine_mask (mask : MaskLine line words) (some_word : 1 ≤ count) (fresh : progress.err = none) :
    ∃ reached after, readLine count progress line = readWords line count reached progress.procCpuset ∧
      Before line reached after ∧ Separated after (words.drop (words.length - count)) ∧
      Words (words.drop (words.length - count)) := by
  have whole := cString_maskLine mask
  obtain ⟨text, rfl, separated, written⟩ := mask
  have counted : countCommas (key ++ text) ((key ++ text).length + 1) (.inside key.length) 0 =
      .ok (words.length - 1) := by
    rw [countCommas_ok before_key (by simp), separated.commas written, Nat.zero_add]
  obtain ⟨reached, after, skipped, inside, rest⟩ := skipExtra_ok separated written before_key some_word
  refine ⟨reached, after, ?_, inside, rest⟩
  rw [readLine, if_pos (by simp), whole]
  simp only [counted, fresh, skipped, bind, Except.bind]

theorem readLine_enough (mask : MaskLine line words) (some_word : 1 ≤ count) (enough : count ≤ words.length)
    (fresh : progress.err = none) (room : progress.procCpuset.length = count) :
    readLine count progress line = .ok ⟨none, -1, (words.map Hexadecimal.number).reverse.take count⟩ := by
  obtain ⟨reached, after, read, inside, separated, written⟩ := readLine_mask mask some_word fresh
  have sized : (words.drop (words.length - count)).length = count := by
    rw [List.length_drop]
    omega
  have done := readWords_ok separated written inside (sized.trans_le room.ge)
  rw [sized] at done
  rw [read, done, List.take_reverse, List.length_map, List.map_drop, ← room, List.drop_length, List.append_nil]

theorem readLine_few (mask : MaskLine line words) (few : words.length < count) (fresh : progress.err = none) :
    ∃ left : Progress, readLine count progress line = .ok left ∧ left.err = some .runtime := by
  obtain ⟨reached, after, read, inside, separated, written⟩ := readLine_mask mask (Nat.one_le_of_lt few) fresh
  rw [read]
  apply readWords_few separated written inside
  rw [List.length_drop]
  omega

/-- A status text has at most one line of the key, and hexadecimal words on it. -/
structure Status (fid : List Char) : Prop where
  single : (lines fid).countP (key.isPrefixOf ·) ≤ 1
  formed : ∀ line ∈ lines fid, key <+: line → ∃ words, MaskLine line words

variable {fid : List Char} {numCpu : Nat} {others : List (List Char)}

theorem MaskLine.keyed (mask : MaskLine line words) : key <+: line := by
  obtain ⟨text, rfl, _⟩ := mask
  exact List.prefix_append key text

theorem foldlM_other (unkeyed : ∀ line ∈ others, ¬ key <+: line) :
    others.foldlM (readLine count) progress = .ok progress := by
  induction others with
  | nil => rfl
  | cons line rest ih =>
      rw [List.forall_mem_cons] at unkeyed
      rw [List.foldlM_cons, readLine, if_neg (by simpa using unkeyed.1)]
      exact ih unkeyed.2

/-- Only the line of the key counts. -/
theorem foldlM_single (single : others.countP (key.isPrefixOf ·) ≤ 1) (member : line ∈ others) (keyed : key <+: line) :
    others.foldlM (readLine count) progress = readLine count progress line := by
  obtain ⟨earlier, later, rfl⟩ := List.append_of_mem member
  rw [List.countP_append, List.countP_cons_of_pos (by simpa using keyed)] at single
  have none_earlier : earlier.countP (key.isPrefixOf ·) = 0 := by omega
  have none_later : later.countP (key.isPrefixOf ·) = 0 := by omega
  rw [List.countP_eq_zero] at none_earlier none_later
  rw [List.foldlM_append, foldlM_other fun other among => by simpa using none_earlier other among]
  change List.foldlM (readLine count) progress (line :: later) = _
  rw [List.foldlM_cons]
  cases readLine count progress line with
  | error fault => rfl
  | ok next => exact foldlM_other fun other among => by simpa using none_later other among

theorem numRead_eq : numRead numCpu = (numCpu + 31) / 32 := by
  rw [numRead]
  split <;> omega

theorem helper_enough (status : Status fid) (member : line ∈ lines fid) (mask : MaskLine line words)
    (some_cpu : 1 ≤ numCpu) (room : procCpuset.length = (numCpu + 31) / 32)
    (enough : (numCpu + 31) / 32 ≤ words.length) :
    procCpusetHelper numCpu procCpuset fid =
      .ok (none, (words.map Hexadecimal.number).reverse.take ((numCpu + 31) / 32)) := by
  rw [procCpusetHelper, foldlM_single status.single member mask.keyed, numRead_eq,
    readLine_enough mask (by omega) enough rfl room]
  rfl

theorem helper_few (status : Status fid) (member : line ∈ lines fid) (mask : MaskLine line words)
    (few : words.length < (numCpu + 31) / 32) :
    ∃ found, procCpusetHelper numCpu procCpuset fid = .ok (some .runtime, found) := by
  obtain ⟨left, read, failed⟩ := @readLine_few line words ⟨none, 0, procCpuset⟩ _ mask few rfl
  refine ⟨left.procCpuset, ?_⟩
  rw [procCpusetHelper, foldlM_single status.single member mask.keyed, numRead_eq, read]
  simp only [bind, Except.bind, failed, ite_self]

theorem helper_none (absent : ∀ line ∈ lines fid, ¬ key <+: line) :
    procCpusetHelper numCpu procCpuset fid = .ok (some .runtime, procCpuset) := by
  rw [procCpusetHelper, foldlM_other absent]
  rfl

/-- The words that are kept have the bits of the mask below the boundary. -/
theorem isSet_take (written : Words words) {cpu : Nat} :
    isSet ((words.map Hexadecimal.number).reverse.take count) cpu ↔
      cpu < 32 * count ∧ (maskNumber words).testBit cpu := by
  have small : ∀ word ∈ words.reverse.map Hexadecimal.number, word < 2 ^ 32 := by
    intro number member
    obtain ⟨word, among, rfl⟩ := List.mem_map.mp member
    obtain ⟨_, short, digits⟩ := written word (List.mem_reverse.mp among)
    exact (Hexadecimal.number_lt digits).trans_le (Nat.pow_le_pow_right (by decide) short)
  rw [isSet, maskNumber, Hexadecimal.testBit_ofDigits (by decide) small, ← List.map_reverse]
  by_cases below : cpu < 32 * count
  · have kept : cpu / 32 < count := Nat.div_lt_of_lt_mul below
    simp [below, List.getD_eq_getElem?_getD, List.getElem?_take_of_lt kept]
  · have cut : count ≤ cpu / 32 := by omega
    simp [below, List.getD_eq_getElem?_getD, List.getElem?_take_eq_none cut]

/-- No scan starts outside of the line, the words are read if there are enough of them, and they are the last ones of
the line from the right. -/
theorem procCpusetHelper_mask (numCpu : Nat) (fid : List Char) (procCpuset : List Nat) (some_cpu : 1 ≤ numCpu)
    (room : procCpuset.length = (numCpu + 31) / 32) (status : Status fid) :
    ∃ err found, procCpusetHelper numCpu procCpuset fid = .ok (err, found) ∧
      (err = none ↔ ∃ line ∈ lines fid, ∃ words, MaskLine line words ∧ (numCpu + 31) / 32 ≤ words.length) ∧
      ∀ line ∈ lines fid, ∀ words, MaskLine line words → (numCpu + 31) / 32 ≤ words.length →
        (∀ index < (numCpu + 31) / 32, found[index]? = words.reverse[index]?.map Hexadecimal.number) ∧
        ∀ cpu, isSet found cpu ↔ cpu < 32 * ((numCpu + 31) / 32) ∧ (maskNumber words).testBit cpu := by
  by_cases enough : ∃ line ∈ lines fid, ∃ words, MaskLine line words ∧ (numCpu + 31) / 32 ≤ words.length
  case pos =>
      obtain ⟨line, member, words, mask, enough⟩ := enough
      have done := helper_enough status member mask some_cpu room enough
      refine ⟨none, _, done, iff_of_true rfl ⟨line, member, words, mask, enough⟩, ?_⟩
      intro other among others otherMask otherEnough
      have again := helper_enough status among otherMask some_cpu room otherEnough
      rw [done, Except.ok.injEq, Prod.mk.injEq] at again
      obtain ⟨_, _, _, written⟩ := otherMask
      rw [again.2]
      refine ⟨?_, fun cpu => isSet_take written⟩
      intro index inside
      rw [List.getElem?_take_of_lt inside, ← List.map_reverse, List.getElem?_map]
  case neg =>
      have failed : ∃ found, procCpusetHelper numCpu procCpuset fid = .ok (some .runtime, found) := by
        by_cases keyed : ∃ line ∈ lines fid, key <+: line
        · obtain ⟨line, member, keyed⟩ := keyed
          obtain ⟨words, mask⟩ := status.formed line member keyed
          apply helper_few status member mask
          by_contra many
          exact enough ⟨line, member, words, mask, Nat.not_lt.mp many⟩
        · exact ⟨procCpuset, helper_none fun line member prefixed => keyed ⟨line, member, prefixed⟩⟩
      obtain ⟨found, done⟩ := failed
      refine ⟨_, found, done, iff_of_false (by simp) enough, ?_⟩
      intro line member words mask many
      exact absurd ⟨line, member, words, mask, many⟩ enough

/-- Two words for 40 CPUs, and one word too many. -/
def paddedStatus : List Char := "Name:\tgeopm\nCpus_allowed:\t0,ff,ffffff0f\n".toList

theorem procCpusetHelper_mask_padded :
    ∃ err found, procCpusetHelper 40 [0, 0] paddedStatus = .ok (err, found) ∧
      (err = none ↔ ∃ line ∈ lines paddedStatus, ∃ words, MaskLine line words ∧ (40 + 31) / 32 ≤ words.length) ∧
      ∀ line ∈ lines paddedStatus, ∀ words, MaskLine line words → (40 + 31) / 32 ≤ words.length →
        (∀ index < (40 + 31) / 32, found[index]? = words.reverse[index]?.map Hexadecimal.number) ∧
        ∀ cpu, isSet found cpu ↔ cpu < 32 * ((40 + 31) / 32) ∧ (maskNumber words).testBit cpu := by
  have split : lines paddedStatus = ["Name:\tgeopm\n".toList, "Cpus_allowed:\t0,ff,ffffff0f\n".toList] := by
    decide +kernel
  apply procCpusetHelper_mask 40 paddedStatus [0, 0] (by decide) rfl
  constructor
  · rw [split]
    decide +kernel
  · intro line member keyed
    rw [split] at member
    simp only [List.mem_cons, List.not_mem_nil, or_false] at member
    rcases member with rfl | rfl
    · exact absurd keyed (by decide +kernel)
    · refine ⟨["0".toList, "ff".toList, "ffffff0f".toList], "\t0,ff,ffffff0f\n".toList, by decide +kernel,
        ⟨['\t'], ['\n'], by decide +kernel, List.forall_mem_singleton.mpr rfl, List.forall_mem_singleton.mpr rfl⟩, ?_⟩
      have digits : ∀ word ∈ ["0".toList, "ff".toList, "ffffff0f".toList],
          (word.all fun letter => (Hexadecimal.digit letter).isSome) := List.all_eq_true.mp rfl
      intro word member
      have sized : word ≠ [] ∧ word.length ≤ 8 := by
        simp only [List.mem_cons, List.not_mem_nil, or_false] at member
        rcases member with rfl | rfl | rfl <;> decide
      exact ⟨sized.1, sized.2, List.all_eq_true.mp (digits word member)⟩

end Sched

end Geopm
