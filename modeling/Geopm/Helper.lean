import Geopm.EpochFilter.ParseName

namespace Geopm

/-! `string_split` and `string_join`: the pieces of a text between delimiters. -/

namespace Helper

inductive HelperError where
  /-- "Helper::string_split(): invalid delimiter" -/
  | invalidDelimiter
  /-- `std::out_of_range` of `substr` -/
  | outOfRange
  /-- No exception of the source: a loop has not ended within the bound on its passes. -/
  | unfinished
deriving Repr, DecidableEq

/-- The first place of a text that starts with the delimiter. -/
def firstMatch (delim : List Char) : List Char → Option Nat
  | [] => if delim.isEmpty then some 0 else none
  | letter :: rest =>
      if delim.isPrefixOf (letter :: rest) then some 0
      else (firstMatch delim rest).map (· + 1)

/-- `find`, where no place is `npos`. -/
def find (str delim : List Char) (pos : Nat) : Option Nat :=
  if str.length < pos then none else (firstMatch delim (str.drop pos)).map (pos + ·)

def substr (str : List Char) (pos count : Nat) : Except HelperError (List Char) :=
  if str.length < pos then .error .outOfRange else .ok ((str.drop pos).take count)

/-- The loop over the delimiters, and the last piece. -/
def splitWithin (str delim : List Char) :
    Nat → Nat → Option Nat → List (List Char) → Except HelperError (List (List Char))
  | 0, _, _, _ => .error .unfinished
  | passes + 1, startPos, some delPos, pieces => do
      let piece ← substr str startPos (delPos - startPos)
      let startPos := delPos + delim.length
      splitWithin str delim passes startPos (find str delim startPos) (pieces ++ [piece])
  | _ + 1, startPos, none, pieces => do
      let last ← substr str startPos str.length
      .ok (pieces ++ [last])

def stringSplit (str delim : List Char) : Except HelperError (List (List Char)) :=
  if delim.isEmpty then .error .invalidDelimiter
  else if str.isEmpty then .ok []
  else splitWithin str delim (str.length + 1) 0 (find str delim 0) []

def stringJoin (list : List (List Char)) (delim : List Char) : List Char :=
  match list.getLast? with
  | none => []
  | some back => list.dropLast.foldl (fun result str => result ++ str ++ delim) [] ++ back

variable {str delim text last : List Char} {list pieces : List (List Char)} {passes startPos delPos pos : Nat}

theorem stringJoin_concat : stringJoin (pieces ++ [last]) delim = pieces.flatMap (· ++ delim) ++ last := by
  have loop : ∀ result, pieces.foldl (fun result str => result ++ str ++ delim) result =
      result ++ pieces.flatMap (· ++ delim) := by
    induction pieces with
    | nil => simp
    | cons head rest ih =>
        intro result
        rw [List.foldl_cons, ih, List.flatMap_cons, List.append_assoc, List.append_assoc, List.append_assoc]
  rw [stringJoin, List.getLast?_concat, List.dropLast_concat]
  simp only [loop, List.nil_append]

theorem intercalate_concat : delim.intercalate (pieces ++ [last]) = pieces.flatMap (· ++ delim) ++ last := by
  induction pieces with
  | nil => simp
  | cons head rest ih =>
      have some_left : rest ++ [last] ≠ [] := List.append_ne_nil_of_right_ne_nil _ (List.cons_ne_nil _ _)
      rw [List.cons_append, List.intercalate_cons_of_ne_nil some_left, ih, List.flatMap_cons]
      simp only [List.append_assoc]

theorem stringJoin_eq_intercalate : stringJoin list delim = delim.intercalate list := by
  rcases List.eq_nil_or_concat list with rfl | ⟨pieces, last, rfl⟩
  · rfl
  · rw [List.concat_eq_append, stringJoin_concat, intercalate_concat]

/-- The delimiter is at the place that is found, and not before it. -/
theorem firstMatch_some (found : firstMatch delim text = some pos) :
    ∃ before after, text = before ++ delim ++ after ∧ before.length = pos := by
  induction text generalizing pos with
  | nil =>
      rw [firstMatch] at found
      cases delim with
      | nil =>
          cases found
          exact ⟨[], [], rfl, rfl⟩
      | cons letter rest => cases found
  | cons letter rest ih =>
      rw [firstMatch] at found
      by_cases here : delim.isPrefixOf (letter :: rest)
      · rw [if_pos here, Option.some.injEq] at found
        obtain ⟨after, whole⟩ := List.isPrefixOf_iff_prefix.mp here
        exact ⟨[], after, whole.symm, found⟩
      · rw [if_neg here] at found
        obtain ⟨later, matched, rfl⟩ := Option.map_eq_some_iff.mp found
        obtain ⟨before, after, whole, sized⟩ := ih matched
        exact ⟨letter :: before, after, congrArg _ whole, congrArg Nat.succ sized⟩

theorem find_some (found : find str delim startPos = some delPos) :
    ∃ before after, str.drop startPos = before ++ delim ++ after ∧ delPos = startPos + before.length := by
  rw [find] at found
  by_cases beyond : str.length < startPos
  · simp [beyond] at found
  · rw [if_neg beyond] at found
    obtain ⟨pos, matched, rfl⟩ := Option.map_eq_some_iff.mp found
    obtain ⟨before, after, split, sized⟩ := firstMatch_some matched
    exact ⟨before, after, split, by rw [sized]⟩

/-- A pass takes the piece up to the delimiter, and goes on behind it. -/
theorem splitWithin_some {before after : List Char} (inside : startPos ≤ str.length)
    (split : str.drop startPos = before ++ delim ++ after) :
    splitWithin str delim (passes + 1) startPos (some (startPos + before.length)) pieces =
      splitWithin str delim passes (startPos + before.length + delim.length)
        (find str delim (startPos + before.length + delim.length)) (pieces ++ [before]) := by
  rw [splitWithin, substr, if_neg (Nat.not_lt.mpr inside), split, Nat.add_sub_cancel_left, List.append_assoc,
    List.take_left]
  rfl

theorem splitWithin_none (inside : startPos ≤ str.length) :
    splitWithin str delim (passes + 1) startPos none pieces = .ok (pieces ++ [str.drop startPos]) := by
  rw [splitWithin, substr, if_neg (Nat.not_lt.mpr inside), List.take_of_length_le (by simp)]
  rfl

theorem drop_behind {before after : List Char} (split : str.drop startPos = before ++ delim ++ after) :
    str.drop (startPos + before.length + delim.length) = after := by
  rw [Nat.add_assoc, ← List.drop_drop, split, ← List.length_append, List.drop_left]

/-- Behind a delimiter there is less left, of which the next pass can take a piece. -/
theorem length_behind {before after : List Char} (some_delim : delim ≠ [])
    (split : str.drop startPos = before ++ delim ++ after) (enough : str.length - startPos < passes + 1) :
    startPos + before.length + delim.length ≤ str.length ∧
      str.length - (startPos + before.length + delim.length) < passes := by
  have longer := List.length_pos_iff.mpr some_delim
  have sized := congrArg List.length split
  rw [List.length_drop, List.length_append, List.length_append] at sized
  omega

/-- The pieces so far and what is left make up the text. -/
theorem splitWithin_ok (some_delim : delim ≠ []) (inside : startPos ≤ str.length)
    (enough : str.length - startPos < passes) :
    ∃ found, splitWithin str delim passes startPos (find str delim startPos) pieces = .ok found ∧
      stringJoin found delim = stringJoin (pieces ++ [str.drop startPos]) delim := by
  induction passes generalizing startPos pieces with
  | zero => exact absurd enough (Nat.not_lt_zero _)
  | succ passes ih =>
      cases matched : find str delim startPos with
      | none => exact ⟨_, splitWithin_none inside, rfl⟩
      | some delPos =>
          obtain ⟨before, after, split, rfl⟩ := find_some matched
          obtain ⟨still_inside, still_enough⟩ := length_behind some_delim split enough
          obtain ⟨found, done, joined⟩ := @ih (pieces ++ [before]) _ still_inside still_enough
          refine ⟨found, ?_, ?_⟩
          · rw [splitWithin_some inside split, done]
          · rw [joined, drop_behind split, split, stringJoin_concat, stringJoin_concat, List.flatMap_append,
              List.flatMap_singleton]
            simp only [List.append_assoc]

/-- Joining the pieces of a text gives the text. -/
theorem stringJoin_stringSplit (some_delim : delim ≠ []) :
    ∃ pieces, stringSplit str delim = .ok pieces ∧ stringJoin pieces delim = str := by
  rw [stringSplit, if_neg (by simpa using some_delim)]
  cases str with
  | nil => exact ⟨[], rfl, rfl⟩
  | cons letter rest =>
      rw [if_neg (by simp)]
      obtain ⟨pieces, done, joined⟩ := @splitWithin_ok (letter :: rest) delim [] _ 0 some_delim (Nat.zero_le _)
        (Nat.lt_succ_self _)
      exact ⟨pieces, done, by simpa [stringJoin] using joined⟩

section Single

variable {letter : Char}

theorem firstMatch_single : firstMatch [letter] text = text.idxOf? letter := by
  induction text with
  | nil => rfl
  | cons head rest ih =>
      rw [firstMatch, List.idxOf?_cons, ih]
      by_cases here : head = letter
      · simp [here]
      · simp [here, Ne.symm here]

theorem find_none (inside : startPos ≤ str.length) (unmatched : find str [letter] startPos = none) :
    letter ∉ str.drop startPos := by
  rwa [find, if_neg (Nat.not_lt.mpr inside), firstMatch_single, Option.map_eq_none_iff, List.idxOf?_eq_none_iff]
    at unmatched

/-- The first match of one letter has none before it. -/
theorem find_single {before after : List Char} (inside : startPos ≤ str.length)
    (split : str.drop startPos = before ++ [letter] ++ after)
    (matched : find str [letter] startPos = some (startPos + before.length)) : letter ∉ before := by
  rw [find, if_neg (Nat.not_lt.mpr inside), firstMatch_single, split, List.append_assoc] at matched
  obtain ⟨pos, found, same⟩ := Option.map_eq_some_iff.mp matched
  obtain rfl : pos = before.length := Nat.add_left_cancel same
  obtain ⟨_, _, none_before⟩ := List.idxOf?_eq_some_iff.mp found
  intro member
  obtain ⟨place, early, here⟩ := List.getElem_of_mem member
  apply none_before place early
  rw [List.getElem_append_left early, here]

theorem splitWithin_single (inside : startPos ≤ str.length) (enough : str.length - startPos < passes) :
    splitWithin str [letter] passes startPos (find str [letter] startPos) pieces =
      .ok (pieces ++ (str.drop startPos).splitOn letter) := by
  induction passes generalizing startPos pieces with
  | zero => exact absurd enough (Nat.not_lt_zero _)
  | succ passes ih =>
      cases matched : find str [letter] startPos with
      | none => rw [splitWithin_none inside, List.splitOn_eq_singleton (find_none inside matched)]
      | some delPos =>
          obtain ⟨before, after, split, rfl⟩ := find_some matched
          have apart : letter ∉ before := find_single inside split matched
          obtain ⟨still_inside, still_enough⟩ := length_behind (List.cons_ne_nil _ _) split enough
          rw [splitWithin_some inside split, ih still_inside still_enough, drop_behind split, split,
            List.append_assoc, List.append_assoc]
          simp only [List.singleton_append, List.splitOn_append_cons_self_of_not_mem apart]

/-- At one letter a text is split as a list is. -/
theorem stringSplit_single : stringSplit str [letter] = .ok (if str.isEmpty then [] else str.splitOn letter) := by
  rw [stringSplit, if_neg (by simp)]
  by_cases empty : str.isEmpty
  · rw [if_pos empty, if_pos empty]
  · rw [if_neg empty, if_neg empty]
    exact splitWithin_single (Nat.zero_le _) (Nat.lt_succ_self _)

/-- The pieces of the name of a filter are those of `string_split`. -/
theorem stringSplit_comma : stringSplit text [','] = .ok (Geopm.stringSplit text) := stringSplit_single

end Single

/-- Splitting and joining are the inverse of each other, where the pieces are told from the text. -/
theorem split_join :
    (∀ str delim, delim ≠ [] → ∃ pieces, stringSplit str delim = .ok pieces ∧ stringJoin pieces delim = str) ∧
    ∀ (delim : Char) list, list ≠ [] → list ≠ [[]] → (∀ piece ∈ list, delim ∉ piece) →
      stringSplit (stringJoin list [delim]) [delim] = .ok list := by
  constructor
  · intro str delim some_delim
    exact stringJoin_stringSplit some_delim
  · intro delim list some_piece not_empty apart
    have filled : [delim].intercalate list ≠ [] := by
      intro empty
      have split := List.splitOn_intercalate delim apart some_piece
      rw [empty, List.splitOn_nil] at split
      exact not_empty split.symm
    rw [stringJoin_eq_intercalate, stringSplit_single, if_neg (by simpa using filled),
      List.splitOn_intercalate delim apart some_piece]

/-- An empty piece first and last, and a delimiter that overlaps itself. -/
theorem split_join_edges :
    (∃ pieces, stringSplit "aaab".toList "aa".toList = .ok pieces ∧ stringJoin pieces "aa".toList = "aaab".toList) ∧
      stringSplit (stringJoin [[], ['a'], []] [',']) [','] = .ok [[], ['a'], []] :=
  ⟨split_join.1 _ _ (by decide +kernel), split_join.2 ',' _ (by decide) (by decide) (by decide)⟩

end Helper

end Geopm
