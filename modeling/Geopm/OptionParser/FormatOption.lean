import Mathlib.Data.List.Basic
import Mathlib.Data.List.Infix

namespace Geopm

/-! `OptionParser::format_option`: the text of one option in the help. -/

namespace OptionParser

/-- The width of the first column, `col1`. -/
def column : Nat := 28

/-- The width of a line of the description, `col2 - col1`. -/
def width : Nat := 51

/-- `find_last_of`. -/
def findLastOf (letter : Char) : List Char → Option Nat
  | [] => none
  | head :: rest =>
      match findLastOf letter rest with
      | some position => some (position + 1)
      | none => if head = letter then some 0 else none

def blank : List Char := List.replicate column ' '

/-- The loop over the description, and what follows it. -/
def wrapDescription : Nat → List Char → List Char → Option (List Char)
  | 0, _, _ => none
  | fuel + 1, left, description =>
      if width < description.length then
        match findLastOf ' ' (description.take (width + 1)) with
        | some stop =>
            (wrapDescription fuel blank (description.drop (stop + 1))).map fun text =>
              left ++ description.take stop ++ '\n' :: text
        -- the position is `npos`, after which comes 0
        | none => (wrapDescription fuel blank description).map fun text => left ++ description ++ '\n' :: text
      else some (left ++ description ++ ['\n'])

/-- The name of the option. -/
def leftColumn (shortForm longForm : List Char) : List Char :=
  [' ', ' ', '-'] ++ shortForm ++ [',', ' ', '-', '-'] ++ longForm

/-- `format_option`, with a bound on the rounds of its loop. -/
def formatOption (fuel : Nat) (shortForm longForm description : List Char) : Option (List Char) :=
  let left := leftColumn shortForm longForm
  if left.length < column then wrapDescription fuel (left.rightpad column ' ') description
  else (wrapDescription fuel blank description).map fun text => left ++ '\n' :: text

/-- The lines of a description beside the first column. -/
def printLines : List Char → List (List Char) → List Char
  | _, [] => []
  | left, line :: rest => left ++ line ++ '\n' :: printLines blank rest

/-- The whole text of an option. -/
def printOption (shortForm longForm : List Char) (lines : List (List Char)) : List Char :=
  let left := leftColumn shortForm longForm
  if left.length < column then printLines (left.rightpad column ' ') lines
  else left ++ '\n' :: printLines blank lines

/-- The loop ends, and the words of the description are on the lines that are printed, with a space for each end
of a line but the last. -/
def FormatsAll (shortForm longForm description : List Char) : Prop :=
  ∃ fuel lines, formatOption fuel shortForm longForm description = some (printOption shortForm longForm lines) ∧
    [' '].intercalate lines = description

/-- Each word of a text fits on a line. -/
def WordsFit (text : List Char) : Prop := ∀ word, word <:+: text → ' ' ∉ word → word.length ≤ width

variable {letter : Char} {text description left shortForm longForm : List Char} {position fuel : Nat}

theorem findLastOf_some (found : findLastOf letter text = some position) :
    text = text.take position ++ letter :: text.drop (position + 1) := by
  induction text generalizing position with
  | nil => cases found
  | cons head rest ih =>
      rw [findLastOf] at found
      cases later : findLastOf letter rest with
      | some other =>
          rw [later] at found
          cases found
          rw [List.take_succ_cons, List.drop_succ_cons, List.cons_append, ← ih later]
      | none =>
          rw [later] at found
          by_cases same : head = letter
          · simp only [same, if_true, Option.some.injEq] at found
            rw [← found, same]
            rfl
          · simp [same] at found

theorem findLastOf_none : findLastOf letter text = none ↔ letter ∉ text := by
  induction text with
  | nil => simp [findLastOf]
  | cons head rest ih =>
      rw [findLastOf, List.mem_cons, not_or]
      cases later : findLastOf letter rest with
      | some other =>
          rw [later] at ih
          have member : letter ∈ rest := by simpa using ih
          exact iff_of_false (by simp) fun both => both.2 member
      | none =>
          have absent := ih.mp later
          by_cases same : head = letter
          · simp [same]
          · simp [same, absent, Ne.symm same]

/-- Where a line ends the description goes on after a space. -/
theorem line_end (found : findLastOf ' ' (description.take (width + 1)) = some position) :
    position ≤ width ∧ description = description.take position ++ ' ' :: description.drop (position + 1) := by
  have split := findLastOf_some found
  have long : position < (description.take (width + 1)).length := by
    have lengths := congrArg List.length split
    simp only [List.length_append, List.length_cons, List.length_take, List.length_drop] at lengths ⊢
    omega
  have before : position ≤ width := by
    rw [List.length_take] at long
    omega
  refine ⟨before, ?_⟩
  rw [List.take_take, List.drop_take, min_eq_left (by omega)] at split
  have whole := List.take_append_drop (width + 1) description
  rw [split, List.append_assoc, List.cons_append] at whole
  have rest : (description.drop (position + 1)).take (width + 1 - (position + 1)) ++ description.drop (width + 1) =
      description.drop (position + 1) := by
    have parts := List.take_append_drop (width + 1 - (position + 1)) (description.drop (position + 1))
    rwa [List.drop_drop, show position + 1 + (width + 1 - (position + 1)) = width + 1 by omega] at parts
  rw [rest] at whole
  exact whole.symm

theorem WordsFit.suffix {rest : List Char} (fits : WordsFit text) (part : rest <:+ text) : WordsFit rest :=
  fun word inside => fits word (inside.trans part.isInfix)

/-- A description whose words fit is printed in full. -/
theorem wrapDescription_ok (fits : WordsFit description) (enough : description.length < fuel) :
    ∃ lines, lines ≠ [] ∧ wrapDescription fuel left description = some (printLines left lines) ∧
      [' '].intercalate lines = description := by
  induction fuel generalizing left description with
  | zero => exact absurd enough (Nat.not_lt_zero _)
  | succ fuel ih =>
      rw [wrapDescription]
      by_cases long : width < description.length
      case neg =>
          rw [if_neg long]
          exact ⟨[description], List.cons_ne_nil _ _, by rw [printLines, printLines], by simp⟩
      case pos =>
          rw [if_pos long]
          cases found : findLastOf ' ' (description.take (width + 1)) with
          | none =>
              -- the first word would be longer than a line
              have absent := findLastOf_none.mp found
              have short := fits _ (List.take_prefix _ _).isInfix absent
              rw [List.length_take] at short
              omega
          | some position =>
              obtain ⟨_, split⟩ := line_end found
              have rest : description.drop (position + 1) <:+ description := List.drop_suffix _ _
              have shorter : (description.drop (position + 1)).length < fuel := by
                rw [List.length_drop]
                omega
              obtain ⟨lines, some_line, wrapped, joined⟩ := @ih _ blank (fits.suffix rest) shorter
              refine ⟨description.take position :: lines, List.cons_ne_nil _ _, ?_, ?_⟩
              · simp only [wrapped, Option.map_some, printLines]
              · rw [List.intercalate_cons_of_ne_nil some_line, joined]
                simpa using split.symm

/-- With a word that does not fit on a line the loop does not end. -/
theorem wrapDescription_none {word : List Char} (inside : word <:+: description) (unbroken : ' ' ∉ word)
    (long : width < word.length) : wrapDescription fuel left description = none := by
  induction fuel generalizing left description with
  | zero => rfl
  | succ fuel ih =>
      have longer := Nat.lt_of_lt_of_le long inside.length_le
      rw [wrapDescription, if_pos longer]
      cases found : findLastOf ' ' (description.take (width + 1)) with
      | none =>
          simp only [ih inside]
          rfl
      | some position =>
          obtain ⟨close, split⟩ := line_end found
          have later : word <:+: description.drop (position + 1) := by
            obtain ⟨before, after, whole⟩ := inside
            -- the space is before the word, which covers the columns up to the width of a line
            have early : position < before.length := by
              by_contra within
              have letter : description[position]? = some ' ' := by
                rw [split, List.getElem?_append_right (List.length_take_le _ _)]
                have taken : (description.take position).length = position := by
                  rw [List.length_take]
                  omega
                rw [taken, Nat.sub_self]
                rfl
              rw [← whole, List.append_assoc, List.getElem?_append_right (by omega),
                List.getElem?_append_left (by omega)] at letter
              exact unbroken (List.mem_of_getElem? letter)
            refine ⟨before.drop (position + 1), after, ?_⟩
            rw [← whole, List.append_assoc, List.append_assoc, List.drop_append_of_le_length early]
          simp only [ih later]
          rfl

/-- The whole description is printed exactly if each of its words fits on a line. -/
theorem formatsAll_iff : FormatsAll shortForm longForm description ↔ WordsFit description := by
  constructor
  · intro formats word inside unbroken
    by_contra long
    obtain ⟨fuel, lines, formatted, _⟩ := formats
    rw [formatOption] at formatted
    simp only [wrapDescription_none inside unbroken (Nat.not_le.mp long), Option.map_none, ite_self] at formatted
    cases formatted
  · intro fits
    rw [FormatsAll]
    by_cases beside : (leftColumn shortForm longForm).length < column
    case pos =>
        obtain ⟨lines, _, wrapped, joined⟩ := @wrapDescription_ok description
          ((leftColumn shortForm longForm).rightpad column ' ') _ fits (Nat.lt_succ_self _)
        refine ⟨description.length + 1, lines, ?_, joined⟩
        simp only [formatOption, printOption, beside, if_true, wrapped]
    case neg =>
        obtain ⟨lines, _, wrapped, joined⟩ := @wrapDescription_ok description blank _ fits (Nat.lt_succ_self _)
        refine ⟨description.length + 1, lines, ?_, joined⟩
        simp only [formatOption, printOption, beside, if_false, wrapped, Option.map_some]

/-- A word of 52 characters. -/
theorem not_formatsAll_word : ¬ ∀ shortForm longForm description, FormatsAll shortForm longForm description := by
  intro all
  obtain ⟨fuel, lines, formatted, _⟩ := all ['p'] ['p', 'a', 't', 'h'] (List.replicate 52 'x')
  have unbroken : ' ' ∉ List.replicate 52 'x' := by decide
  have long : width < (List.replicate 52 'x').length := by decide
  have never : formatOption fuel ['p'] ['p', 'a', 't', 'h'] (List.replicate 52 'x') = none := by
    rw [formatOption]
    simp only [wrapDescription_none (List.infix_refl _) unbroken long, Option.map_none, ite_self]
  rw [never] at formatted
  cases formatted

end OptionParser

end Geopm
