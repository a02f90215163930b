import Mathlib.Data.BitVec

namespace MaskedWrite

/-! Writes to some of the bits of a word.

A store replaces the bits under a mask.  A word may have bits that no write can
change; `select` keeps them.
-/

variable {width : Nat} {mask first second value other old new writable : BitVec width}

/-- The old word with the bits under the mask replaced. -/
def store (mask value old : BitVec width) : BitVec width := (old &&& ~~~mask) ||| value

/-- What a word holds after a write of which only the writable bits take effect. -/
def select (writable old new : BitVec width) : BitVec width :=
  (old &&& ~~~writable) ||| (new &&& writable)

theorem getLsbD_store {position : Nat} (bound : position < width) :
    (store mask value old).getLsbD position =
      (old.getLsbD position && !mask.getLsbD position || value.getLsbD position) := by
  simp [store, bound]

theorem getLsbD_select {position : Nat} (bound : position < width) :
    (select writable old new).getLsbD position =
      if writable.getLsbD position then new.getLsbD position else old.getLsbD position := by
  simp only [select, BitVec.getLsbD_or, BitVec.getLsbD_and, BitVec.getLsbD_not, bound, decide_true,
    Bool.true_and]
  cases writable.getLsbD position <;> simp

@[simp] theorem store_zero : store (BitVec.ofNat width 0) (BitVec.ofNat width 0) old = old := by
  simp [store]

@[simp] theorem select_self : select writable old old = old := by
  apply BitVec.eq_of_getLsbD_eq
  intro position bound
  rw [getLsbD_select bound]
  split <;> rfl

/-- Two stores are one store under both masks, in which the second value wins. -/
theorem store_store : store second other (store first value old) =
    store (first ||| second) (store second other value) old := by
  apply BitVec.eq_of_getLsbD_eq
  intro position bound
  simp only [getLsbD_store bound, BitVec.getLsbD_or]
  cases first.getLsbD position <;> cases second.getLsbD position <;> simp [Bool.or_assoc]

/-- A store into a word of which only the writable bits were changed. -/
theorem select_store : select writable (select writable old new)
      (store mask value (select writable old new)) = select writable old (store mask value new) := by
  apply BitVec.eq_of_getLsbD_eq
  intro position bound
  simp only [getLsbD_select bound, getLsbD_store bound]
  split <;> rfl

/-- The second of two writes decides. -/
theorem select_select : select writable (select writable old first) new = select writable old new := by
  apply BitVec.eq_of_getLsbD_eq
  intro position bound
  simp only [getLsbD_select bound]
  split <;> rfl

/-- A store into another word that is written in place of the old one. Only bits
that can be written and are not replaced show the difference. -/
theorem select_store_eq_iff (within : ~~~writable &&& mask = 0) (obeys : value &&& mask = value) :
    select writable old (store mask value other) = store mask value old ↔
      other &&& (writable &&& ~~~mask) = old &&& (writable &&& ~~~mask) := by
  constructor
  · intro same
    apply BitVec.eq_of_getLsbD_eq
    intro position bound
    have here := congrArg (·.getLsbD position) same
    have under := congrArg (·.getLsbD position) obeys
    simp only [getLsbD_select bound, getLsbD_store bound, BitVec.getLsbD_and] at here under
    simp only [BitVec.getLsbD_and, BitVec.getLsbD_not, bound, decide_true, Bool.true_and]
    revert here under
    cases mask.getLsbD position <;> cases writable.getLsbD position <;>
      cases value.getLsbD position <;> simp
  · intro same
    apply BitVec.eq_of_getLsbD_eq
    intro position bound
    have here := congrArg (·.getLsbD position) same
    have under := congrArg (·.getLsbD position) obeys
    have inside := congrArg (·.getLsbD position) within
    simp only [BitVec.getLsbD_and, BitVec.getLsbD_not, bound, decide_true,
      Bool.true_and] at here under inside
    simp only [getLsbD_select bound, getLsbD_store bound]
    revert here under inside
    cases mask.getLsbD position <;> cases writable.getLsbD position <;>
      cases value.getLsbD position <;> simp

/-- Every bit of the first word is a bit of the second. -/
theorem and_not_eq_zero_iff : first &&& ~~~second = 0 ↔
    ∀ position, first.getLsbD position = true → second.getLsbD position = true := by
  constructor
  · intro none position present
    have here := congrArg (·.getLsbD position) none
    simpa [present, BitVec.lt_of_getLsbD present] using here
  · intro each
    apply BitVec.eq_of_getLsbD_eq
    intro position bound
    cases present : first.getLsbD position with
    | false => simp [present]
    | true => simp [present, bound, each position present]

/-- A value under one mask is a value under a wider one. -/
theorem store_obeys (obeys : value &&& first = value) (others : other &&& second = other) :
    store second other value &&& (first ||| second) = store second other value := by
  apply BitVec.eq_of_getLsbD_eq
  intro position bound
  have under := congrArg (·.getLsbD position) obeys
  have beyond := congrArg (·.getLsbD position) others
  simp only [BitVec.getLsbD_and] at under beyond
  simp only [BitVec.getLsbD_and, BitVec.getLsbD_or, getLsbD_store bound]
  revert under beyond
  cases first.getLsbD position <;> cases second.getLsbD position <;>
    cases value.getLsbD position <;> cases other.getLsbD position <;> simp

/-- The bits under any of the masks. -/
def combine (masks : List (BitVec width)) : BitVec width := masks.foldl (· ||| ·) 0

theorem getLsbD_foldl_or {masks : List (BitVec width)} {position : Nat} :
    (masks.foldl (· ||| ·) mask).getLsbD position = true ↔
      mask.getLsbD position = true ∨ ∃ other ∈ masks, other.getLsbD position = true := by
  induction masks generalizing mask with
  | nil => simp
  | cons head rest ih =>
      rw [List.foldl_cons, ih, BitVec.getLsbD_or, Bool.or_eq_true, List.exists_mem_cons_iff, or_assoc]

theorem getLsbD_combine {masks : List (BitVec width)} {position : Nat} :
    (combine masks).getLsbD position = true ↔ ∃ mask ∈ masks, mask.getLsbD position = true := by
  rw [combine, getLsbD_foldl_or]
  simp

/-- Masks combine to the same bits when each bit is under one of either masks. -/
theorem combine_eq_iff {masks others : List (BitVec width)} : combine masks = combine others ↔
    ∀ position, (∃ mask ∈ masks, mask.getLsbD position = true) ↔
      ∃ mask ∈ others, mask.getLsbD position = true := by
  simp only [← getLsbD_combine]
  constructor
  · rintro same position
    rw [same]
  · intro same
    apply BitVec.eq_of_getLsbD_eq
    intro position _
    exact Bool.eq_iff_iff.mpr (same position)

end MaskedWrite
