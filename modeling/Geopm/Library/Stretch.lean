import Mathlib.Data.List.Chain
import Mathlib.Data.List.Induction
import Mathlib.Tactic.Tauto

/-! Labelled points in a row: the stretch of one label at their end, and the last stretch of a wanted
label that another label has closed. -/

variable {Point Label : Type*}

structure Stretch (Point : Type*) where
  current : List Point
  closed : Option (List Point)

namespace Stretch

/-- A stretch of one wanted label with the point that closes it, after which no other is closed. -/
inductive LastClosed (label : Point → Label) (wanted : Label → Prop) :
    List Point → List Point → Prop where
  | intro (before inside : List Point) (ended : Point) (after : List Point) (mark : Label)
      (filled : inside ≠ []) (marked : wanted mark) (same : ∀ point ∈ inside, label point = mark)
      (begins : ∀ prev, before.getLast? = some prev → label prev ≠ mark) (ends : label ended ≠ mark)
      (latest : (ended :: after).IsChain fun prev point => wanted (label prev) → label prev = label point) :
      LastClosed label wanted (before ++ inside ++ ended :: after) (inside ++ [ended])

/-- The points from the last change of the label but one to the last change. The first point is a change
if its label is wanted. -/
inductive BetweenChanges (label : Point → Label) (wanted : Label → Prop) :
    List Point → List Point → Prop where
  | intro (before : List Point) (start : Point) (inside : List Point) (ended : Point)
      (after : List Point) (first : before = [] → wanted (label start))
      (begins : ∀ prev, before.getLast? = some prev → label prev ≠ label start)
      (same : ∀ point ∈ inside, label point = label start) (ends : label ended ≠ label start)
      (latest : ∀ point ∈ after, label point = label ended) :
      BetweenChanges label wanted (before ++ start :: inside ++ ended :: after)
        (start :: inside ++ [ended])

section

variable {label : Point → Label} {wanted : Label → Prop} {points run : List Point} {point : Point}

theorem LastClosed.subset (closed : LastClosed label wanted points run) (member : point ∈ run) :
    point ∈ points := by
  cases closed with
  | intro before inside ended after mark filled marked same begins ends latest =>
      simp only [List.mem_append, List.mem_cons] at member ⊢
      tauto

/-- The stretch is not empty, and begins with the wanted label. -/
theorem LastClosed.exists_wanted (closed : LastClosed label wanted points run) :
    ∃ point ∈ points, wanted (label point) := by
  cases closed with
  | intro before inside ended after mark filled marked same begins ends latest =>
      obtain ⟨point, member⟩ := List.exists_mem_of_ne_nil inside filled
      exact ⟨point, by simp [member], same point member ▸ marked⟩

end

variable [DecidableEq Label] {label : Point → Label} {wanted : Label → Prop} [DecidablePred wanted]
  {points run : List Point} {point prev : Point} {stretch : Stretch Point}

/-- One more point. -/
def next (label : Point → Label) (wanted : Label → Prop) [DecidablePred wanted]
    (stretch : Stretch Point) (point : Point) : Stretch Point :=
  match stretch.current.getLast? with
  | none => { stretch with current := [point] }
  | some prev =>
      if label prev = label point then { stretch with current := stretch.current ++ [point] }
      else
        ⟨[point], if wanted (label prev) then some (stretch.current ++ [point]) else stretch.closed⟩

/-- The stretches along the points. -/
def along (label : Point → Label) (wanted : Label → Prop) [DecidablePred wanted]
    (points : List Point) : Stretch Point :=
  points.foldl (next label wanted) ⟨[], none⟩

theorem along_concat :
    along label wanted (points ++ [point]) = next label wanted (along label wanted points) point := by
  rw [along, List.foldl_append]
  rfl

theorem next_same (last : stretch.current.getLast? = some prev) (same : label prev = label point) :
    next label wanted stretch point = { stretch with current := stretch.current ++ [point] } := by
  simp only [next, last, if_pos same]

theorem next_other (last : stretch.current.getLast? = some prev) (other : label prev ≠ label point) :
    next label wanted stretch point =
      ⟨[point], if wanted (label prev) then some (stretch.current ++ [point]) else stretch.closed⟩ := by
  simp only [next, last, if_neg other]

theorem next_current_getLast? : (next label wanted stretch point).current.getLast? = some point := by
  rw [next]
  split
  · rfl
  · split
    · exact List.getLast?_concat
    · rfl

theorem along_getLast? : (along label wanted points).current.getLast? = points.getLast? := by
  induction points using List.reverseRecOn with
  | nil => rfl
  | append_singleton points point => rw [along_concat, next_current_getLast?, List.getLast?_concat]

/-- The current stretch is as long as it can be. -/
theorem along_current (last : points.getLast? = some prev) :
    ∃ before, points = before ++ (along label wanted points).current ∧
      (∀ point ∈ (along label wanted points).current, label point = label prev) ∧
      ∀ earlier, before.getLast? = some earlier → label earlier ≠ label prev := by
  induction points using List.reverseRecOn generalizing prev with
  | nil => cases last
  | append_singleton points point ih =>
      obtain rfl : point = prev := by simpa using last
      rw [along_concat]
      cases earlier : points.getLast? with
      | none =>
          obtain rfl := List.getLast?_eq_none_iff.mp earlier
          exact ⟨[], rfl, by simp [along, next], by simp⟩
      | some before =>
          have current := (@along_getLast? _ _ _ label wanted _ points).trans earlier
          obtain ⟨front, parts, same, begins⟩ := ih earlier
          by_cases equal : label before = label point
          · rw [next_same current equal]
            refine ⟨front, ?_, ?_, ?_⟩
            · rw [← List.append_assoc, ← parts]
            · intro other member
              rcases List.mem_append.mp member with old | new
              · exact (same other old).trans equal
              · rw [List.mem_singleton.mp new]
            · rw [← equal]
              exact begins
          · rw [next_other current equal]
            refine ⟨points, rfl, by simp, ?_⟩
            intro other last
            rw [earlier] at last
            exact Option.some.inj last ▸ equal

/-- Where a stretch was closed, no later one of a wanted label is. -/
theorem closed_along (found : (along label wanted points).closed = some run) :
    LastClosed label wanted points run := by
  induction points using List.reverseRecOn generalizing run with
  | nil => cases found
  | append_singleton points point ih =>
      rw [along_concat] at found
      cases last : points.getLast? with
      | none =>
          obtain rfl := List.getLast?_eq_none_iff.mp last
          cases found
      | some prev =>
          have current := (@along_getLast? _ _ _ label wanted _ points).trans last
          have extended : ∀ run, LastClosed label wanted points run →
              (wanted (label prev) → label prev = label point) →
                LastClosed label wanted (points ++ [point]) run := by
            intro run known kept
            cases known with
            | intro before inside ended after mark filled marked same begins ends latest =>
                rw [List.append_assoc, List.cons_append]
                refine .intro before inside ended (after ++ [point]) mark filled marked same begins ends ?_
                rw [← List.cons_append, List.isChain_append]
                refine ⟨latest, List.isChain_singleton point, ?_⟩
                intro final final_eq other other_eq
                obtain rfl : point = other := by simpa using other_eq
                rw [List.getLast?_append_of_ne_nil _ (List.cons_ne_nil _ _)] at last
                obtain rfl : prev = final := Option.some.inj (last.symm.trans final_eq)
                exact kept
          by_cases equal : label prev = label point
          · rw [next_same current equal] at found
            exact extended run (ih found) fun _ => equal
          · rw [next_other current equal] at found
            simp only at found
            split at found
            · rename_i marked
              obtain rfl := Option.some.inj found
              obtain ⟨before, parts, same, begins⟩ := @along_current _ _ _ label wanted _ _ _ last
              have filled : (along label wanted points).current ≠ [] := by
                intro empty
                rw [empty] at current
                cases current
              have closed := LastClosed.intro before _ point [] (label prev) filled marked same begins
                (Ne.symm equal) (List.isChain_singleton point)
              rwa [← parts] at closed
            · rename_i unmarked
              exact extended run (ih found) fun marked => absurd marked unmarked

theorem current_along_append {more : List Point} {mark : Label} {stretch : Stretch Point}
    (filled : more ≠ []) (same : ∀ point ∈ more, label point = mark)
    (begins : ∀ prev, stretch.current.getLast? = some prev → label prev ≠ mark) :
    (more.foldl (next label wanted) stretch).current = more := by
  induction more using List.reverseRecOn with
  | nil => exact absurd rfl filled
  | append_singleton more point ih =>
      rw [List.foldl_append, List.foldl_cons, List.foldl_nil]
      have marked : label point = mark := same point (by simp)
      cases more using List.reverseRecOn with
      | nil =>
          rw [List.foldl_nil, List.nil_append]
          cases last : stretch.current.getLast? with
          | none => simp only [next, last]
          | some prev => rw [next_other last (by rw [marked]; exact begins prev last)]
      | append_singleton more prev =>
          have current := ih (by simp) fun point member => same point (List.mem_append_left _ member)
          have last : (List.foldl (next label wanted) stretch (more ++ [prev])).current.getLast? = some prev := by
            rw [current, List.getLast?_concat]
          rw [next_same last ((same prev (by simp)).trans marked.symm)]
          simp only [current]

theorem closed_foldl {more : List Point} (last : stretch.current.getLast? = some prev)
    (latest : (prev :: more).IsChain fun prev point => wanted (label prev) → label prev = label point) :
    (more.foldl (next label wanted) stretch).closed = stretch.closed := by
  induction more generalizing stretch prev with
  | nil => rfl
  | cons point rest ih =>
      rw [List.isChain_cons_cons] at latest
      rw [List.foldl_cons, ih next_current_getLast? latest.2]
      by_cases equal : label prev = label point
      · rw [next_same last equal]
      · rw [next_other last equal]
        exact if_neg fun marked => equal (latest.1 marked)

/-- The stretch that was closed last. -/
theorem closed_along_iff :
    (along label wanted points).closed = some run ↔ LastClosed label wanted points run := by
  constructor
  · exact closed_along
  · intro known
    cases known with
    | intro before inside ended after mark filled marked same begins ends latest =>
        rw [along, List.foldl_append, List.foldl_append, List.foldl_cons,
          closed_foldl next_current_getLast? latest]
        have current := @current_along_append _ _ _ label wanted _ inside mark (along label wanted before)
          filled same (by
            intro prev last
            rw [along_getLast?] at last
            exact begins prev last)
        obtain ⟨prev, last⟩ : ∃ prev, inside.getLast? = some prev :=
          ⟨_, List.getLast?_eq_some_getLast filled⟩
        have labelled := same prev (List.mem_of_getLast? last)
        rw [along] at current
        rw [next_other (by rw [current]; exact last) (by rw [labelled]; exact ends.symm), current]
        exact if_pos (labelled ▸ marked)

theorem closed_along_eq_none (never : ∀ run, ¬ LastClosed label wanted points run) :
    (along label wanted points).closed = none := by
  cases found : (along label wanted points).closed with
  | none => rfl
  | some run => exact absurd (closed_along found) (never run)

omit [DecidableEq Label] [DecidablePred wanted] in
theorem isChain_iff_same {after : List Point} (marked : wanted (label point)) :
    ((point :: after).IsChain fun prev point => wanted (label prev) → label prev = label point) ↔
      ∀ later ∈ after, label later = label point := by
  induction after generalizing point with
  | nil => simp
  | cons second rest ih =>
      rw [List.isChain_cons_cons, List.forall_mem_cons]
      constructor
      · rintro ⟨step, chain⟩
        have equal := step marked
        rw [ih (equal ▸ marked)] at chain
        exact ⟨equal.symm, fun later member => (chain later member).trans equal.symm⟩
      · rintro ⟨equal, same⟩
        refine ⟨fun _ => equal.symm, (ih (equal.symm ▸ marked)).mpr ?_⟩
        exact fun later member => (same later member).trans equal.symm

omit [DecidableEq Label] [DecidablePred wanted] in
/-- Where a label that is wanted stays wanted, and only one is not, the stretches are what lies between
changes. -/
theorem betweenChanges_iff
    (stays : points.Pairwise fun earlier later => wanted (label earlier) → wanted (label later))
    (single : ∀ left right, ¬ wanted left → ¬ wanted right → left = right) :
    BetweenChanges label wanted points run ↔ LastClosed label wanted points run := by
  constructor
  · intro between
    cases between with
    | intro before start inside ended after first begins same ends latest =>
        have marked : wanted (label start) := by
          by_contra unmarked
          cases last : before.getLast? with
          | none => exact unmarked (first (List.getLast?_eq_none_iff.mp last))
          | some prev =>
              have earlier : wanted (label prev) := by
                by_contra other
                exact begins prev last (single _ _ other unmarked)
              rw [List.append_assoc, List.pairwise_append] at stays
              exact unmarked (stays.2.2 prev (List.mem_of_getLast? last) start (by simp) earlier)
        have after_start : wanted (label ended) := by
          rw [List.append_assoc, List.pairwise_append] at stays
          exact (List.pairwise_cons.mp stays.2.1).1 ended (by simp) marked
        refine .intro before (start :: inside) ended after (label start) (by simp) marked ?_ begins ends
          ((isChain_iff_same after_start).mpr latest)
        intro point member
        rcases List.mem_cons.mp member with rfl | later
        · rfl
        · exact same point later
  · intro known
    cases known with
    | intro before inside ended after mark filled marked same begins ends latest =>
        cases inside with
        | nil => exact absurd rfl filled
        | cons start inside =>
            obtain rfl : label start = mark := same start (by simp)
            have after_start : wanted (label ended) := by
              rw [List.append_assoc, List.pairwise_append] at stays
              exact (List.pairwise_cons.mp stays.2.1).1 ended (by simp) marked
            exact .intro before start inside ended after (fun _ => marked) begins
              (fun point member => same point (by simp [member])) ends
              ((isChain_iff_same after_start).mp latest)

end Stretch
