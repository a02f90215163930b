import Geopm.Library.Number
import Geopm.Library.Run

namespace Geopm

/-! `FrequencyGovernor`: the frequencies that it requests within its bounds. -/

inductive GovernorError where
  /-- "size of request vector does not match size of control domain." -/
  | requestSize
  /-- "invalid frequency bounds." -/
  | invalidBounds
deriving Repr, DecidableEq

/-- A control of the platform. -/
structure FrequencyControl where
  /-- what `adjust` was called with -/
  setting : Number
  /-- what `write_batch` has written -/
  inForce : Number
deriving Repr, DecidableEq

/-- `FrequencyGovernorImp` with its controls. -/
structure FrequencyGovernor where
  platFreqMin : ℚ
  platFreqMax : ℚ
  freqMin : ℚ
  freqMax : ℚ
  doWriteBatch : Bool
  lastFreq : List Number
  controls : List FrequencyControl
  ordered : freqMin ≤ freqMax
  sized : lastFreq.length = controls.length

namespace FrequencyGovernor

/-- The constructor and `init_platform_io`. -/
def new (platFreqMin platFreqMax : ℚ) (controls : List FrequencyControl)
    (ordered : platFreqMin ≤ platFreqMax) : FrequencyGovernor where
  platFreqMin := platFreqMin
  platFreqMax := platFreqMax
  freqMin := platFreqMin
  freqMax := platFreqMax
  doWriteBatch := false
  lastFreq := controls.map fun _ => .nan
  controls := controls
  ordered := ordered
  sized := by rw [List.length_map]

/-- The frequency for one control. -/
def clampFreq (governor : FrequencyGovernor) (request : ℚ) : ℚ :=
  if governor.freqMax < request then governor.freqMax
  else if request < governor.freqMin then governor.freqMin
  else request

/-- `std::equal` of the last frequencies and a request. -/
def isRepeated (governor : FrequencyGovernor) (frequencyRequest : List ℚ) : Bool :=
  (governor.lastFreq.zip frequencyRequest).all fun pair => pair.1.eq (.value pair.2)

/-- The controls after `adjust` was called for each of them. -/
def adjusted (freqs : List Number) (controls : List FrequencyControl) : List FrequencyControl :=
  List.zipWith (fun freq control => { control with setting := freq }) freqs controls

/-- `adjust_platform`. -/
def adjustPlatform (governor : FrequencyGovernor) (frequencyRequest : List ℚ) :
    Except GovernorError FrequencyGovernor :=
  if size : frequencyRequest.length = governor.controls.length then
    let frequencyActual := frequencyRequest.map fun request => Number.value (governor.clampFreq request)
    .ok { governor with
      doWriteBatch := !governor.isRepeated frequencyRequest
      controls := adjusted frequencyActual governor.controls
      lastFreq := frequencyActual
      sized := by simp [adjusted, frequencyActual, size] }
  else .error .requestSize

/-- `set_frequency_bounds`. -/
def setFrequencyBounds (governor : FrequencyGovernor) (freqMin freqMax : ℚ) :
    Except GovernorError (Bool × FrequencyGovernor) :=
  if valid : freqMin < governor.platFreqMin ∨ governor.platFreqMax < freqMax ∨ freqMax < freqMin then
    .error .invalidBounds
  else if governor.freqMin ≠ freqMin ∨ governor.freqMax ≠ freqMax then
    .ok (true, { governor with
      freqMin
      freqMax
      ordered := not_lt.mp fun crossed => valid (.inr (.inr crossed)) })
  else .ok (false, governor)

/-- `write_batch`, which the caller executes if `do_write_batch` is true. -/
def writeBatch (governor : FrequencyGovernor) : FrequencyGovernor :=
  if governor.doWriteBatch then
    { governor with
      controls := governor.controls.map fun control => { control with inForce := control.setting }
      sized := by rw [List.length_map, governor.sized] }
  else governor

inductive Call where
  | setFrequencyBounds (freqMin freqMax : ℚ)
  | adjustPlatform (frequencyRequest : List ℚ)
deriving Repr, DecidableEq

/-- A call, after which the caller writes what is to be written. A call that
throws leaves the governor as it is. -/
def step (governor : FrequencyGovernor) : Call → FrequencyGovernor
  | .setFrequencyBounds freqMin freqMax =>
      match governor.setFrequencyBounds freqMin freqMax with
      | .error _ => governor
      | .ok (_, next) => next
  | .adjustPlatform frequencyRequest =>
      match governor.adjustPlatform frequencyRequest with
      | .error _ => governor
      | .ok next => next.writeBatch

/-- The frequencies in force. -/
def applied (governor : FrequencyGovernor) : List Number := governor.controls.map FrequencyControl.inForce

/-- After a request for each control, the frequencies in force are those of the
request within the bounds. -/
def Tracks (governor : FrequencyGovernor) : Call → Prop
  | .setFrequencyBounds _ _ => True
  | .adjustPlatform frequencyRequest => frequencyRequest.length = governor.controls.length →
      (governor.step (.adjustPlatform frequencyRequest)).applied =
        frequencyRequest.map fun request => .value (max governor.freqMin (min request governor.freqMax))

/-- The request differs from what was set last, or is within the bounds. -/
def Writes (governor : FrequencyGovernor) : Call → Prop
  | .setFrequencyBounds _ _ => True
  | .adjustPlatform frequencyRequest => frequencyRequest.length = governor.controls.length →
      governor.lastFreq ≠ frequencyRequest.map .value ∨
        ∀ request ∈ frequencyRequest, governor.freqMin ≤ request ∧ request ≤ governor.freqMax

/-- What was set last is in force, if anything was set. -/
def Settled (governor : FrequencyGovernor) : Prop :=
  (∀ freq ∈ governor.lastFreq, freq = .nan) ∨ governor.applied = governor.lastFreq

variable {governor : FrequencyGovernor} {frequencyRequest : List ℚ} {call : Call} {calls : List Call}

theorem clampFreq_eq (governor : FrequencyGovernor) (request : ℚ) :
    governor.clampFreq request = max governor.freqMin (min request governor.freqMax) := by
  have ordered := governor.ordered
  rw [clampFreq]
  split
  · next above => rw [min_eq_right above.le, max_eq_right ordered]
  · next above =>
      rw [min_eq_left (not_lt.mp above)]
      split
      · next below => rw [max_eq_left below.le]
      · next below => rw [max_eq_right (not_lt.mp below)]

theorem clampFreq_eq_self {request : ℚ} :
    governor.clampFreq request = request ↔ governor.freqMin ≤ request ∧ request ≤ governor.freqMax := by
  rw [clampFreq]
  split
  · next above => exact iff_of_false above.ne (fun both => absurd above (not_lt.mpr both.2))
  · next above =>
      split
      · next below => exact iff_of_false below.ne' (fun both => absurd below (not_lt.mpr both.1))
      · next below => exact iff_of_true rfl ⟨not_lt.mp below, not_lt.mp above⟩

theorem zip_all_eq_iff {freqs : List Number} {requests : List ℚ} (size : freqs.length = requests.length) :
    ((freqs.zip requests).all fun pair => pair.1.eq (.value pair.2)) = true ↔
      freqs = requests.map .value := by
  induction freqs generalizing requests with
  | nil =>
      cases requests with
      | nil => simp
      | cons request rest => cases size
  | cons freq freqs ih =>
      cases requests with
      | nil => cases size
      | cons request rest =>
          have equal : freq.eq (.value request) = true ↔ freq = .value request := by
            refine ⟨Number.of_eq, fun same => ?_⟩
            rw [same]
            simp
          rw [List.zip_cons_cons, List.all_cons, Bool.and_eq_true, ih (Nat.succ.inj size), equal,
            List.map_cons, List.cons.injEq]

theorem isRepeated_iff (size : frequencyRequest.length = governor.controls.length) :
    governor.isRepeated frequencyRequest = true ↔ governor.lastFreq = frequencyRequest.map .value :=
  zip_all_eq_iff (governor.sized.trans size.symm)

theorem map_adjusted {freqs : List Number} {controls : List FrequencyControl}
    (size : freqs.length = controls.length) :
    (adjusted freqs controls).map FrequencyControl.setting = freqs ∧
      (adjusted freqs controls).map FrequencyControl.inForce = controls.map FrequencyControl.inForce := by
  induction freqs generalizing controls with
  | nil =>
      cases controls with
      | nil => exact ⟨rfl, rfl⟩
      | cons control rest => cases size
  | cons freq freqs ih =>
      cases controls with
      | nil => cases size
      | cons control rest =>
          obtain ⟨settings, inForce⟩ := ih (Nat.succ.inj size)
          exact ⟨congrArg (freq :: ·) settings, congrArg (control.inForce :: ·) inForce⟩

/-- A request for each control is remembered within the bounds, and written if it is not the one
that is remembered. -/
theorem step_adjustPlatform (size : frequencyRequest.length = governor.controls.length) :
    (governor.step (.adjustPlatform frequencyRequest)).lastFreq =
        frequencyRequest.map (fun request => .value (governor.clampFreq request)) ∧
      (governor.step (.adjustPlatform frequencyRequest)).applied =
        if governor.lastFreq = frequencyRequest.map .value then governor.applied
        else frequencyRequest.map fun request => .value (governor.clampFreq request) := by
  obtain ⟨settings, inForce⟩ := @map_adjusted
    (frequencyRequest.map fun request => Number.value (governor.clampFreq request)) governor.controls
    (by rw [List.length_map, size])
  rw [step, adjustPlatform, dif_pos size]
  dsimp only
  rw [writeBatch]
  cases repeated : governor.isRepeated frequencyRequest with
  | true =>
      rw [if_pos ((isRepeated_iff size).mp repeated)]
      exact ⟨rfl, inForce⟩
  | false =>
      have other : governor.lastFreq ≠ frequencyRequest.map .value := fun same => by
        rw [(isRepeated_iff size).mpr same] at repeated
        cases repeated
      rw [if_neg other]
      exact ⟨rfl, List.map_map.trans settings⟩

/-- The frequencies follow a request exactly if it is new or within the bounds. -/
theorem Settled.tracks_iff (settled : governor.Settled) : governor.Tracks call ↔ governor.Writes call := by
  cases call with
  | setFrequencyBounds freqMin freqMax => rfl
  | adjustPlatform frequencyRequest =>
      refine forall_congr' fun size => ?_
      obtain ⟨_, applied⟩ := step_adjustPlatform size
      simp only [applied, ← clampFreq_eq]
      by_cases same : governor.lastFreq = frequencyRequest.map .value
      · rw [if_pos same, or_iff_right (not_not.mpr same)]
        cases settled with
        | inl unset =>
            have none : frequencyRequest = [] := by
              apply List.eq_nil_iff_forall_not_mem.mpr
              intro request member
              have number : Number.value request ∈ governor.lastFreq := by
                rw [same]
                exact List.mem_map_of_mem member
              cases unset _ number
            subst none
            refine iff_of_true ?_ (by simp)
            rw [FrequencyGovernor.applied, List.length_eq_zero_iff.mp size.symm]
            rfl
        | inr inForce =>
            rw [inForce, same, eq_comm, List.map_inj_left]
            simp only [Number.value.injEq, clampFreq_eq_self]
      · rw [if_neg same]
        exact iff_of_true rfl (.inl same)

theorem Settled.step (settled : governor.Settled) (tracks : governor.Tracks call) :
    (governor.step call).Settled := by
  cases call with
  | setFrequencyBounds freqMin freqMax =>
      have kept : (governor.step (.setFrequencyBounds freqMin freqMax)).lastFreq = governor.lastFreq ∧
          (governor.step (.setFrequencyBounds freqMin freqMax)).applied = governor.applied := by
        simp only [FrequencyGovernor.step, setFrequencyBounds]
        split_ifs <;> exact ⟨rfl, rfl⟩
      rw [Settled, kept.1, kept.2]
      exact settled
  | adjustPlatform frequencyRequest =>
      by_cases size : frequencyRequest.length = governor.controls.length
      · right
        rw [tracks size, (step_adjustPlatform size).1]
        simp only [clampFreq_eq]
      · rw [FrequencyGovernor.step, adjustPlatform, dif_neg size]
        exact settled

theorem settled_new {platFreqMin platFreqMax : ℚ} {controls : List FrequencyControl}
    {ordered : platFreqMin ≤ platFreqMax} : (new platFreqMin platFreqMax controls ordered).Settled := by
  refine .inl fun freq member => ?_
  obtain ⟨_, _, rfl⟩ := List.mem_map.mp member
  rfl

/-- The frequencies in force follow every request exactly if each request is new or
within the bounds. -/
theorem tracks_request_iff {platFreqMin platFreqMax : ℚ} {controls : List FrequencyControl}
    (ordered : platFreqMin ≤ platFreqMax) :
    Transition.Permitted FrequencyGovernor.step Tracks (new platFreqMin platFreqMax controls ordered) calls ↔
      Transition.Permitted FrequencyGovernor.step Writes (new platFreqMin platFreqMax controls ordered) calls :=
  Transition.permitted_congr (fun _ _ (settled : Settled _) tracks => settled.step tracks)
    (fun _ _ settled => settled.tracks_iff) settled_new

theorem tracks_request_lowered :
    Transition.Permitted FrequencyGovernor.step Tracks (new 1 3 [⟨.nan, .value 1⟩] (by decide +kernel))
        [.adjustPlatform [2], .setFrequencyBounds 1 (3 / 2), .adjustPlatform [3]] ↔
      Transition.Permitted FrequencyGovernor.step Writes (new 1 3 [⟨.nan, .value 1⟩] (by decide +kernel))
        [.adjustPlatform [2], .setFrequencyBounds 1 (3 / 2), .adjustPlatform [3]] :=
  tracks_request_iff (by decide +kernel)

/-- The same frequency is requested again under a lower bound. -/
theorem not_tracks_request_again :
    ¬ Transition.Permitted FrequencyGovernor.step Tracks (new 1 3 [⟨.nan, .value 1⟩] (by decide +kernel))
      [.adjustPlatform [2], .setFrequencyBounds 1 (3 / 2), .adjustPlatform [2]] := by
  rintro ⟨_, _, tracks, _⟩
  have applied := tracks (by decide +kernel)
  revert applied
  decide +kernel

end FrequencyGovernor

end Geopm
