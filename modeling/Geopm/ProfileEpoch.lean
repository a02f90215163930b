import Geopm.ProfileOverflow

namespace Geopm

/-! `Profile::epoch` inside regions that are to be ignored. -/

namespace Profile

/-- The innermost active region carries the hint that it is to be ignored. -/
def ignores (active : List (BitVec 64)) : Bool := regionIdHintIsEqual regionHintIgnore (innermost active)

def isEpoch : RecordLog.Call → Bool
  | .epoch _ => true
  | _ => false

/-- The epochs that are called where the innermost region is not to be ignored. -/
def wantedEpochs (active : List (BitVec 64)) : List Event → List RecordLog.Call
  | [] => []
  | .action action :: rest => wantedEpochs (nextActive active action) rest
  | .epoch now :: rest => (if ignores active then [] else [.epoch now]) ++ wantedEpochs active rest

/-- No epoch is called where the innermost region is to be ignored. -/
def NoneIgnored (active : List (BitVec 64)) : List Event → Prop
  | [] => True
  | .action action :: rest => NoneIgnored (nextActive active action) rest
  | .epoch _ :: rest => ignores active = false ∧ NoneIgnored active rest

instance decidableNoneIgnored : ∀ active events, Decidable (NoneIgnored active events)
  | _, [] => inferInstanceAs (Decidable True)
  | _, .action _ :: rest => decidableNoneIgnored _ rest
  | _, .epoch _ :: rest => @instDecidableAnd _ _ _ (decidableNoneIgnored _ rest)

/-- What the calls keep, whatever the hashes of the regions are. -/
structure Tracks (profile : Profile) (active : List (BitVec 64)) : Prop where
  working : profile.Working
  sound : profile.recordLog.Sound
  hints : profile.hintStack = active.map regionIdHint

variable {profile : Profile} {active : List (BitVec 64)} {event : Event} {events : List Event}

theorem nested_actions_cons : Nested active (actions (event :: events)) ↔
    Nested active (actions [event]) ∧ Nested (activeAfter active (actions [event])) (actions events) := by
  cases event with
  | action action => exact nested_cons
  | epoch now => simp [actions, Nested, activeAfter]

theorem Invariant.tracks (invariant : profile.Invariant active) : profile.Tracks active :=
  ⟨invariant.working, invariant.sound, invariant.hints⟩

/-- Each event returns, and appends an epoch if it is one. -/
theorem Tracks.happen_ok (tracks : profile.Tracks active) (space : profile.HasSpace)
    (nested : Nested active (actions [event])) :
    ∃ after, (happen event).run profile = .ok () after ∧
      after.received.filter isEpoch = profile.received.filter isEpoch ++ epochs [event] ∧
      after.Tracks (activeAfter active (actions [event])) := by
  have accepted (call : RecordLog.Call) : (profile.recordLog.call call).thrown = none :=
    (log_accepts tracks.sound tracks.working.configured space call).1
  have sound (call : RecordLog.Call) : (profile.recordLog.step call).Sound :=
    (log_accepts tracks.sound tracks.working.configured space call).2.1
  have working := tracks.working.next event
  have happens := tracks.working.happens event
  have hints := tracks.hints
  rw [Profile.next, Stateful.leaves] at working
  generalize (happen event).run profile = result at working happens
  cases happens with
  | entered free logged =>
      refine ⟨_, rfl, ?_, working, sound _, congrArg (_ :: ·) hints⟩
      simp [Profile.entered, epochs, isEpoch]
  | enterThrown free thrown =>
      rw [accepted] at thrown
      cases thrown
  | enteredInside marked =>
      refine ⟨_, rfl, ?_, working, tracks.sound, congrArg (_ :: ·) hints⟩
      simp [Profile.hinted, epochs]
  | exitEmpty empty =>
      rw [empty] at hints
      rw [List.map_eq_nil_iff.mp hints.symm] at nested
      cases nested.1
  | left last logged =>
      refine ⟨_, rfl, ?_, working, sound _, ?_⟩
      · simp [Profile.left, epochs, isEpoch]
      · have one : active.length = 1 := by simpa [last] using (congrArg List.length hints).symm
        obtain ⟨region, rfl⟩ := List.length_eq_one_iff.mp one
        rfl
  | exitThrown last thrown =>
      rw [accepted] at thrown
      cases thrown
  | exitedInside deeper =>
      refine ⟨_, rfl, ?_, working, tracks.sound, ?_⟩
      · simp [Profile.hinted, epochs]
      · rw [hints] at deeper
        exact (congrArg List.tail deeper).symm.trans List.map_tail.symm
  | dumped => exact ⟨_, rfl, by simp [epochs], working, sound .dump, hints⟩
  | epoch logged =>
      refine ⟨_, rfl, ?_, working, sound _, hints⟩
      simp [Profile.logged, epochs, isEpoch]
  | epochThrown thrown =>
      rw [accepted] at thrown
      cases thrown

/-- All epochs are appended in their order. -/
theorem Tracks.run_ok (tracks : profile.Tracks active) (nested : Nested active (actions events))
    (space : Stateful.Throughout happen HasSpace profile events) :
    ∃ after, (events.forM happen).run profile = .ok () after ∧
      after.received.filter isEpoch = profile.received.filter isEpoch ++ epochs events := by
  induction events generalizing profile active with
  | nil => exact ⟨profile, rfl, (List.append_nil _).symm⟩
  | cons event rest ih =>
      rw [nested_actions_cons] at nested
      obtain ⟨middle, ran, appended, kept⟩ := tracks.happen_ok space.now nested.1
      obtain ⟨after, reached, others⟩ := ih kept nested.2 (space.later ran)
      refine ⟨after, ?_, ?_⟩
      · rw [Stateful.run_forM_cons ran, reached]
      · rw [others, appended, List.append_assoc]
        cases event <;> rfl

theorem wantedEpochs_sublist : (wantedEpochs active events).Sublist (epochs events) := by
  induction events generalizing active with
  | nil => exact .slnil
  | cons event rest ih =>
      cases event with
      | action action => exact ih
      | epoch now =>
          rw [wantedEpochs, epochs]
          split
          · exact ih.cons _
          · exact ih.cons_cons _

theorem wantedEpochs_eq_iff : epochs events = wantedEpochs active events ↔ NoneIgnored active events := by
  induction events generalizing active with
  | nil => simp [epochs, wantedEpochs, NoneIgnored]
  | cons event rest ih =>
      cases event with
      | action action => exact ih
      | epoch now =>
          rw [wantedEpochs, epochs, NoneIgnored]
          by_cases ignored : ignores active = true
          · have fewer := (@wantedEpochs_sublist active rest).length_le
            rw [if_pos ignored, List.nil_append]
            apply iff_of_false
            · intro same
              have lengths := congrArg List.length same
              rw [List.length_cons] at lengths
              omega
            · exact fun both => absurd (ignored.symm.trans both.1) (by decide)
          · rw [if_neg ignored, List.singleton_append, List.cons.injEq, ih, Bool.not_eq_true] at *
            simp [ignored]

/-- Just the epochs that are called where the innermost region is not to be ignored are appended, if and
only if none is called where it is. -/
theorem epochs_iff (process : Int) (cpuSet : List Int) (appStatus : ApplicationStatus) (timeZero : Time)
    (ready : Profile) (zero : timeDiff timeZero ⟨0, 0⟩ ≠ 0)
    (initialized : (init timeZero).run (new process cpuSet appStatus) = .ok () ready)
    (events : List Event) (nested : Nested [] (actions events))
    (space : Stateful.Throughout happen HasSpace ready events) :
    ∃ after, (events.forM happen).run ready = .ok () after ∧
      (after.received.filter isEpoch = wantedEpochs [] events ↔ NoneIgnored [] events) := by
  obtain ⟨after, ran, appended⟩ := (init_invariant zero initialized).tracks.run_ok nested space
  have fresh : ready.received = [] := by
    obtain ⟨_, middle, prepared, enabled⟩ := Stateful.ok_of_bind initialized
    obtain ⟨_, _, rfl⟩ := initAppRecordLog_ok prepared
    cases enabled
    rfl
  refine ⟨after, ran, ?_⟩
  rw [appended, fresh, List.filter_nil, List.nil_append, wantedEpochs_eq_iff]

/-- Epochs outside of any region and inside one, and another region that is to be ignored after them. -/
def beforeIgnored : List Event :=
  [.epoch ⟨2, 0⟩, .action (.enter 0x200000007 ⟨3, 0⟩), .epoch ⟨4, 0⟩, .action (.enter 0x8000000009 ⟨5, 0⟩),
    .action (.exit 0x8000000009 ⟨6, 0⟩), .epoch ⟨7, 0⟩]

theorem throughout_of_check {profile : Profile} {events : List Event}
    (checked : Stateful.checkThroughout happen
      (fun profile => profile.recordLog.layout.numRecord < maxRecord) profile events = true) :
    Stateful.Throughout happen HasSpace profile events :=
  fun done event after begun reached =>
    @of_decide_eq_true (after.recordLog.layout.numRecord < maxRecord) _
      (Stateful.checkThroughout_sound checked done event after begun reached)

theorem epochs_beforeIgnored : ∃ after, (beforeIgnored.forM happen).run twoCpus = .ok () after ∧
    (after.received.filter isEpoch = wantedEpochs [] beforeIgnored ↔ NoneIgnored [] beforeIgnored) :=
  epochs_iff 0 [0, 1] _ ⟨1, 0⟩ twoCpus (by decide +kernel) twoCpus_init beforeIgnored (by decide +kernel)
    (throughout_of_check (by decide +kernel))

/-- An epoch in a region that is to be ignored. -/
def insideIgnored : List Event := [.action (.enter 0x8000000009 ⟨2, 0⟩), .epoch ⟨3, 0⟩]

theorem not_epochs_insideIgnored : Nested [] (actions insideIgnored) ∧
    Stateful.Throughout happen HasSpace twoCpus insideIgnored ∧
    ∃ after, (insideIgnored.forM happen).run twoCpus = .ok () after ∧
      after.received.filter isEpoch ≠ wantedEpochs [] insideIgnored := by
  have nested : Nested [] (actions insideIgnored) := by decide +kernel
  have space : Stateful.Throughout happen HasSpace twoCpus insideIgnored :=
    throughout_of_check (by decide +kernel)
  obtain ⟨after, ran, appended⟩ := (init_invariant (by decide +kernel) twoCpus_init).tracks.run_ok nested space
  refine ⟨nested, space, after, ran, ?_⟩
  rw [appended]
  decide +kernel

end Profile

end Geopm
