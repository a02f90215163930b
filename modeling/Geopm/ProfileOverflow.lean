import Geopm.Profile
import Geopm.RecordLog.Overflow

namespace Geopm

namespace Profile

/-! Calls of the application that find the record log full.

`enter` sets the current hash before the append that may throw, and `exit` pops the hint of the
outermost region before it.
-/

/-- `epoch`. -/
def epoch (now : Time) : EStateM ProfileError Profile Unit := do
  let profile ← get
  if !profile.isEnabled || regionIdHintIsEqual profile.currRegionId regionHintIgnore then return
  callLog (.epoch now)

/-- An action, or an epoch of the application. -/
inductive Event where
  | action (action : Action)
  | epoch (now : Time)
deriving Repr, DecidableEq

def happen : Event → EStateM ProfileError Profile Unit
  | .action action => perform action
  | .epoch now => epoch now

/-- The profile after an event, whether it has thrown or not. -/
def next (profile : Profile) (event : Event) : Profile := Stateful.leaves (happen event) profile

/-- The enters, exits and dumps. -/
def actions : List Event → List Action
  | [] => []
  | .action action :: rest => action :: actions rest
  | .epoch _ :: rest => actions rest

/-- What the record log is to receive inside an outermost region. -/
def epochs : List Event → List RecordLog.Call
  | [] => []
  | .action _ :: rest => epochs rest
  | .epoch now :: rest => .epoch now :: epochs rest

/-- A region that is entered and, after the body, exited, where the body is well nested and does
not leave the region. -/
structure Visit (regionId exited : BitVec 64) (body : List Event) : Prop where
  nested : Nested [regionId] (actions body)
  inside : ∀ done, done <+: body → activeAfter [regionId] (actions done) ≠ []
  ends : activeAfter [regionId] (actions body) = [regionId]
  same : regionIdHash exited = regionIdHash regionId
  marked : Marked [regionId] (actions body)

/-- From here a visit is recorded with one enter and one exit, unless the log overflows again. -/
def Records (profile : Profile) : Prop :=
  ∀ regionId exited start stop body, Visit regionId exited body →
    Stateful.Throughout happen HasSpace profile
      (.action (.enter regionId start) :: (body ++ [.action (.exit exited stop)])) →
    ∃ after, ((.action (.enter regionId start) :: (body ++ [.action (.exit exited stop)])).forM happen).run
        profile = .ok () after ∧
      after.received = profile.received ++ .enter (regionIdHash regionId).toNat start ::
        (epochs body ++ [.exit (regionIdHash regionId).toNat stop])

/-- After the next dump, outside of any region, visits are recorded. -/
def Recovers (profile : Profile) : Prop :=
  ∀ later after, ((.action .dump :: later).forM happen).run profile = .ok () after →
    after.hintStack = [] → after.Records

/-- A failed call has changed nothing that the profile shows, and the profile recovers. -/
structure Atomic (before after : Profile) : Prop where
  currentHash : after.currentHash = before.currentHash
  hintStack : after.hintStack = before.hintStack
  hash : ∀ cpu ∈ before.cpuSet,
    after.appStatus.updateCache.getHash cpu = before.appStatus.updateCache.getHash cpu
  hint : ∀ cpu ∈ before.cpuSet,
    after.appStatus.updateCache.getHint cpu = before.appStatus.updateCache.getHint cpu
  recovers : after.Recovers

/-- After a call on the record log. -/
def logged (profile : Profile) (call : RecordLog.Call) : Profile :=
  { profile with recordLog := profile.recordLog.step call, received := profile.received ++ [call] }

/-- All that an event can do. -/
inductive Happens (profile : Profile) : Event → EStateM.Result ProfileError Profile Unit → Prop where
  | entered {regionId : BitVec 64} {start : Time} (free : profile.currentHash = regionHashUnmarked)
      (accepted : (profile.recordLog.call (.enter (regionIdHash regionId).toNat start)).thrown = none) :
      Happens profile (.action (.enter regionId start)) (.ok () (profile.entered regionId start))
  | enterThrown {regionId : BitVec 64} {start : Time} {reason : LogError}
      (free : profile.currentHash = regionHashUnmarked)
      (thrown : (profile.recordLog.call (.enter (regionIdHash regionId).toNat start)).thrown = some reason) :
      Happens profile (.action (.enter regionId start)) (.error (.log reason)
        { profile.logged (.enter (regionIdHash regionId).toNat start) with
          currentHash := regionIdHash regionId })
  | enteredInside {regionId : BitVec 64} {start : Time}
      (marked : profile.currentHash ≠ regionHashUnmarked) :
      Happens profile (.action (.enter regionId start))
        (.ok () (profile.hinted (regionIdHint regionId :: profile.hintStack) (regionIdHint regionId)))
  | exitEmpty {regionId : BitVec 64} {stop : Time} (empty : profile.hintStack = []) :
      Happens profile (.action (.exit regionId stop)) (.error .exitBeforeEnter profile)
  | left {regionId hint : BitVec 64} {stop : Time} (hints : profile.hintStack = [hint])
      (accepted : (profile.recordLog.call (.exit (regionIdHash regionId).toNat stop)).thrown = none) :
      Happens profile (.action (.exit regionId stop)) (.ok () (profile.left regionId stop))
  | exitThrown {regionId hint : BitVec 64} {stop : Time} {reason : LogError}
      (hints : profile.hintStack = [hint])
      (thrown : (profile.recordLog.call (.exit (regionIdHash regionId).toNat stop)).thrown = some reason) :
      Happens profile (.action (.exit regionId stop)) (.error (.log reason)
        { profile.logged (.exit (regionIdHash regionId).toNat stop) with hintStack := [] })
  | exitedInside {regionId hint outer : BitVec 64} {rest : List (BitVec 64)} {stop : Time}
      (hints : profile.hintStack = hint :: outer :: rest) :
      Happens profile (.action (.exit regionId stop)) (.ok () (profile.hinted (outer :: rest) outer))
  | dumped : Happens profile (.action .dump) (.ok () { profile with recordLog := profile.recordLog.dump.2 })
  | epoch {now : Time} (accepted : (profile.recordLog.call (.epoch now)).thrown = none) :
      Happens profile (.epoch now) (.ok () (profile.logged (.epoch now)))
  | epochThrown {now : Time} {reason : LogError}
      (thrown : (profile.recordLog.call (.epoch now)).thrown = some reason) :
      Happens profile (.epoch now) (.error (.log reason) (profile.logged (.epoch now)))

section Calls

variable {profile after : Profile} {active : List (BitVec 64)} {event : Event} {regionId hint : BitVec 64}
  {now : Time} {reason : LogError}

theorem callLog_throws {call : RecordLog.Call}
    (thrown : (profile.recordLog.call call).thrown = some reason) :
    (callLog call).run profile = .error (.log reason) (profile.logged call) := by
  change callLog call profile = _
  simp only [callLog, thrown]
  rfl

theorem Working.enter_throws (working : profile.Working) (free : profile.currentHash = regionHashUnmarked)
    (thrown : (profile.recordLog.call (.enter (regionIdHash regionId).toNat now)).thrown = some reason) :
    (enter regionId now).run profile = .error (.log reason)
      { profile.logged (.enter (regionIdHash regionId).toNat now) with
        currentHash := regionIdHash regionId } := by
  have failed := @callLog_throws { profile with currentHash := regionIdHash regionId } reason _ thrown
  rw [enter, Stateful.run_bind_ok (EStateM.run_get profile), if_pos working.enabled]
  simp only
  rw [if_pos free, Stateful.run_bind_ok (EStateM.run_modify _ profile), Stateful.run_bind_error failed]
  rfl

theorem Working.exit_throws (working : profile.Working) (hints : profile.hintStack = [hint])
    (thrown : (profile.recordLog.call (.exit (regionIdHash regionId).toNat now)).thrown = some reason) :
    (exit regionId now).run profile = .error (.log reason)
      { profile.logged (.exit (regionIdHash regionId).toNat now) with hintStack := [] } := by
  have failed := @callLog_throws { profile with hintStack := [] } reason _ thrown
  rw [exit, Stateful.run_bind_ok (EStateM.run_get profile), if_pos working.enabled]
  simp only [hints]
  rw [Stateful.run_bind_ok (EStateM.run_modify _ profile), Stateful.run_bind_error failed]
  rfl

theorem Working.exit_empty (working : profile.Working) (empty : profile.hintStack = []) :
    (exit regionId now).run profile = .error .exitBeforeEnter profile := by
  rw [exit, Stateful.run_bind_ok (EStateM.run_get profile), if_pos working.enabled]
  simp only [empty]
  rfl

theorem Working.epoch_run (working : profile.Working) :
    (epoch now).run profile = (callLog (.epoch now)).run profile := by
  rw [epoch, Stateful.run_bind_ok (EStateM.run_get profile), working.enabled, working.region]
  rfl

theorem Working.happens (working : profile.Working) (event : Event) :
    profile.Happens event ((happen event).run profile) := by
  cases event with
  | epoch now =>
      rw [happen, working.epoch_run]
      cases outcome : (profile.recordLog.call (.epoch now)).thrown with
      | none => exact callLog_ok outcome ▸ .epoch outcome
      | some reason => exact callLog_throws outcome ▸ .epochThrown outcome
  | action action =>
      cases action with
      | dump => exact .dumped
      | enter regionId now =>
          change profile.Happens _ ((enter regionId now).run profile)
          by_cases free : profile.currentHash = regionHashUnmarked
          · cases outcome : (profile.recordLog.call (.enter (regionIdHash regionId).toNat now)).thrown with
            | none => exact working.enter_free free outcome ▸ .entered free outcome
            | some reason => exact working.enter_throws free outcome ▸ .enterThrown free outcome
          · exact working.enter_inside free ▸ .enteredInside free
      | exit regionId now =>
          change profile.Happens _ ((exit regionId now).run profile)
          cases hints : profile.hintStack with
          | nil => exact working.exit_empty hints ▸ .exitEmpty hints
          | cons hint rest =>
              cases rest with
              | cons outer rest => exact working.exit_inside hints ▸ .exitedInside hints
              | nil =>
                  cases outcome : (profile.recordLog.call (.exit (regionIdHash regionId).toNat now)).thrown with
                  | none => exact working.exit_last hints outcome ▸ .left hints outcome
                  | some reason => exact working.exit_throws hints outcome ▸ .exitThrown hints outcome

theorem Working.next (working : profile.Working) (event : Event) : (profile.next event).Working := by
  have happens := working.happens event
  obtain ⟨enabled, known, masked, configured, region⟩ := working
  unfold Profile.next Stateful.leaves
  generalize (happen event).run profile = result at happens
  cases happens with
  | entered free accepted =>
      refine ⟨enabled, known_modifyAll known, ?_, configured.step _, region⟩
      intro hint member
      rcases List.mem_cons.mp member with rfl | member
      · exact regionIdHint_mask
      · exact masked hint member
  | enterThrown free thrown => exact ⟨enabled, known, masked, configured.step _, region⟩
  | enteredInside marked =>
      refine ⟨enabled, known_modifyAll known, ?_, configured, region⟩
      intro hint member
      rcases List.mem_cons.mp member with rfl | member
      · exact regionIdHint_mask
      · exact masked hint member
  | exitEmpty empty => exact ⟨enabled, known, masked, configured, region⟩
  | left hints accepted =>
      exact ⟨enabled, known_modifyAll known, fun _ member => absurd member List.not_mem_nil,
        configured.step _, region⟩
  | exitThrown hints thrown =>
      exact ⟨enabled, known, fun _ member => absurd member List.not_mem_nil, configured.step _, region⟩
  | exitedInside hints =>
      refine ⟨enabled, known_modifyAll known, ?_, configured, region⟩
      intro hint member
      exact masked hint (hints ▸ List.mem_cons_of_mem _ member)
  | dumped => exact ⟨enabled, known, masked, configured.step .dump, region⟩
  | epoch accepted => exact ⟨enabled, known, masked, configured.step _, region⟩
  | epochThrown thrown => exact ⟨enabled, known, masked, configured.step _, region⟩

/-- Outside of any region the current hash is that of no region. -/
def Outside (profile : Profile) : Prop := profile.hintStack = [] → profile.currentHash = regionHashUnmarked

/-- What a dump restores and what calls that return keep. -/
structure Settled (profile : Profile) : Prop where
  working : profile.Working
  sound : profile.recordLog.Sound
  outside : profile.Outside

theorem sound_step {log : RecordLog} {call : RecordLog.Call} (sound : log.Sound)
    (accepted : (log.call call).thrown = none) : (log.step call).Sound := by
  apply sound.step
  rw [RecordLog.NoOverflow, accepted]
  simp

theorem sound_cleared (log : RecordLog) : log.cleared.Sound := by
  have result := RecordLog.dump_result log
  generalize log.cleared = next at result
  cases result with
  | done step sound => exact sound

theorem Settled.next_ok (settled : profile.Settled) (ran : (happen event).run profile = .ok () after) :
    after.Settled := by
  have working := settled.working.next event
  have happens := settled.working.happens event
  rw [Profile.next, Stateful.leaves_of_ok ran] at working
  rw [ran] at happens
  obtain ⟨_, sound, outside⟩ := settled
  cases happens with
  | entered free accepted => exact ⟨working, sound_step sound accepted, fun empty => absurd empty (List.cons_ne_nil _ _)⟩
  | enteredInside marked => exact ⟨working, sound, fun empty => absurd empty (List.cons_ne_nil _ _)⟩
  | left hints accepted => exact ⟨working, sound_step sound accepted, fun _ => rfl⟩
  | exitedInside hints => exact ⟨working, sound, fun empty => absurd empty (List.cons_ne_nil _ _)⟩
  | dumped => exact ⟨working, sound_cleared profile.recordLog, outside⟩
  | epoch accepted => exact ⟨working, sound_step sound accepted, outside⟩

/-- A dump clears the tables of any log. -/
theorem Working.dumped (working : profile.Working) (outside : profile.Outside) :
    Settled { profile with recordLog := profile.recordLog.dump.2 } where
  working := working.next (.action .dump)
  sound := sound_cleared profile.recordLog
  outside := outside

theorem Settled.run_ok {events : List Event} (settled : profile.Settled)
    (ran : (events.forM happen).run profile = .ok () after) : after.Settled := by
  induction events generalizing profile with
  | nil =>
      cases ran
      exact settled
  | cons event rest ih =>
      rw [List.forM_eq_forM, List.forM_cons] at ran
      obtain ⟨_, middle, first, later⟩ := Stateful.ok_of_bind ran
      exact ih (settled.next_ok first) later

theorem Invariant.epoch_ok (invariant : profile.Invariant active) (space : profile.HasSpace) :
    (epoch now).run profile = .ok () (profile.logged (.epoch now)) ∧
      (profile.logged (.epoch now)).Invariant active := by
  obtain ⟨accepted, sound, configured⟩ :=
    log_accepts invariant.sound invariant.configured space (.epoch now)
  constructor
  · rw [invariant.working.epoch_run]
    exact callLog_ok accepted
  · obtain ⟨enabled, current, hints, known, hash, hint, _, _, region⟩ := invariant
    exact ⟨enabled, current, hints, known, hash, hint, sound, configured, region⟩

/-- Inside a region an action sends nothing to the log. -/
theorem visit_inside {action : Action} (before : active ≠ []) (after : nextActive active action ≠ []) :
    visit active action = [] := by
  cases action with
  | enter regionId now => exact if_neg before
  | exit regionId now => exact if_neg after
  | dump => rfl

theorem Invariant.body_ok {body : List Event} (invariant : profile.Invariant active)
    (nested : Nested active (actions body))
    (inside : ∀ done, done <+: body → activeAfter active (actions done) ≠ [])
    (marked : Marked active (actions body)) (space : Stateful.Throughout happen HasSpace profile body) :
    ∃ after, (body.forM happen).run profile = .ok () after ∧
      after.received = profile.received ++ epochs body ∧
      after.Invariant (activeAfter active (actions body)) := by
  induction body generalizing profile active with
  | nil => exact ⟨profile, rfl, (List.append_nil _).symm, invariant⟩
  | cons event rest ih =>
      cases event with
      | epoch now =>
          obtain ⟨logged_now, kept⟩ := @Invariant.epoch_ok profile active now invariant space.now
          have ran : (happen (.epoch now)).run profile = .ok () (profile.logged (.epoch now)) := logged_now
          obtain ⟨after, reached, received, last⟩ := ih kept nested
            (fun done begun => inside (.epoch now :: done) (List.prefix_cons_inj _ |>.mpr begun)) marked
            (space.later ran)
          refine ⟨after, ?_, ?_, last⟩
          · rw [Stateful.run_forM_cons ran, reached]
          · rw [received, logged, epochs, List.append_assoc, List.singleton_append]
      | action action =>
          rw [actions, nested_cons] at nested
          rw [actions, marked_cons] at marked
          obtain ⟨middle, performed, sent, kept⟩ := perform_ok invariant space.now nested.1 marked.1
          have ran : (happen (.action action)).run profile = .ok () middle := performed
          have before : active ≠ [] := inside [] List.nil_prefix
          have stays : nextActive active action ≠ [] := inside [.action action] (List.prefix_append _ rest)
          rw [visit_inside before stays, List.append_nil] at sent
          obtain ⟨after, reached, received, last⟩ := ih kept nested.2
            (fun done begun => inside (.action action :: done) (List.prefix_cons_inj _ |>.mpr begun)) marked.2
            (space.later ran)
          refine ⟨after, ?_, ?_, last⟩
          · rw [Stateful.run_forM_cons ran, reached]
          · rw [received, sent, epochs]

theorem Settled.records (settled : profile.Settled) (left : profile.hintStack = []) : profile.Records := by
  intro regionId exited start stop body visit space
  have accepted := (log_accepts settled.sound settled.working.configured space.now
    (.enter (regionIdHash regionId).toNat start)).1
  have entered : (happen (.action (.enter regionId start))).run profile =
      .ok () (profile.entered regionId start) := settled.working.enter_free (settled.outside left) accepted
  have invariant : (profile.entered regionId start).Invariant [regionId] :=
    settled.working.entered settled.sound space.now left
  have others := space.later entered
  obtain ⟨middle, ran, received, kept⟩ :=
    invariant.body_ok visit.nested visit.inside visit.marked others.of_append
  rw [visit.ends] at kept
  have last : middle.HasSpace := others body _ middle (List.prefix_refl _) ran
  obtain ⟨after, exits, sent, _⟩ := @exit_outermost middle exited stop regionId kept last
  have finished : (happen (.action (.exit exited stop))).run middle = .ok () after := exits
  refine ⟨after, ?_, ?_⟩
  · rw [Stateful.run_forM_cons entered, List.forM_eq_forM, List.forM_append, ← List.forM_eq_forM,
      Stateful.run_bind_ok ran]
    exact Stateful.run_forM_cons finished []
  · rw [sent, received, visit.same]
    simp [Profile.entered]

theorem Working.recovers (working : profile.Working) (outside : profile.Outside) : profile.Recovers := by
  intro later after ran left
  have dumped : (happen (.action .dump)).run profile =
      .ok () { profile with recordLog := profile.recordLog.dump.2 } := rfl
  rw [Stateful.run_forM_cons dumped] at ran
  exact ((working.dumped outside).run_ok ran).records left

theorem Working.atomic_iff {action : Action} (working : profile.Working)
    (thrown : (perform action).run profile = .error (.log reason) after) :
    profile.Atomic after ↔
      ∃ regionId now, action = .enter regionId now ∧ regionIdHash regionId = regionHashUnmarked := by
  have happens := working.happens (.action action)
  have kept := working.next (.action action)
  have ran : (happen (.action action)).run profile = .error (.log reason) after := thrown
  rw [Profile.next, Stateful.leaves_of_error ran] at kept
  rw [ran] at happens
  cases happens with
  | @enterThrown regionId start _ free failed =>
      constructor
      · intro atomic
        exact ⟨regionId, start, rfl, atomic.currentHash.trans free⟩
      · rintro ⟨regionId, start, same, unmarked⟩
        cases same
        exact ⟨unmarked.trans free.symm, rfl, fun _ _ => rfl, fun _ _ => rfl,
          kept.recovers fun _ => unmarked⟩
  | exitThrown hints failed =>
      apply iff_of_false
      · intro atomic
        have popped := atomic.hintStack
        rw [hints] at popped
        cases popped
      · rintro ⟨regionId, now, same, _⟩
        cases same

theorem Working.next_epoch (working : profile.Working) :
    profile.next (.epoch now) = profile.logged (.epoch now) := by
  have happens := working.happens (.epoch now)
  unfold Profile.next Stateful.leaves
  generalize (happen (.epoch now)).run profile = result at happens
  cases happens with
  | epoch accepted => rfl
  | epochThrown thrown => rfl

theorem Working.run {events : List Event} (working : profile.Working) :
    (Transition.run Profile.next profile events).Working := by
  induction events generalizing profile with
  | nil => exact working
  | cons event rest ih => exact ih (working.next event)

end Calls

/-- An enter or exit that throws because the log is full changes nothing and is recovered from by the next
dump, if and only if it is the enter of a region that has the hash of no region. -/
theorem atomic_iff_unmarked (process : Int) (cpuSet : List Int) (appStatus : ApplicationStatus)
    (timeZero : Time) (ready : Profile) (zero : timeDiff timeZero ⟨0, 0⟩ ≠ 0)
    (initialized : (init timeZero).run (new process cpuSet appStatus) = .ok () ready)
    (history : List Event) (action : Action) (after : Profile)
    (thrown : (perform action).run (Transition.run next ready history) =
      .error (.log .maximumRecords) after) :
    (Transition.run next ready history).Atomic after ↔
      ∃ regionId now, action = .enter regionId now ∧ regionIdHash regionId = regionHashUnmarked :=
  (init_invariant zero initialized).working.run.atomic_iff thrown

/-- As many epochs as the log has records. -/
def manyEpochs : List Event := List.replicate maxRecord (.epoch ⟨2, 0⟩)

theorem run_epochs {profile : Profile} (working : profile.Working) (count : Nat) :
    ∃ received, Transition.run next profile (List.replicate count (.epoch ⟨2, 0⟩)) =
      { profile with
        recordLog := Transition.run RecordLog.step profile.recordLog (List.replicate count (.epoch ⟨2, 0⟩))
        received } := by
  induction count with
  | zero => exact ⟨profile.received, rfl⟩
  | succ count ih =>
      obtain ⟨received, ran⟩ := ih
      have reached : (Transition.run next profile (List.replicate count (.epoch ⟨2, 0⟩))).Working := working.run
      rw [List.replicate_succ', Transition.run_concat, reached.next_epoch, ran,
        List.replicate_succ', Transition.run_concat]
      exact ⟨_, rfl⟩

theorem enter_manyEpochs (regionId : BitVec 64) :
    ∃ after, (perform (.enter regionId ⟨3, 0⟩)).run (Transition.run next twoCpus manyEpochs) =
      .error (.log .maximumRecords) after := by
  have working : twoCpus.Working := (init_invariant (by decide +kernel) twoCpus_init).working
  have reached : (Transition.run next twoCpus manyEpochs).Working := working.run
  obtain ⟨received, ran⟩ := run_epochs working maxRecord
  have fresh : twoCpus.recordLog = RecordLog.initial 0 ⟨1, 0⟩ := rfl
  have epochs := RecordLog.epochs_run (fresh ▸ working.configured) maxRecord (Nat.le_refl maxRecord)
  rw [manyEpochs, ran, fresh] at reached
  rw [manyEpochs, ran, fresh]
  generalize Transition.run RecordLog.step (RecordLog.initial 0 ⟨1, 0⟩) _ = log at reached epochs
  obtain ⟨sound, _, unknown, full⟩ := epochs
  have failed := RecordLog.enter_of_full full (sound.setup (by rw [full]; decide))
    (congrFun unknown (regionIdHash regionId).toNat : _ = none) ⟨3, 0⟩
  have free : twoCpus.currentHash = regionHashUnmarked := rfl
  exact ⟨_, reached.enter_throws free (congrArg Outcome.thrown failed)⟩

theorem atomic_manyEpochs :
    ∃ after, (perform (.enter regionHashUnmarked ⟨3, 0⟩)).run (Transition.run next twoCpus manyEpochs) =
        .error (.log .maximumRecords) after ∧
      (Transition.run next twoCpus manyEpochs).Atomic after := by
  obtain ⟨after, thrown⟩ := enter_manyEpochs regionHashUnmarked
  exact ⟨after, thrown, (atomic_iff_unmarked 0 [0, 1] _ ⟨1, 0⟩ twoCpus (by decide +kernel) twoCpus_init
    manyEpochs _ after thrown).mpr ⟨regionHashUnmarked, ⟨3, 0⟩, rfl, by decide⟩⟩

/-- The current hash stays that of the region that has not been entered. -/
theorem not_atomic_manyEpochs :
    ∃ after, (perform (.enter 7 ⟨3, 0⟩)).run (Transition.run next twoCpus manyEpochs) =
        .error (.log .maximumRecords) after ∧
      ¬ (Transition.run next twoCpus manyEpochs).Atomic after := by
  obtain ⟨after, thrown⟩ := enter_manyEpochs 7
  have working : twoCpus.Working := (init_invariant (by decide +kernel) twoCpus_init).working
  refine ⟨after, thrown, ?_⟩
  rw [working.run.atomic_iff thrown]
  rintro ⟨regionId, now, same, unmarked⟩
  cases same
  exact absurd unmarked (by decide)

end Profile

end Geopm
