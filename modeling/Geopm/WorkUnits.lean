import Geopm.ProfileIOGroup

namespace Geopm

/-! `ApplicationStatus`: the progress of the work that is shared by the threads of a region. -/

namespace ApplicationStatus

/-- `set_total_work_units`. -/
def setTotalWorkUnits (status : ApplicationStatus) (cpu workUnits : Int) :
    Except StatusError ApplicationStatus :=
  status.checked cpu <|
    if workUnits ≤ 0 then .error (.invalidWorkUnits workUnits)
    else .ok (status.modify cpu fun entry => { entry with totalWork := BitVec.ofInt 32 workUnits })

/-- `increment_work_unit`. -/
def incrementWorkUnit (status : ApplicationStatus) (cpu : Int) : Except StatusError ApplicationStatus :=
  status.checked cpu <|
    if (status.buffer cpu).totalWork ≠ 0 then
      .ok (status.modify cpu fun entry => { entry with completedWork := entry.completedWork + 1 })
    else .ok status

/-- The calls that change the status or its cache. A call of `set_process` for several CPUs is
one for each of them. -/
inductive Call where
  | setHint (cpu : Int) (hint : BitVec 64)
  | setHash (cpu : Int) (hash hint : BitVec 64)
  | resetWorkUnits (cpu : Int)
  | setTotalWorkUnits (cpu workUnits : Int)
  | incrementWorkUnit (cpu : Int)
  | setProcess (cpu process : Int)
  | updateCache
deriving Repr, DecidableEq

def call (status : ApplicationStatus) : Call → Except StatusError ApplicationStatus
  | .setHint cpu hint => status.setHint cpu hint
  | .setHash cpu hash hint => status.setHash cpu hash hint
  | .resetWorkUnits cpu => status.resetWorkUnits cpu
  | .setTotalWorkUnits cpu workUnits => status.setTotalWorkUnits cpu workUnits
  | .incrementWorkUnit cpu => status.incrementWorkUnit cpu
  | .setProcess cpu process => status.setProcess cpu process
  | .updateCache => .ok status.updateCache

/-- A call that throws changes nothing. -/
def perform (status : ApplicationStatus) (action : Call) : ApplicationStatus :=
  match status.call action with
  | .ok next => next
  | .error _ => status

def run (status : ApplicationStatus) (calls : List Call) : ApplicationStatus := calls.foldl perform status

/-- The call is none that sets the counters of the CPU. -/
def Call.Spares (cpu : Int) : Call → Prop
  | .resetWorkUnits other => other ≠ cpu
  | .setTotalWorkUnits other _ => other ≠ cpu
  | _ => True

instance (cpu : Int) : DecidablePred (Call.Spares cpu)
  | .resetWorkUnits other => inferInstanceAs (Decidable (other ≠ cpu))
  | .setTotalWorkUnits other _ => inferInstanceAs (Decidable (other ≠ cpu))
  | .setHint _ _ | .setHash _ _ _ | .incrementWorkUnit _ | .setProcess _ _ | .updateCache =>
      inferInstanceAs (Decidable True)

variable {status next : ApplicationStatus} {cpu other workUnits : Int} {calls : List Call} {action : Call}

/-- The counters of a CPU are the same. -/
def SameWork (cpu : Int) (status next : ApplicationStatus) : Prop :=
  (next.buffer cpu).totalWork = (status.buffer cpu).totalWork ∧
    (next.buffer cpu).completedWork = (status.buffer cpu).completedWork

theorem sameWork_modify {change : CpuStatus → CpuStatus}
    (keeps : other ≠ cpu ∨ ∀ entry, (change entry).totalWork = entry.totalWork ∧
      (change entry).completedWork = entry.completedWork) : SameWork cpu status (status.modify other change) := by
  by_cases same : cpu = other
  case pos =>
      subst same
      rw [SameWork, modify_self]
      exact keeps.resolve_left (fun different => different rfl) _
  case neg =>
      rw [SameWork, modify_other same]
      exact ⟨rfl, rfl⟩

theorem setHint_sameWork {hint : BitVec 64} (done : status.setHint other hint = .ok next) :
    SameWork cpu status next := by
  simp only [setHint, checked] at done
  split at done
  · cases done
  · split at done
    · cases done
    · cases done
      exact sameWork_modify (.inr fun _ => ⟨rfl, rfl⟩)

theorem setHash_sameWork {hash hint : BitVec 64} (done : status.setHash other hash hint = .ok next) :
    SameWork cpu status next := by
  simp only [setHash, checked] at done
  split at done
  · cases done
  · split at done
    · cases done
    · cases done
      exact sameWork_modify (.inr fun _ => ⟨rfl, rfl⟩)

theorem setProcess_sameWork {process : Int} (done : status.setProcess other process = .ok next) :
    SameWork cpu status next := by
  have assigned : SameWork cpu status (status.modify other fun entry => { entry with process }) :=
    sameWork_modify (.inr fun _ => ⟨rfl, rfl⟩)
  have hashed {hash hint : BitVec 64}
      (done : (status.modify other fun entry => { entry with process }).setHash other hash hint = .ok next) :
      SameWork cpu status next := by
    obtain ⟨total, completed⟩ : SameWork cpu _ next := setHash_sameWork done
    exact ⟨total.trans assigned.1, completed.trans assigned.2⟩
  simp only [setProcess, checked] at done
  split at done
  · cases done
  · split at done
    · exact hashed done
    · exact hashed done

/-- Other calls than the increments for the CPU leave its counters as they are. -/
theorem call_sameWork (spares : action.Spares cpu) (other : action ≠ .incrementWorkUnit cpu)
    (done : status.call action = .ok next) : SameWork cpu status next := by
  cases action with
  | setHint place hint => exact setHint_sameWork done
  | setHash place hash hint => exact setHash_sameWork done
  | setProcess place process => exact setProcess_sameWork done
  | updateCache =>
      cases done
      exact ⟨rfl, rfl⟩
  | resetWorkUnits place =>
      simp only [call, resetWorkUnits, checked] at done
      split at done
      · cases done
      · cases done
        exact sameWork_modify (.inl spares)
  | setTotalWorkUnits place workUnits =>
      simp only [call, setTotalWorkUnits, checked] at done
      split at done
      · cases done
      · split at done
        · cases done
        · cases done
          exact sameWork_modify (.inl spares)
  | incrementWorkUnit place =>
      have different : place ≠ cpu := fun same => other (same ▸ rfl)
      simp only [call, incrementWorkUnit, checked] at done
      split at done
      · cases done
      · split at done
        · cases done
          exact sameWork_modify (.inl different)
        · cases done
          exact ⟨rfl, rfl⟩

theorem call_numCpu (done : status.call action = .ok next) : next.numCpu = status.numCpu := by
  cases action with
  | updateCache =>
      cases done
      rfl
  | _ =>
      simp only [call, setHint, setHash, setProcess, resetWorkUnits, setTotalWorkUnits, incrementWorkUnit,
        checked] at done
      split_ifs at done <;> cases done <;> rfl

theorem perform_numCpu : (status.perform action).numCpu = status.numCpu := by
  rw [perform]
  cases done : status.call action with
  | error reason => rfl
  | ok next => exact call_numCpu done

theorem run_numCpu : (status.run calls).numCpu = status.numCpu := by
  induction calls generalizing status with
  | nil => rfl
  | cons action rest ih => exact ih.trans perform_numCpu

/-- What a call adds to the completed work of a CPU whose total is set. -/
theorem perform_work (known : status.Knows cpu) (spares : action.Spares cpu)
    (total : (status.buffer cpu).totalWork ≠ 0) :
    ((status.perform action).buffer cpu).totalWork = (status.buffer cpu).totalWork ∧
      ((status.perform action).buffer cpu).completedWork = (status.buffer cpu).completedWork +
        BitVec.ofNat 32 (if action = .incrementWorkUnit cpu then 1 else 0) := by
  by_cases counts : action = .incrementWorkUnit cpu
  case pos =>
      subst counts
      have done : status.call (.incrementWorkUnit cpu) = .ok _ := (checked_known known).trans (if_pos total)
      rw [perform, done]
      simp [modify_self]
  case neg =>
      rw [if_neg counts, perform]
      cases done : status.call action with
      | error reason => simp
      | ok next => simpa [SameWork] using call_sameWork spares counts done

/-- The completed work after some calls none of which sets the counters. -/
theorem run_work (known : status.Knows cpu) (spares : ∀ action ∈ calls, action.Spares cpu)
    (total : (status.buffer cpu).totalWork ≠ 0) :
    ((status.run calls).buffer cpu).totalWork = (status.buffer cpu).totalWork ∧
      ((status.run calls).buffer cpu).completedWork = (status.buffer cpu).completedWork +
        BitVec.ofNat 32 (calls.count (.incrementWorkUnit cpu)) := by
  induction calls generalizing status with
  | nil => simp [run]
  | cons action rest ih =>
      obtain ⟨same, counted⟩ := perform_work known (spares action (by simp)) total
      have later : (status.perform action).Knows cpu := ⟨known.1, by rw [perform_numCpu]; exact known.2⟩
      obtain ⟨sameLater, countedLater⟩ := ih later (fun other member => spares other (by simp [member]))
        (by rw [same]; exact total)
      refine ⟨sameLater.trans same, ?_⟩
      have step : (status.run (action :: rest)).buffer cpu = ((status.perform action).run rest).buffer cpu := rfl
      rw [step, countedLater, counted, List.count_cons, BitVec.add_assoc, ← BitVec.ofNat_add, Nat.add_comm]
      simp

theorem run_append {earlier later : List Call} :
    status.run (earlier ++ later) = (status.run earlier).run later := List.foldl_append

theorem setTotalWorkUnits_known (known : status.Knows cpu) (positive : 0 < workUnits) :
    status.perform (.setTotalWorkUnits cpu workUnits) =
      status.modify cpu fun entry => { entry with totalWork := BitVec.ofInt 32 workUnits } := by
  have done : status.call (.setTotalWorkUnits cpu workUnits) = .ok _ :=
    (checked_known known).trans (if_neg (by omega))
  rw [perform, done]

theorem toInt_workUnits (positive : 0 < workUnits) (fits : workUnits < 2 ^ 31) :
    (BitVec.ofInt 32 workUnits).toInt = workUnits := by
  rw [BitVec.toInt_ofInt]
  apply Int.bmod_eq_of_le <;> omega

/-- After the total of a CPU is set and some units are counted, the progress is their part of the total
only where no unit had been counted before. -/
theorem progress_iff (status : ApplicationStatus) (history between : List Call) (cpu workUnits : Int)
    (known : status.Knows cpu) (positive : 0 < workUnits) (fits : workUnits < 2 ^ 31)
    (spares : ∀ action ∈ between, action.Spares cpu)
    (few : (between.count (.incrementWorkUnit cpu) : Int) ≤ workUnits) :
    (status.run (history ++ .setTotalWorkUnits cpu workUnits :: between)).updateCache.getProgressCpu cpu =
        .ok (.value (between.count (.incrementWorkUnit cpu) / workUnits)) ↔
      ((status.run history).buffer cpu).completedWork = 0 := by
  have before : (status.run history).Knows cpu := ⟨known.1, by rw [run_numCpu]; exact known.2⟩
  have set := setTotalWorkUnits_known before positive
  have nonzero : BitVec.ofInt 32 workUnits ≠ 0 := by
    intro zero
    have value := toInt_workUnits positive fits
    rw [zero] at value
    simp at value
    omega
  have after : ((status.run history).perform (.setTotalWorkUnits cpu workUnits)).Knows cpu :=
    ⟨known.1, by rw [perform_numCpu]; exact before.2⟩
  obtain ⟨total, completed⟩ := run_work after spares (by rw [set, modify_self]; exact nonzero)
  rw [set, modify_self] at total completed
  have last : (status.run (history ++ .setTotalWorkUnits cpu workUnits :: between)).updateCache.Knows cpu := by
    rw [run_append]
    exact ⟨known.1, by
      change cpu < ((status.run history).run _).numCpu
      rw [run_numCpu]
      exact before.2⟩
  have final : (status.run (history ++ .setTotalWorkUnits cpu workUnits :: between)).updateCache.cache cpu =
      (((status.run history).perform (.setTotalWorkUnits cpu workUnits)).run between).buffer cpu := by
    rw [run_append]
    rfl
  rw [getProgressCpu, checked_known last, final, set]
  simp only [total, completed, toInt_workUnits positive fits]
  rw [if_pos (by omega), Except.ok.injEq, Number.value.injEq, div_left_inj' (by exact_mod_cast positive.ne')]
  constructor
  case mp =>
      intro same
      have counted : (((status.run history).buffer cpu).completedWork +
          BitVec.ofNat 32 (between.count (.incrementWorkUnit cpu))).toNat =
          between.count (.incrementWorkUnit cpu) := by exact_mod_cast same
      apply BitVec.eq_of_toNat_eq
      have bound := ((status.run history).buffer cpu).completedWork.isLt
      simp only [BitVec.toNat_add, BitVec.toNat_ofNat, Nat.add_mod_mod] at counted ⊢
      change _ = 0
      omega
  case mpr =>
      intro none
      rw [none, show (0 : BitVec 32) = 0#32 from rfl, BitVec.zero_add, BitVec.toNat_ofNat,
        Nat.mod_eq_of_lt (by omega)]

/-- The entries of a shared memory of zeros, for one CPU. -/
def oneCpu : ApplicationStatus := ⟨1, fun _ => ⟨0, 0, 0, 0, 0⟩, fun _ => ⟨0, 0, 0, 0, 0⟩⟩

theorem progress_oneCpu :
    (oneCpu.run ([.setTotalWorkUnits 0 4, .incrementWorkUnit 0, .resetWorkUnits 0] ++ .setTotalWorkUnits 0 5 ::
      [.incrementWorkUnit 0, .setHint 0 0, .incrementWorkUnit 0])).updateCache.getProgressCpu 0 =
        .ok (.value (([.incrementWorkUnit 0, .setHint 0 0, .incrementWorkUnit 0] : List Call).count
          (.incrementWorkUnit 0) / (5 : Int))) :=
  (progress_iff oneCpu [.setTotalWorkUnits 0 4, .incrementWorkUnit 0, .resetWorkUnits 0]
    [.incrementWorkUnit 0, .setHint 0 0, .incrementWorkUnit 0] 0 5 ⟨by decide, by decide⟩ (by decide) (by decide)
    (by decide) (by decide)).mpr (by decide)

/-- Three units of an earlier total are counted in with those of the next. -/
theorem not_progress_oneCpu : ¬∀ (status : ApplicationStatus) (history between : List Call) (cpu workUnits : Int),
    status.Knows cpu → 0 < workUnits → workUnits < 2 ^ 31 → (∀ action ∈ between, action.Spares cpu) →
    (between.count (.incrementWorkUnit cpu) : Int) ≤ workUnits →
    (status.run (history ++ .setTotalWorkUnits cpu workUnits :: between)).updateCache.getProgressCpu cpu =
      .ok (.value (between.count (.incrementWorkUnit cpu) / workUnits)) := by
  intro all
  have reported := all oneCpu (.setTotalWorkUnits 0 10 :: List.replicate 3 (.incrementWorkUnit 0))
    [.incrementWorkUnit 0] 0 5 ⟨by decide, by decide⟩ (by decide) (by decide) (by decide) (by decide)
  exact absurd reported (by decide +kernel)

end ApplicationStatus

end Geopm
