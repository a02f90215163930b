import Geopm.Balancer.Agg
import Geopm.EpochFilter.CircularBuffer
import Geopm.Library.Run
import Mathlib.Data.List.Infix

namespace Geopm

/-! `PowerGovernorAgent` of level 0: the power that it enforces and reports. -/

/-- `PowerGovernorImp`, with the setting of each of its controls. -/
structure PowerGovernor where
  numPkg : Nat
  minPkgPowerPolicy : Number
  maxPkgPowerPolicy : Number
  lastPkgPowerSetting : Number
  doWriteBatch : Bool
  controls : List Number
deriving Repr, DecidableEq

namespace PowerGovernor

/-- The constructor and `init_platform_io`. -/
def new (numPkg : Nat) (minPkgPower maxPkgPower : Number) (controls : List Number) : PowerGovernor :=
  ⟨numPkg, minPkgPower, maxPkgPower, .nan, false, controls⟩

/-- `adjust_platform`, with the power that was enforced before and the one that
is enforced now. -/
def adjustPlatform (nodePowerRequest nodePowerActual : Number) (governor : PowerGovernor) :
    PowerGovernor × Number :=
  if nodePowerRequest.isNan then ({ governor with doWriteBatch := false }, nodePowerActual)
  else
    let requested := nodePowerRequest / .value governor.numPkg
    let targetPkgPower :=
      if requested.lt governor.minPkgPowerPolicy then governor.minPkgPowerPolicy
      else if governor.maxPkgPowerPolicy.lt requested then governor.maxPkgPowerPolicy
      else requested
    if governor.lastPkgPowerSetting.eq targetPkgPower then
      ({ governor with doWriteBatch := false }, nodePowerActual)
    else
      ({ governor with
        controls := governor.controls.map fun _ => targetPkgPower
        lastPkgPowerSetting := targetPkgPower
        doWriteBatch := true }, .value governor.numPkg * targetPkgPower)

/-- The sample that goes up the tree. -/
structure Sample where
  power : Number
  isConverged : Number
  powerEnforced : Number
deriving Repr, DecidableEq

/-- Whether the median meets the budget. -/
def isConverged (median powerBudget : Number) : Number :=
  if median.lt powerBudget || median.eq powerBudget then .value 1 else 0

structure Agent where
  powerGov : PowerGovernor
  lastPowerBudget : Number
  epochPowerBuf : CircularBuffer Number
  minNumConverged : Nat
  doSendSample : Bool
  adjustedPower : Number

namespace Agent

/-- The constructor and `init` at level 0. -/
def new (powerGov : PowerGovernor) : Agent where
  powerGov
  lastPowerBudget := .nan
  epochPowerBuf := CircularBuffer.new 16
  minNumConverged := 15
  doSendSample := false
  adjustedPower := 0

/-- `adjust_platform`. -/
def adjustPlatform (powerBudgetIn : Number) (agent : Agent) : Agent :=
  let (powerGov, adjustedPower) := agent.powerGov.adjustPlatform powerBudgetIn agent.adjustedPower
  { agent with powerGov, adjustedPower, lastPowerBudget := powerBudgetIn }

/-- The window with a power that is read, which is left out if it is not a number. -/
def insertPower (pkgPower : Number) (agent : Agent) : Except BufferError (CircularBuffer Number) :=
  if pkgPower.isNan then .ok agent.epochPowerBuf else agent.epochPowerBuf.insert pkgPower

/-- `sample_platform`, with the package power that is read. -/
def samplePlatform (pkgPower : Number) (outSample : Sample) (agent : Agent) :
    Except BufferError (Agent × Sample) := do
  let epochPowerBuf ← agent.insertPower pkgPower
  if agent.minNumConverged < epochPowerBuf.size then
    let median := Agg.median epochPowerBuf.entries
    pure ({ agent with epochPowerBuf, doSendSample := true },
      ⟨median, isConverged median agent.lastPowerBudget, agent.adjustedPower⟩)
  else
    pure ({ agent with epochPowerBuf, doSendSample := false }, outSample)

end Agent

/-- A call of the controller. -/
inductive Call where
  | adjust (powerBudget : Number)
  | sample (pkgPower : Number)
deriving Repr, DecidableEq

/-- The agent with its last sample, and the powers that were read before and
after the last change of the budget. -/
structure History where
  agent : Agent
  outSample : Sample
  stale : List Number
  fresh : List Number

namespace History

def start (powerGov : PowerGovernor) (outSample : Sample) : History :=
  { agent := .new powerGov, outSample, stale := [], fresh := [] }

/-- A power that is read. -/
def readable (pkgPower : Number) : List Number := if pkgPower.isNan then [] else [pkgPower]

/-- A call of the controller. The window has a size, so its insert does not throw. -/
def step (history : History) : Call → History
  | .adjust powerBudget =>
      let agent := history.agent.adjustPlatform powerBudget
      if powerBudget = history.agent.lastPowerBudget then { history with agent }
      else { history with agent, stale := history.stale ++ history.fresh, fresh := [] }
  | .sample pkgPower =>
      match history.agent.samplePlatform pkgPower history.outSample with
      | .error _ => history
      | .ok (agent, outSample) =>
          { history with agent, outSample, fresh := history.fresh ++ readable pkgPower }

/-- The sample comes from the powers in the window. -/
def FromWindow (history : History) : Prop :=
  history.outSample.power = Agg.median history.agent.epochPowerBuf.entries ∧
    history.outSample.isConverged =
      isConverged (Agg.median history.agent.epochPowerBuf.entries) history.agent.lastPowerBudget

/-- If a sample is sent, then it comes from a window that was read after the
last change of the budget. -/
def SendsFresh (history : History) : Prop :=
  history.agent.doSendSample = true →
    history.FromWindow ∧ history.agent.epochPowerBuf.entries <:+ history.fresh

/-- A call of `sample_platform` sends nothing or what is fresh. -/
def Reports (history : History) : Call → Prop
  | .adjust _ => True
  | .sample pkgPower => (history.step (.sample pkgPower)).SendsFresh

instance (history : History) : Decidable history.FromWindow := inferInstanceAs (Decidable (_ ∧ _))

instance (history : History) : Decidable history.SendsFresh := inferInstanceAs (Decidable (_ → _ ∧ _))

instance (history : History) : ∀ call, Decidable (history.Reports call)
  | .adjust _ => inferInstanceAs (Decidable True)
  | .sample _ => inferInstanceAs (Decidable (SendsFresh _))

/-- The window is not full, or has been filled since the last change of the budget. -/
def Refilled (history : History) : Call → Prop
  | .adjust _ => True
  | .sample pkgPower =>
      history.agent.epochPowerBuf.size + (readable pkgPower).length < 16 ∨
        16 ≤ history.fresh.length + (readable pkgPower).length

/-- What the calls keep. -/
structure Invariant (history : History) : Prop where
  maxSize : history.agent.epochPowerBuf.maxSize = 16
  minNumConverged : history.agent.minNumConverged = 15
  window : history.agent.epochPowerBuf.entries = (history.stale ++ history.fresh).rtake 16

variable {history : History} {call : Call} {calls : List Call} {pkgPower : Number}

/-- The window with the power that is read. -/
theorem Invariant.insert (invariant : history.Invariant) :
    ∃ window, history.agent.insertPower pkgPower = .ok window ∧ window.maxSize = 16 ∧
      window.entries = (history.stale ++ (history.fresh ++ readable pkgPower)).rtake 16 := by
  have sized := invariant.maxSize
  have held := invariant.window
  cases missing : pkgPower.isNan with
  | true =>
      refine ⟨_, if_pos missing, sized, ?_⟩
      rw [readable, if_pos missing, List.append_nil, held]
  | false =>
      rw [← sized] at held
      obtain ⟨window, inserted, kept, entries⟩ :=
        CircularBuffer.insert_rtake (by omega) held pkgPower
      refine ⟨window, (if_neg (by simp [missing])).trans inserted, kept.trans sized, ?_⟩
      rw [readable, if_neg (by simp [missing]), ← List.append_assoc, entries, sized]

/-- A sample takes the power into the window, and is sent if the window is full. -/
theorem Invariant.sample (invariant : history.Invariant) :
    ∃ after, history.step (.sample pkgPower) = after ∧ after.Invariant ∧
      after.stale = history.stale ∧ after.fresh = history.fresh ++ readable pkgPower ∧
      (after.agent.doSendSample = true ↔ after.agent.epochPowerBuf.size = 16) ∧
      (after.agent.doSendSample = true → after.FromWindow) := by
  obtain ⟨window, inserted, sized, entries⟩ := @Invariant.insert _ pkgPower invariant
  have bounded : window.size ≤ 16 := sized ▸ window.bounded
  by_cases full : 15 < window.size
  · refine ⟨_, rfl, ?_⟩
    have sampled : history.agent.samplePlatform pkgPower history.outSample = .ok
        ({ history.agent with epochPowerBuf := window, doSendSample := true },
          ⟨Agg.median window.entries,
            isConverged (Agg.median window.entries) history.agent.lastPowerBudget,
            history.agent.adjustedPower⟩) := by
      simp only [Agent.samplePlatform, inserted, bind, Except.bind, invariant.minNumConverged, if_pos full,
        pure, Except.pure]
    rw [step, sampled]
    exact ⟨⟨sized, invariant.minNumConverged, entries⟩, rfl, rfl,
      iff_of_true rfl (Nat.le_antisymm bounded full), fun _ => ⟨rfl, rfl⟩⟩
  · refine ⟨_, rfl, ?_⟩
    have sampled : history.agent.samplePlatform pkgPower history.outSample = .ok
        ({ history.agent with epochPowerBuf := window, doSendSample := false }, history.outSample) := by
      simp only [Agent.samplePlatform, inserted, bind, Except.bind, invariant.minNumConverged, if_neg full,
        pure, Except.pure]
    rw [step, sampled]
    exact ⟨⟨sized, invariant.minNumConverged, entries⟩, rfl, rfl,
      iff_of_false Bool.false_ne_true (fun same => full (same ▸ by decide)), fun sends => by cases sends⟩

theorem Invariant.step (invariant : history.Invariant) : (history.step call).Invariant := by
  cases call with
  | adjust powerBudget =>
      rw [History.step]
      split
      · exact ⟨invariant.maxSize, invariant.minNumConverged, invariant.window⟩
      · refine ⟨invariant.maxSize, invariant.minNumConverged, ?_⟩
        rw [List.append_nil]
        exact invariant.window
  | sample pkgPower =>
      obtain ⟨after, rfl, kept, _⟩ := @Invariant.sample _ pkgPower invariant
      exact kept

theorem length_rtake {Item : Type} {items : List Item} {count : Nat} :
    (items.rtake count).length = min items.length count := by
  rw [List.rtake, List.length_drop]
  omega

/-- The last values of a list come from its end if the end has as many. -/
theorem rtake_suffix_iff {Item : Type} {first last : List Item} {count : Nat} :
    (first ++ last).rtake count <:+ last ↔ min (first.length + last.length) count ≤ last.length := by
  have length : ((first ++ last).rtake count).length = min (first.length + last.length) count := by
    rw [length_rtake, List.length_append]
  constructor
  · intro suffix
    rw [← length]
    exact suffix.length_le
  · intro enough
    exact List.suffix_of_suffix_length_le (List.drop_suffix _ _) (List.suffix_append _ _) (length ▸ enough)

/-- A sample is fresh exactly if the window has been refilled. -/
theorem Invariant.reports_iff (invariant : history.Invariant) :
    history.Reports call ↔ history.Refilled call := by
  cases call with
  | adjust powerBudget => rfl
  | sample pkgPower =>
      obtain ⟨after, stepped, kept, stale, fresh, sends, fromWindow⟩ :=
        @Invariant.sample _ pkgPower invariant
      have before : history.agent.epochPowerBuf.size = min (history.stale.length + history.fresh.length) 16 := by
        rw [CircularBuffer.size, invariant.window, length_rtake, List.length_append]
      have now : after.agent.epochPowerBuf.size =
          min (history.stale.length + (history.fresh.length + (readable pkgPower).length)) 16 := by
        rw [CircularBuffer.size, kept.window, length_rtake, stale, fresh, List.length_append,
          List.length_append]
      rw [Reports, Refilled, stepped, SendsFresh, kept.window, rtake_suffix_iff, stale, fresh, sends, now,
        before, List.length_append]
      constructor
      · intro reported
        by_cases full : 16 ≤ history.stale.length + (history.fresh.length + (readable pkgPower).length)
        · have enough := (reported (by omega)).2
          omega
        · omega
      · intro refilled full
        exact ⟨fromWindow (sends.mpr (now.trans full)), by omega⟩

/-- Every sample that is sent is fresh exactly if the window is refilled after
each change of the budget before a sample is sent. -/
theorem reports_fresh_iff {powerGov : PowerGovernor} {outSample : Sample} :
    Transition.Permitted step Reports (start powerGov outSample) calls ↔
      Transition.Permitted step Refilled (start powerGov outSample) calls :=
  Transition.permitted_congr (fun _ _ (invariant : Invariant _) _ => invariant.step)
    (fun _ _ invariant => invariant.reports_iff) ⟨rfl, rfl, rfl⟩

/-- The budget is lowered when the window is full. -/
theorem not_reports_fresh_lowered :
    ¬ Transition.Permitted step Reports
      (start (.new 1 (.value 50) (.value 200) [.nan]) ⟨.nan, .nan, .nan⟩)
      (.adjust (.value 180) :: List.replicate 16 (.sample (.value 150)) ++
        [.adjust (.value 100), .sample (.value 90)]) := by
  decide +kernel

end History

end PowerGovernor

end Geopm
