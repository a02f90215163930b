import Geopm.Handshake.Exchange

namespace Geopm.Handshake

/-! Where the processes of a handshake can be, given how many statuses each side has
published. -/

/-- The collectives before an exchange. -/
def entered (numRank : Nat) : Nat → Nat
  | 0 => 0
  | 1 => 0
  | exchange + 2 => entered numRank (exchange + 1) + collectives numRank (exchange + 1)

section

variable {numRank exchange other : Nat}

theorem entered_succ (first : 1 ≤ exchange) :
    entered numRank (exchange + 1) = entered numRank exchange + collectives numRank exchange := by
  cases exchange with
  | zero => omega
  | succ exchange => rfl

theorem entered_lt (first : 1 ≤ exchange) :
    entered numRank exchange < entered numRank (exchange + 1) := by
  have positive := collectives_pos numRank exchange
  rw [entered_succ first]
  omega

theorem entered_mono (ordered : exchange ≤ other) :
    entered numRank exchange ≤ entered numRank other := by
  induction other with
  | zero =>
      obtain rfl : exchange = 0 := by omega
      exact le_refl _
  | succ other ih =>
      by_cases same : exchange = other + 1
      · rw [same]
      · refine (ih (by omega)).trans ?_
        by_cases first : 1 ≤ other
        · exact (entered_lt first).le
        · obtain rfl : other = 0 := by omega
          exact le_refl _

end

/-- How far a rank is in an exchange. -/
inductive RankStage where
  /-- the collectives that are left, with the next one to enter or to leave -/
  | arriving (left : Nat)
  | leaving (left : Nat)
  | checking
  | loading
  | storing
  | counting
  | spinning
  | rechecking
  | beginning
  | awaiting
  | setting
  | finished
deriving DecidableEq

namespace RankStage

/-- Before the status of the rank, after it, and after that of the controller. -/
inductive Phase where
  | entering
  | publishing
  | waiting
  | seen
deriving DecidableEq

def phase : RankStage → Phase
  | .arriving _ => .entering
  | .leaving _ => .entering
  | .checking => .publishing
  | .loading => .publishing
  | .storing => .publishing
  | .beginning => .publishing
  | .counting => .waiting
  | .spinning => .waiting
  | .awaiting => .waiting
  | .finished => .waiting
  | .rechecking => .seen
  | .setting => .seen

/-- The collectives that are still to be entered. -/
def left : RankStage → Nat
  | .arriving left => left + 1
  | .leaving left => left
  | _ => 0

/-- What is left of the exchange. -/
def rest (isWriter : Bool) (more exchange : Nat) : RankStage → List Instr
  | .arriving left => (List.replicate (left + 1) barrier).flatten ++
      Profile.publish isWriter more exchange
  | .leaving left => .leave :: (List.replicate left barrier).flatten ++
      Profile.publish isWriter more exchange
  | .checking => stepSide .app ++ Profile.await more exchange
  | .loading => [.stepLoad .app, .stepStore .app] ++ Profile.await more exchange
  | .storing => [.stepStore .app] ++ Profile.await more exchange
  | .counting => wait
  | .spinning => [.waitSpin, .waitCheck]
  | .rechecking => [.waitCheck]
  | .beginning => Profile.loopBegin
  | .awaiting => [.loopSpin, .loopLast]
  | .setting => [.loopLast]
  | .finished => []

/-- The stages of an exchange depend on its kind. -/
def Fits (isWriter : Bool) (more exchange : Nat) : RankStage → Prop
  | .arriving _ => True
  | .leaving _ => True
  | .checking => isWriter = true ∧ ¬ IsLoop more exchange
  | .loading => isWriter = true ∧ ¬ IsLoop more exchange
  | .storing => isWriter = true ∧ ¬ IsLoop more exchange
  | .counting => ¬ IsLoop more exchange ∧ exchange ≠ numExchange more
  | .spinning => ¬ IsLoop more exchange ∧ exchange ≠ numExchange more
  | .rechecking => ¬ IsLoop more exchange ∧ exchange ≠ numExchange more
  | .beginning => IsLoop more exchange
  | .awaiting => IsLoop more exchange
  | .setting => IsLoop more exchange
  | .finished => exchange = numExchange more

/-- The stage after the collectives. -/
def published (isWriter : Bool) (more exchange : Nat) : RankStage :=
  if IsLoop more exchange then .beginning
  else if isWriter then .checking
  else if exchange = numExchange more then .finished
  else .counting

/-- The last status is that of the exchange already. -/
def IsCounted : RankStage → Prop
  | .spinning => True
  | .rechecking => True
  | _ => False

instance : ∀ stage, Decidable (IsCounted stage) := fun stage => by
  cases stage <;> unfold IsCounted <;> infer_instance

end RankStage

section

variable {numRank : Nat}

/-- A rank in an exchange, where the sides have published so many statuses. -/
structure RankAt (more app ctl : Nat) (arrived : Fin numRank → Nat) (isWriter : Bool)
    (process : Process) (exchange : Nat) (stage : RankStage) : Prop where
  todo : process.todo = stage.rest isWriter more exchange ++
    Profile.programFrom isWriter numRank more (exchange + 1)
  isThrown : process.isThrown = false
  first : 1 ≤ exchange
  last_le : exchange ≤ numExchange more
  fits : stage.Fits isWriter more exchange
  /-- the controller has published the status before, and nobody the one after -/
  behind : exchange ≤ ctl + 1
  ahead : app ≤ exchange
  arrivals : process.arrived + stage.left = entered numRank (exchange + 1)
  together : stage.phase ≠ .entering → ∀ other, entered numRank (exchange + 1) ≤ arrived other
  unpublished : stage.phase = .entering ∨ stage.phase = .publishing → isWriter = true →
    ¬ IsLoop more exchange → app + 1 = exchange
  published : stage.phase = .waiting ∨ stage.phase = .seen →
    isWriter = true ∨ IsLoop more exchange → app = exchange
  seen : stage.phase = .seen → exchange ≤ ctl
  last : process.last =
    if stage.IsCounted then statusAt more exchange else statusAt more (exchange - 1)
  loaded : stage = .storing → process.loaded = statusAt more (exchange - 1)
  awaited : process.awaited = if stage.phase = .seen then exchange else exchange - 1

end

/-- How far the controller is in an exchange. -/
inductive ControllerStage where
  | guarding
  | setting
  | counting
  | spinning
  | rechecking
  | polling
  | naming
  | branching
  | awaiting
  | beginning
  | checking
  | loading
  | storing
  | finished
deriving DecidableEq

namespace ControllerStage

/-- The status of the application was seen. -/
def IsSeen : ControllerStage → Prop
  | .rechecking => True
  | .branching => True
  | .beginning => True
  | .checking => True
  | .loading => True
  | .storing => True
  | .finished => True
  | _ => False

instance : ∀ stage, Decidable (IsSeen stage) := fun stage => by
  cases stage <;> unfold IsSeen <;> infer_instance

/-- The increment, unless the exchange is the last. -/
def increment (more exchange : Nat) : List Instr :=
  if exchange = numExchange more then [] else ProfileSampler.step

def rest (more exchange : Nat) : ControllerStage → List Instr
  | .guarding => [.shutdownCheck, .loopSpin, .loopWrite]
  | .setting => [.loopLast] ++ wait ++ ProfileSampler.step
  | .counting => wait ++ increment more exchange
  | .spinning => [.waitSpin, .waitCheck] ++ increment more exchange
  | .rechecking => [.waitCheck] ++ increment more exchange
  | .polling => [.sampleEnd] ++ ProfileSampler.step
  | .naming => [.nameSpin, .nameBegin] ++ ProfileSampler.step
  | .branching => [.nameBegin] ++ ProfileSampler.step
  | .awaiting => [.loopSpin, .loopWrite]
  | .beginning => [.loopWrite]
  | .checking => ProfileSampler.step
  | .loading => [.stepLoad .ctl, .stepStore .ctl]
  | .storing => [.stepStore .ctl]
  | .finished => []

/-- The exchange is one of `wait`. -/
def IsWait (more exchange : Nat) : Prop :=
  exchange < 4 ∨ 6 ≤ exchange ∧ ¬ IsLoop more exchange

def Fits (more exchange : Nat) : ControllerStage → Prop
  | .guarding => IsLoop more exchange ∧ exchange ≠ 6
  | .setting => IsWait more exchange ∧ 6 ≤ exchange ∧ exchange ≤ 2 * more + 7
  | .counting => IsWait more exchange
  | .spinning => IsWait more exchange
  | .rechecking => IsWait more exchange
  | .polling => exchange = 4
  | .naming => exchange = 5
  | .branching => exchange = 5
  | .awaiting => IsLoop more exchange
  | .beginning => IsLoop more exchange
  | .checking => ¬ IsLoop more exchange ∧ exchange ≠ numExchange more
  | .loading => ¬ IsLoop more exchange ∧ exchange ≠ numExchange more
  | .storing => ¬ IsLoop more exchange ∧ exchange ≠ numExchange more
  | .finished => exchange = numExchange more

/-- The stage in which an exchange starts. -/
def initial (more exchange : Nat) : ControllerStage :=
  if exchange = 4 then .polling
  else if exchange = 5 then .naming
  else if IsLoop more exchange then if exchange = 6 then .awaiting else .guarding
  else if 6 ≤ exchange ∧ exchange ≤ 2 * more + 7 then .setting
  else .counting

end ControllerStage

/-- The controller in an exchange, where the sides have published so many statuses. -/
structure ControllerAt (more app ctl : Nat) (process : Process) (exchange : Nat)
    (stage : ControllerStage) : Prop where
  todo : process.todo = stage.rest more exchange ++ ProfileSampler.programFrom more (exchange + 1)
  isThrown : process.isThrown = false
  last_le : exchange ≤ numExchange more
  fits : stage.Fits more exchange
  turn : ctl + 1 = exchange
  ahead : app ≤ exchange
  seen : stage.IsSeen → app = exchange
  last : ControllerStage.IsWait more exchange → stage ≠ .setting →
    process.last =
      if stage = .counting then statusAt more (exchange - 1) else statusAt more exchange
  loaded : stage = .storing → process.loaded = statusAt more (exchange - 1)
  awaited : process.awaited = if stage.IsSeen then exchange else exchange - 1

/-- The invariant of the handshake. -/
structure Invariant {numRank : Nat} (more : Nat) (system : System numRank) : Prop where
  app : system.memory.app.value = statusAt more system.memory.app.changes
  ctl : system.memory.ctl.value = statusAt more system.memory.ctl.changes
  behind : system.memory.ctl.changes ≤ system.memory.app.changes
  ranks : ∀ rank, ∃ exchange stage, RankAt more system.memory.app.changes
    system.memory.ctl.changes (fun other => (system.rank other).arrived) (rank.val = 0)
    (system.rank rank) exchange stage
  controller : ∃ exchange stage, ControllerAt more system.memory.app.changes
    system.memory.ctl.changes system.controller exchange stage

end Geopm.Handshake
