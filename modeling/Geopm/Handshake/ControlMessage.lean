import Geopm.Library.Run
import Mathlib.Logic.Function.Basic
import Mathlib.Data.Fin.Basic

namespace Geopm.Handshake

/-! `ControlMessage`: the handshake of the ranks of an application and the controller
over two words of shared memory.

A call is the list of its single reads and writes. The time limits of the source are
left out: a process that does not see the status it waits for reads again. Where a loop
reads the status twice in a turn, the read that ends it is the instruction.
-/

/-- `M_STATUS_SAMPLE_END`. -/
def statusSampleEnd : Nat := 4

/-- `M_STATUS_NAME_BEGIN`. -/
def statusNameBegin : Nat := 5

/-- `M_STATUS_NAME_LOOP_BEGIN`. -/
def statusNameLoopBegin : Nat := 6

/-- `M_STATUS_SHUTDOWN`. -/
def statusShutdown : Nat := 9

/-- `M_STATUS_ABORT`. -/
def statusAbort : Nat := 9999

/-- A status word of `geopm_ctl_message_s`. -/
structure Word where
  value : Nat
  /-- not in memory: how often the value has changed -/
  changes : Nat
deriving Repr, DecidableEq

def Word.write (word : Word) (value : Nat) : Word :=
  if value = word.value then word else ⟨value, word.changes + 1⟩

/-- The two sides of the shared memory. -/
inductive Side where
  | app
  | ctl
deriving Repr, DecidableEq

def Side.peer : Side → Side
  | .app => .ctl
  | .ctl => .app

/-- The words of `geopm_ctl_message_s`. -/
structure Memory where
  app : Word
  ctl : Word
deriving Repr, DecidableEq

namespace Memory

/-- The status of one side. -/
def status (memory : Memory) : Side → Nat
  | .app => memory.app.value
  | .ctl => memory.ctl.value

def write (memory : Memory) (side : Side) (value : Nat) : Memory :=
  match side with
  | .app => { memory with app := memory.app.write value }
  | .ctl => { memory with ctl := memory.ctl.write value }

end Memory

inductive Instr where
  /-- a barrier, or a collective test, which all ranks enter before one leaves -/
  | arrive
  | leave
  /-- `step`: the comparison with the last status, and the increment -/
  | stepCheck (side : Side)
  | stepLoad (side : Side)
  | stepStore (side : Side)
  /-- `wait`: the local increment, the loop, and the check after it -/
  | waitCount
  | waitSpin
  | waitCheck
  /-- `loop_begin` -/
  | loopWrite
  | loopSpin
  | loopLast
  /-- `is_sample_end`, which `check_sample_end` asks in each update -/
  | sampleEnd
  /-- the loop of `check_sample_end`, and `is_name_begin` after it -/
  | nameSpin
  | nameBegin
  /-- `is_shutdown` between two rounds of `region_names` -/
  | shutdownCheck
deriving Repr, DecidableEq

/-- The increment of a status in `step`. -/
def stepSide (side : Side) : List Instr := [.stepCheck side, .stepLoad side, .stepStore side]

/-- A rank or the controller. -/
structure Process where
  todo : List Instr
  /-- `m_last_status` -/
  last : Nat
  /-- what an increment has read -/
  loaded : Nat
  /-- the collectives of the communicator that were entered -/
  arrived : Nat
  /-- not in memory: how many statuses of the other side were seen -/
  awaited : Nat
  /-- an exception was thrown -/
  isThrown : Bool
deriving Repr, DecidableEq

namespace Process

/-- A process before its first instruction. -/
def start (todo : List Instr) : Process := ⟨todo, 0, 0, 0, 0, false⟩

/-- Throw an exception. -/
def throw (process : Process) : Process := { process with todo := [], isThrown := true }

/-- A read that ends a loop. -/
def see (process : Process) (rest : List Instr) : Process :=
  { process with todo := rest, awaited := process.awaited + 1 }

/-- The next instruction of a process of one side, unless it has to be tried again.
`together` tells that all ranks have entered the collective. -/
def exec (side : Side) (memory : Memory) (together : Prop) [Decidable together]
    (process : Process) : Option (Memory × Process) :=
  match process.todo with
  | [] => none
  | .arrive :: rest => some (memory, { process with todo := rest, arrived := process.arrived + 1 })
  | .leave :: rest => if together then some (memory, { process with todo := rest }) else none
  | .stepCheck word :: rest =>
      if memory.status word ≠ statusShutdown then some (memory, { process with todo := rest })
      -- the controller is constructed as a writer too
      else if word = .ctl then some (memory, { process with todo := stepSide .app ++ rest.drop 2 })
      else some (memory, { process with todo := rest.drop 2 })
  | .stepLoad word :: rest =>
      some (memory, { process with todo := rest, loaded := memory.status word })
  | .stepStore word :: rest =>
      some (memory.write word (process.loaded + 1), { process with todo := rest })
  | .waitCount :: rest => some (memory, { process with
      todo := rest
      last := if process.last ≠ statusShutdown then process.last + 1 else process.last })
  | .waitSpin :: rest =>
      if memory.status side.peer = process.last then some (memory, process.see rest)
      else if memory.status side.peer = statusAbort then some (memory, process.throw)
      else none
  | .waitCheck :: rest =>
      if memory.status side.peer = process.last then some (memory, { process with todo := rest })
      else some (memory, process.throw)
  | .loopWrite :: rest =>
      some (memory.write side statusNameLoopBegin, { process with todo := rest })
  | .loopSpin :: rest =>
      if memory.status side.peer = statusNameLoopBegin then some (memory, process.see rest) else none
  | .loopLast :: rest => some (memory, { process with todo := rest, last := statusNameLoopBegin })
  | .sampleEnd :: rest =>
      if memory.status side.peer = statusSampleEnd then some (memory, process.see rest) else none
  | .nameSpin :: rest =>
      if memory.status side.peer = statusNameBegin ∨ memory.status side.peer = statusShutdown then
        some (memory, process.see rest)
      else none
  | .nameBegin :: rest =>
      if memory.status side.peer = statusNameBegin then some (memory, { process with todo := rest })
      else some (memory, { process with todo := [] })
  | .shutdownCheck :: rest =>
      if memory.status side.peer = statusShutdown then some (memory, process.throw)
      else some (memory, { process with todo := rest })

/-- The process waits for a status of the other side. -/
def Waits (process : Process) : Prop :=
  ∃ rest, process.todo = .waitSpin :: rest ∨ process.todo = .loopSpin :: rest ∨
    process.todo = .sampleEnd :: rest ∨ process.todo = .nameSpin :: rest

/-- The process has returned from all of its calls. -/
def Finished (process : Process) : Prop := process.todo = [] ∧ process.isThrown = false

end Process

def barrier : List Instr := [.arrive, .leave]


/-- `wait`. -/
def wait : List Instr := [.waitCount, .waitSpin, .waitCheck]

namespace Profile

variable (isWriter : Bool)

/-- `step`. -/
def step : List Instr := if isWriter then stepSide .app else []

/-- `loop_begin`. -/
def loopBegin : List Instr := [.loopWrite, .loopSpin, .loopLast]

/-- `init_cpu_affinity`. -/
def initCpuAffinity (numRank : Nat) : List Instr :=
  barrier ++ step isWriter ++ wait ++ (List.replicate numRank barrier).flatten ++ barrier ++
    step isWriter ++ wait

/-- `init_table`. -/
def initTable : List Instr := barrier ++ step isWriter ++ wait

/-- `init_app_status`. -/
def initAppStatus : List Instr := barrier ++ barrier

/-- `init`, from where the control message exists. -/
def init (numRank : Nat) : List Instr :=
  initCpuAffinity isWriter numRank ++ initTable isWriter ++ initAppStatus

/-- The body of the loop of `send_names`, with the collective test. -/
def sendRound : List Instr := barrier ++ loopBegin ++ barrier ++ step isWriter ++ wait

/-- `send_names`, which ends after the first round or after more of them. -/
def sendNames (more : Nat) : List Instr :=
  barrier ++ step isWriter ++ wait ++ (List.replicate (more + 1) (sendRound isWriter)).flatten ++
    barrier ++ step isWriter ++ wait

/-- `shutdown`. -/
def shutdown (more : Nat) : List Instr :=
  barrier ++ step isWriter ++ wait ++ sendNames isWriter more ++ barrier ++ step isWriter

/-- A rank. -/
def program (numRank more : Nat) : List Instr :=
  init isWriter numRank ++ shutdown isWriter more

end Profile

namespace ProfileSampler

/-- `step`. -/
def step : List Instr := stepSide .ctl

/-- `loop_begin`. -/
def loopBegin : List Instr := [.loopSpin, .loopWrite, .loopLast]

/-- `initialize`. -/
def initializeSampler : List Instr := wait ++ step ++ wait ++ step

/-- `controller_ready`. -/
def controllerReady : List Instr := wait ++ step

/-- The body of the loop of `region_names`. -/
def nameRound : List Instr := loopBegin ++ wait ++ step

/-- `region_names`. The names are not all done after the first rounds. -/
def regionNames (more : Nat) : List Instr :=
  step ++ (List.replicate more (nameRound ++ [.shutdownCheck])).flatten ++ nameRound ++
    wait ++ step ++ wait

/-- `check_sample_end`. -/
def checkSampleEnd (more : Nat) : List Instr :=
  [.sampleEnd] ++ step ++ [.nameSpin, .nameBegin] ++ regionNames more

/-- The controller. -/
def program (more : Nat) : List Instr := initializeSampler ++ controllerReady ++ checkSampleEnd more

end ProfileSampler

/-- The shared words and all processes. -/
structure System (numRank : Nat) where
  memory : Memory
  rank : Fin numRank → Process
  controller : Process

inductive Actor (numRank : Nat) where
  | rank (rank : Fin numRank)
  | controller

namespace System

variable {numRank : Nat}

/-- The control message as constructed. The first rank is the writer. -/
def initial (numRank more : Nat) : System numRank where
  memory := ⟨⟨0, 0⟩, ⟨0, 0⟩⟩
  rank rank := .start (Profile.program (rank.val = 0) numRank more)
  controller := .start (ProfileSampler.program more)

/-- All ranks have entered the collective that the rank is in. -/
def Together (system : System numRank) (rank : Fin numRank) : Prop :=
  ∀ other, (system.rank rank).arrived ≤ (system.rank other).arrived

instance (system : System numRank) (rank : Fin numRank) : Decidable (system.Together rank) :=
  inferInstanceAs (Decidable (∀ _, _))

/-- The next instruction of one process. -/
def tryStep (system : System numRank) : Actor numRank → Option (System numRank)
  | .rank rank =>
      ((system.rank rank).exec .app system.memory (system.Together rank)).map
        fun (memory, process) =>
          { system with memory, rank := Function.update system.rank rank process }
  | .controller =>
      (system.controller.exec .ctl system.memory False).map
        fun (memory, controller) => { system with memory, controller }

/-- A process that has to try again leaves everything as it is. -/
def step (system : System numRank) (actor : Actor numRank) : System numRank :=
  (system.tryStep actor).getD system

/-- All processes have returned. -/
def Finished (system : System numRank) : Prop :=
  (∀ rank, (system.rank rank).Finished) ∧ system.controller.Finished

end System

end Geopm.Handshake
