import Geopm.Handshake.RankStep

namespace Geopm.Handshake

/-! What one instruction of the controller does. -/

theorem ControllerStage.rest_initial (more exchange : Nat) :
    (ControllerStage.initial more exchange).rest more exchange =
      ProfileSampler.exchangeProgram more exchange := by
  unfold ControllerStage.initial ProfileSampler.exchangeProgram
  split_ifs with sample name loop first round last
  · rfl
  · rfl
  · rfl
  · rfl
  · rfl
  · simp [ControllerStage.rest, ControllerStage.increment, last]
  · simp [ControllerStage.rest, ControllerStage.increment, last]

theorem ControllerStage.initial_of_wait {more exchange : Nat}
    (waits : ControllerStage.IsWait more exchange) : ControllerStage.initial more exchange =
      if 6 ≤ exchange ∧ exchange ≤ 2 * more + 7 then .setting else .counting := by
  unfold ControllerStage.initial
  obtain early | ⟨later, other⟩ := waits
  · rw [if_neg (by omega), if_neg (by omega), if_neg (by unfold IsLoop; omega)]
  · rw [if_neg (by omega), if_neg (by omega), if_neg other]

theorem ControllerStage.initial_fits (more exchange : Nat) :
    (ControllerStage.initial more exchange).Fits more exchange ∧
      ¬ (ControllerStage.initial more exchange).IsSeen ∧
      ControllerStage.initial more exchange ≠ .storing := by
  unfold ControllerStage.initial
  split_ifs with sample name loop begins round
  · exact ⟨sample, id, by simp⟩
  · exact ⟨name, id, by simp⟩
  · exact ⟨loop, id, by simp⟩
  · exact ⟨⟨loop, begins⟩, id, by simp⟩
  · exact ⟨⟨.inr ⟨round.1, loop⟩, round⟩, id, by simp⟩
  · refine ⟨?_, id, by simp⟩
    unfold Fits IsWait
    by_cases early : exchange < 4
    · exact .inl early
    · exact .inr ⟨by omega, loop⟩

theorem IsLoop.not_wait {more exchange : Nat} (loop : IsLoop more exchange) :
    ¬ ControllerStage.IsWait more exchange := by
  rintro (early | ⟨_, other⟩)
  · exact absurd loop.1 (by omega)
  · exact other loop

theorem ControllerStage.IsWait.not_loop {more exchange : Nat}
    (waits : ControllerStage.IsWait more exchange) : ¬ IsLoop more exchange :=
  fun loop => loop.not_wait waits

namespace ControllerAt

variable {more app ctl exchange : Nat} {process : Process} {stage : ControllerStage}
  {memory : Memory}

/-- The application goes on to the status that the controller waits for. -/
theorem publish {other : Nat} (here : ControllerAt more app ctl process exchange stage)
    (next : app + 1 = other) (within : other ≤ ctl + 1) :
    ControllerAt more other ctl process exchange stage := by
  have turn := here.turn
  have ahead := here.ahead
  exact { here with
    ahead := by omega
    seen := fun seen => by
      have reached := here.seen seen
      omega }

/-- The controller stays in its exchange. -/
theorem advance {after : Process} {next : ControllerStage}
    (here : ControllerAt more app ctl process exchange stage)
    (todo : after.todo = next.rest more exchange ++
      ProfileSampler.programFrom more (exchange + 1))
    (isThrown : after.isThrown = false) (fits : next.Fits more exchange)
    (seen : next.IsSeen → app = exchange)
    (last : ControllerStage.IsWait more exchange → next ≠ .setting → after.last =
      if next = .counting then statusAt more (exchange - 1) else statusAt more exchange)
    (loaded : next = .storing → after.loaded = statusAt more (exchange - 1))
    (awaited : after.awaited = if next.IsSeen then exchange else exchange - 1) :
    ControllerAt more app ctl after exchange next :=
  ⟨todo, isThrown, here.last_le, fits, here.turn, here.ahead, seen, last, loaded, awaited⟩

/-- An exchange ends when the controller publishes its status. -/
theorem next {after : Process} (here : ControllerAt more app ctl process exchange stage)
    (seen : stage.IsSeen) (inner : exchange ≠ numExchange more) (stored : stage ≠ .counting)
    (entered : stage ≠ .setting)
    (todo : after.todo = ProfileSampler.programFrom more (exchange + 1))
    (isThrown : after.isThrown = false) (last : after.last = process.last)
    (awaited : after.awaited = process.awaited) :
    ControllerAt more app exchange after (exchange + 1)
      (ControllerStage.initial more (exchange + 1)) := by
  obtain ⟨fits, unseen, other⟩ :=
    ControllerStage.initial_fits more (exchange + 1)
  have last_le := here.last_le
  have reached := here.seen seen
  have known := here.awaited
  rw [if_pos seen] at known
  refine ⟨?_, isThrown, by omega, fits, rfl, by omega, fun seen => absurd seen unseen, ?_,
    fun storing => absurd storing other, ?_⟩
  · rw [todo, ProfileSampler.programFrom_succ (by omega), ControllerStage.rest_initial]
  · intro waits setting
    have stage := ControllerStage.initial_of_wait waits
    by_cases round : 6 ≤ exchange + 1 ∧ exchange + 1 ≤ 2 * more + 7
    · rw [if_pos round] at stage
      exact absurd stage setting
    · have before : ControllerStage.IsWait more exchange := by
        unfold ControllerStage.IsWait IsLoop at waits ⊢
        omega
      rw [if_neg round] at stage
      rw [last, here.last before entered, if_neg stored, if_pos stage]
      rfl
  · rw [if_neg unseen, awaited, known]
    rfl

/-- The controller sees the status of the application. -/
theorem see {tail : List Instr} {after : ControllerStage}
    (here : ControllerAt more app ctl process exchange stage) (reached : app = exchange)
    (waiting : ¬ stage.IsSeen) (seen : after.IsSeen)
    (todo : tail = after.rest more exchange ++ ProfileSampler.programFrom more (exchange + 1))
    (fits : after.Fits more exchange)
    (last : ControllerStage.IsWait more exchange → process.last = statusAt more exchange)
    (unstored : after ≠ .storing) :
    ControllerAt more app ctl (process.see tail) exchange after := by
  have turn := here.turn
  have known := here.awaited
  rw [if_neg waiting] at known
  refine here.advance todo here.isThrown fits (fun _ => reached) ?_
    (fun storing => absurd storing unstored) ?_
  · intro waits _
    rw [if_neg (by rintro rfl; exact seen)]
    exact last waits
  · rw [if_pos seen, Process.see, known]
    simp only
    omega

theorem guard {tail : List Instr} (here : ControllerAt more app ctl process exchange .guarding)
    (todo : process.todo = .shutdownCheck :: tail) :
    ControllerAt more app ctl { process with todo := tail } exchange .awaiting := by
  obtain ⟨loop, _⟩ := here.fits
  have whole := here.todo
  rw [todo] at whole
  exact here.advance (List.cons.inj whole).2 here.isThrown loop False.elim
    (fun waits => absurd waits loop.not_wait) (by simp) here.awaited

/-- The status of a loop is the last one, before the next is awaited. -/
theorem setLast {tail : List Instr} (here : ControllerAt more app ctl process exchange .setting)
    (todo : process.todo = .loopLast :: tail) :
    ControllerAt more app ctl { process with todo := tail, last := statusNameLoopBegin } exchange
      .counting := by
  obtain ⟨waits, later, round⟩ := here.fits
  have other := waits.not_loop
  have loop : IsLoop more (exchange - 1) := by
    unfold IsLoop at other ⊢
    omega
  have inner : exchange ≠ numExchange more := by unfold numExchange; omega
  have whole := here.todo
  rw [todo, ControllerStage.rest] at whole
  refine here.advance ?_ here.isThrown waits False.elim (fun _ _ => (statusAt_loop loop).symm)
    (by simp) here.awaited
  rw [ControllerStage.rest, ControllerStage.increment, if_neg inner]
  exact (List.cons.inj whole).2

theorem count {tail : List Instr} (here : ControllerAt more app ctl process exchange .counting)
    (todo : process.todo = .waitCount :: tail) :
    ControllerAt more app ctl { process with todo := tail, last := statusAt more exchange } exchange
      .spinning := by
  have whole := here.todo
  rw [todo] at whole
  exact here.advance (List.cons.inj whole).2 here.isThrown here.fits False.elim (fun _ _ => rfl)
    (by simp) here.awaited

theorem spin {tail : List Instr} (here : ControllerAt more app ctl process exchange .spinning)
    (todo : process.todo = .waitSpin :: tail) (reached : app = exchange) :
    ControllerAt more app ctl (process.see tail) exchange .rechecking := by
  have whole := here.todo
  rw [todo] at whole
  exact here.see reached id trivial (List.cons.inj whole).2 here.fits
    (fun waits => here.last waits (by simp)) (by simp)

/-- Then it publishes the same status, unless it was the last. -/
theorem recheck {tail : List Instr} (here : ControllerAt more app ctl process exchange .rechecking)
    (todo : process.todo = .waitCheck :: tail) :
    ∃ next, ControllerAt more app ctl { process with todo := tail } exchange next := by
  have waits : ControllerStage.IsWait more exchange := here.fits
  have reached := here.seen trivial
  have expected : process.last = statusAt more exchange := here.last waits (by simp)
  have whole := here.todo
  rw [todo, ControllerStage.rest, ControllerStage.increment] at whole
  by_cases final : exchange = numExchange more
  · rw [if_pos final] at whole
    exact ⟨.finished, here.advance (List.cons.inj whole).2 here.isThrown final (fun _ => reached)
      (fun _ _ => expected) (by simp) here.awaited⟩
  · rw [if_neg final] at whole
    exact ⟨.checking, here.advance (List.cons.inj whole).2 here.isThrown ⟨waits.not_loop, final⟩
      (fun _ => reached) (fun _ _ => expected) (by simp) here.awaited⟩

theorem poll {tail : List Instr} (here : ControllerAt more app ctl process exchange .polling)
    (todo : process.todo = .sampleEnd :: tail) (reached : app = exchange) :
    ControllerAt more app ctl (process.see tail) exchange .checking := by
  have fourth : exchange = 4 := here.fits
  have whole := here.todo
  rw [todo] at whole
  exact here.see reached id trivial (List.cons.inj whole).2
    ⟨by unfold IsLoop; omega, by unfold numExchange; omega⟩
    (fun waits => absurd waits (by unfold ControllerStage.IsWait; omega)) (by simp)

theorem awaitName {tail : List Instr} (here : ControllerAt more app ctl process exchange .naming)
    (todo : process.todo = .nameSpin :: tail) (reached : app = exchange) :
    ControllerAt more app ctl (process.see tail) exchange .branching := by
  have fifth : exchange = 5 := here.fits
  have whole := here.todo
  rw [todo] at whole
  exact here.see reached id trivial (List.cons.inj whole).2 fifth
    (fun waits => absurd waits (by unfold ControllerStage.IsWait IsLoop; omega)) (by simp)

theorem branch {tail : List Instr} (here : ControllerAt more app ctl process exchange .branching)
    (todo : process.todo = .nameBegin :: tail) :
    ControllerAt more app ctl { process with todo := tail } exchange .checking := by
  have fifth : exchange = 5 := here.fits
  have whole := here.todo
  rw [todo] at whole
  exact here.advance (List.cons.inj whole).2 here.isThrown
    ⟨by unfold IsLoop; omega, by unfold numExchange; omega⟩ (fun _ => here.seen trivial)
    (fun waits => absurd waits (by unfold ControllerStage.IsWait; omega)) (by simp) here.awaited

theorem awaitLoop {tail : List Instr} (here : ControllerAt more app ctl process exchange .awaiting)
    (todo : process.todo = .loopSpin :: tail) (reached : app = exchange) :
    ControllerAt more app ctl (process.see tail) exchange .beginning := by
  have loop : IsLoop more exchange := here.fits
  have whole := here.todo
  rw [todo] at whole
  exact here.see reached id trivial (List.cons.inj whole).2 loop
    (fun waits => absurd waits loop.not_wait) (by simp)

theorem beginLoop {tail : List Instr} (here : ControllerAt more app ctl process exchange .beginning)
    (todo : process.todo = .loopWrite :: tail) :
    ControllerAt more app exchange { process with todo := tail } (exchange + 1)
      (ControllerStage.initial more (exchange + 1)) := by
  have loop : IsLoop more exchange := here.fits
  have bound := loop.2.1
  have whole := here.todo
  rw [todo] at whole
  exact here.next trivial (by unfold numExchange; omega) (by simp) (by simp)
    (List.cons.inj whole).2 here.isThrown rfl rfl

/-- The increment, up to its last write. -/
theorem check {tail : List Instr} (here : ControllerAt more app ctl process exchange .checking)
    (todo : process.todo = .stepCheck .ctl :: tail) :
    ControllerAt more app ctl { process with todo := tail } exchange .loading := by
  have whole := here.todo
  rw [todo] at whole
  exact here.advance (List.cons.inj whole).2 here.isThrown here.fits (fun _ => here.seen trivial)
    (fun waits _ => here.last waits (by simp)) (by simp) here.awaited

theorem load {tail : List Instr} (here : ControllerAt more app ctl process exchange .loading)
    (todo : process.todo = .stepLoad .ctl :: tail) :
    ControllerAt more app ctl { process with todo := tail, loaded := statusAt more ctl } exchange
      .storing := by
  have whole := here.todo
  rw [todo] at whole
  refine here.advance (List.cons.inj whole).2 here.isThrown here.fits (fun _ => here.seen trivial)
    (fun waits _ => here.last waits (by simp)) (fun _ => ?_) here.awaited
  rw [← here.turn, Nat.add_sub_cancel]

theorem store {tail : List Instr} (here : ControllerAt more app ctl process exchange .storing)
    (todo : process.todo = .stepStore .ctl :: tail) :
    ControllerAt more app exchange { process with todo := tail } (exchange + 1)
      (ControllerStage.initial more (exchange + 1)) := by
  have whole := here.todo
  rw [todo] at whole
  exact here.next trivial here.fits.2 (by simp) (by simp) (List.cons.inj whole).2 here.isThrown rfl
    rfl

/-- The status of the application is that of the exchange only when it was published. -/
theorem app_eq_iff (here : ControllerAt more app ctl process exchange stage) (ordered : ctl ≤ app) :
    statusAt more app = statusAt more exchange ↔ app = exchange := by
  have turn := here.turn
  have ahead := here.ahead
  constructor
  · intro same
    by_contra before
    obtain rfl : exchange = app + 1 := by omega
    exact statusAt_ne app same.symm
  · rintro rfl
    rfl

end ControllerAt

/-- What an instruction of the controller leaves: the memory as it is, or the next status. -/
inductive ControllerResult (more : Nat) (memory : Memory) : Memory → Process → Prop where
  | unchanged {after : Process} (exchange : Nat) (stage : ControllerStage)
      (here : ControllerAt more memory.app.changes memory.ctl.changes after exchange stage) :
      ControllerResult more memory memory after
  | publish {after : Process} {exchange next : Nat} {stage : ControllerStage}
      (status : memory.ctl.changes + 1 = exchange) (reached : memory.app.changes = exchange)
      (here : ControllerAt more memory.app.changes exchange after next stage) :
      ControllerResult more memory
        { memory with ctl := ⟨statusAt more exchange, exchange⟩ } after

section

variable {more exchange : Nat} {process after : Process} {stage : ControllerStage}
  {memory last : Memory} {together : Prop} [Decidable together]

/-- A controller that waits goes on when the application has published the status. -/
theorem ControllerAt.exec_spinning {tail : List Instr}
    (here : ControllerAt more memory.app.changes memory.ctl.changes process exchange .spinning)
    (holds : memory.Holds more) (todo : process.todo = .waitSpin :: tail) :
    process.exec .ctl memory together =
      if memory.app.changes = exchange then some (memory, process.see tail) else none := by
  have value : memory.status Side.ctl.peer = statusAt more memory.app.changes := holds.app
  have expected : process.last = statusAt more exchange := here.last here.fits (by simp)
  have ahead := here.ahead
  have last_le := here.last_le
  have alive : statusAt more memory.app.changes ≠ statusAbort := statusAt_ne_abort (by omega)
  simp only [Process.exec, todo, value, expected, here.app_eq_iff holds.behind, if_neg alive]

theorem ControllerAt.exec_polling {tail : List Instr}
    (here : ControllerAt more memory.app.changes memory.ctl.changes process exchange .polling)
    (holds : memory.Holds more) (todo : process.todo = .sampleEnd :: tail) :
    process.exec .ctl memory together =
      if memory.app.changes = exchange then some (memory, process.see tail) else none := by
  obtain rfl : exchange = 4 := here.fits
  have same : memory.status Side.ctl.peer = statusSampleEnd ↔ memory.app.changes = 4 := by
    rw [show memory.status Side.ctl.peer = statusAt more memory.app.changes from holds.app,
      ← here.app_eq_iff holds.behind]
    rfl
  simp only [Process.exec, todo, same]

theorem ControllerAt.exec_naming {tail : List Instr}
    (here : ControllerAt more memory.app.changes memory.ctl.changes process exchange .naming)
    (holds : memory.Holds more) (todo : process.todo = .nameSpin :: tail) :
    process.exec .ctl memory together =
      if memory.app.changes = exchange then some (memory, process.see tail) else none := by
  obtain rfl : exchange = 5 := here.fits
  have value : memory.status Side.ctl.peer = statusAt more memory.app.changes := holds.app
  have ahead := here.ahead
  have same : memory.status Side.ctl.peer = statusNameBegin ↔ memory.app.changes = 5 := by
    rw [value, ← here.app_eq_iff holds.behind]
    rfl
  have running : memory.status Side.ctl.peer ≠ statusShutdown := by
    rw [value]
    exact (statusAt_lt (by unfold numExchange; omega)).ne
  simp only [Process.exec, todo, same, running, or_false]

theorem ControllerAt.exec_awaiting {tail : List Instr}
    (here : ControllerAt more memory.app.changes memory.ctl.changes process exchange .awaiting)
    (holds : memory.Holds more) (todo : process.todo = .loopSpin :: tail) :
    process.exec .ctl memory together =
      if memory.app.changes = exchange then some (memory, process.see tail) else none := by
  have value : memory.status Side.ctl.peer = statusAt more memory.app.changes := holds.app
  have loop : IsLoop more exchange := here.fits
  simp only [Process.exec, todo, value, ← statusAt_loop loop, here.app_eq_iff holds.behind]

theorem ControllerAt.exec
    (here : ControllerAt more memory.app.changes memory.ctl.changes process exchange stage)
    (holds : memory.Holds more)
    (done : process.exec .ctl memory together = some (last, after)) :
    ControllerResult more memory last after := by
  have value : memory.status Side.ctl.peer = statusAt more memory.app.changes := holds.app
  have own : memory.status .ctl = statusAt more memory.ctl.changes := holds.ctl
  have turn := here.turn
  have last_le := here.last_le
  cases stage with
  | guarding =>
      obtain ⟨tail, todo⟩ : ∃ tail, process.todo = .shutdownCheck :: tail := ⟨_, here.todo⟩
      have running : memory.status Side.ctl.peer ≠ statusShutdown := by
        have bound := here.fits.1.2.1
        have ahead := here.ahead
        rw [value]
        exact (statusAt_lt (by unfold numExchange; omega)).ne
      simp only [Process.exec, todo, if_neg running, Option.some.injEq, Prod.mk.injEq] at done
      obtain ⟨rfl, rfl⟩ := done
      exact .unchanged _ _ (here.guard todo)
  | setting =>
      obtain ⟨tail, todo⟩ : ∃ tail, process.todo = .loopLast :: tail := ⟨_, here.todo⟩
      simp only [Process.exec, todo, Option.some.injEq, Prod.mk.injEq] at done
      obtain ⟨rfl, rfl⟩ := done
      exact .unchanged _ _ (here.setLast todo)
  | counting =>
      obtain ⟨tail, todo⟩ : ∃ tail, process.todo = .waitCount :: tail := ⟨_, here.todo⟩
      have waits : ControllerStage.IsWait more exchange := here.fits
      have before : process.last = statusAt more (exchange - 1) := here.last waits (by simp)
      have below : process.last ≠ statusShutdown := before ▸ (statusAt_lt (by omega)).ne
      have next : process.last + 1 = statusAt more exchange := by
        rw [before, ← turn, Nat.add_sub_cancel, statusAt_step (turn ▸ waits.not_loop)]
      simp only [Process.exec, todo, if_pos below, next, Option.some.injEq, Prod.mk.injEq] at done
      obtain ⟨rfl, rfl⟩ := done
      exact .unchanged _ _ (here.count todo)
  | spinning =>
      obtain ⟨tail, todo⟩ : ∃ tail, process.todo = .waitSpin :: tail := ⟨_, here.todo⟩
      rw [here.exec_spinning holds todo] at done
      split at done
      · simp only [Option.some.injEq, Prod.mk.injEq] at done
        obtain ⟨rfl, rfl⟩ := done
        exact .unchanged _ _ (here.spin todo ‹_›)
      · simp at done
  | rechecking =>
      obtain ⟨tail, todo⟩ : ∃ tail, process.todo = .waitCheck :: tail := ⟨_, here.todo⟩
      have expected : process.last = statusAt more exchange := here.last here.fits (by simp)
      have same : memory.status Side.ctl.peer = process.last := by
        rw [value, expected, here.seen trivial]
      simp only [Process.exec, todo, if_pos same, Option.some.injEq, Prod.mk.injEq] at done
      obtain ⟨rfl, rfl⟩ := done
      obtain ⟨next, there⟩ := here.recheck todo
      exact .unchanged _ _ there
  | polling =>
      obtain ⟨tail, todo⟩ : ∃ tail, process.todo = .sampleEnd :: tail := ⟨_, here.todo⟩
      rw [here.exec_polling holds todo] at done
      split at done
      · simp only [Option.some.injEq, Prod.mk.injEq] at done
        obtain ⟨rfl, rfl⟩ := done
        exact .unchanged _ _ (here.poll todo ‹_›)
      · simp at done
  | naming =>
      obtain ⟨tail, todo⟩ : ∃ tail, process.todo = .nameSpin :: tail := ⟨_, here.todo⟩
      rw [here.exec_naming holds todo] at done
      split at done
      · simp only [Option.some.injEq, Prod.mk.injEq] at done
        obtain ⟨rfl, rfl⟩ := done
        exact .unchanged _ _ (here.awaitName todo ‹_›)
      · simp at done
  | branching =>
      obtain ⟨tail, todo⟩ : ∃ tail, process.todo = .nameBegin :: tail := ⟨_, here.todo⟩
      have fifth : exchange = 5 := here.fits
      have same : memory.status Side.ctl.peer = statusNameBegin := by
        rw [value, here.seen trivial, fifth]
        rfl
      simp only [Process.exec, todo, if_pos same, Option.some.injEq, Prod.mk.injEq] at done
      obtain ⟨rfl, rfl⟩ := done
      exact .unchanged _ _ (here.branch todo)
  | awaiting =>
      obtain ⟨tail, todo⟩ : ∃ tail, process.todo = .loopSpin :: tail := ⟨_, here.todo⟩
      rw [here.exec_awaiting holds todo] at done
      split at done
      · simp only [Option.some.injEq, Prod.mk.injEq] at done
        obtain ⟨rfl, rfl⟩ := done
        exact .unchanged _ _ (here.awaitLoop todo ‹_›)
      · simp at done
  | beginning =>
      obtain ⟨tail, todo⟩ : ∃ tail, process.todo = .loopWrite :: tail := ⟨_, here.todo⟩
      have loop : IsLoop more exchange := here.fits
      simp only [Process.exec, todo, Memory.write, ← statusAt_loop loop, ← turn,
        Word.write_next holds.ctl, Option.some.injEq, Prod.mk.injEq] at done
      obtain ⟨rfl, rfl⟩ := done
      rw [turn]
      exact .publish turn (here.seen trivial) (here.beginLoop todo)
  | checking =>
      obtain ⟨tail, todo⟩ : ∃ tail, process.todo = .stepCheck .ctl :: tail := ⟨_, here.todo⟩
      have running : memory.status .ctl ≠ statusShutdown := by
        rw [own]
        exact (statusAt_lt (by omega)).ne
      simp only [Process.exec, todo, if_pos running, Option.some.injEq, Prod.mk.injEq] at done
      obtain ⟨rfl, rfl⟩ := done
      exact .unchanged _ _ (here.check todo)
  | loading =>
      obtain ⟨tail, todo⟩ : ∃ tail, process.todo = .stepLoad .ctl :: tail := ⟨_, here.todo⟩
      simp only [Process.exec, todo, own, Option.some.injEq, Prod.mk.injEq] at done
      obtain ⟨rfl, rfl⟩ := done
      exact .unchanged _ _ (here.load todo)
  | storing =>
      obtain ⟨tail, todo⟩ : ∃ tail, process.todo = .stepStore .ctl :: tail := ⟨_, here.todo⟩
      obtain ⟨other, inner⟩ := here.fits
      have next : process.loaded + 1 = statusAt more (memory.ctl.changes + 1) := by
        rw [here.loaded rfl, ← turn, Nat.add_sub_cancel, statusAt_step (turn ▸ other)]
      simp only [Process.exec, todo, next, Memory.write, Word.write_next holds.ctl,
        Option.some.injEq, Prod.mk.injEq] at done
      obtain ⟨rfl, rfl⟩ := done
      rw [turn]
      exact .publish turn (here.seen trivial) (here.store todo)
  | finished =>
      have todo : process.todo = [] := by
        rw [here.todo, show exchange = numExchange more from here.fits,
          ProfileSampler.programFrom_end]
        rfl
      simp [Process.exec, todo] at done

end

end Geopm.Handshake
