import Geopm.Handshake.Invariant

namespace Geopm.Handshake

/-! What one instruction of a rank does. -/

/-- The words hold the last statuses that were published. -/
structure Memory.Holds (more : Nat) (memory : Memory) : Prop where
  app : memory.app.value = statusAt more memory.app.changes
  ctl : memory.ctl.value = statusAt more memory.ctl.changes
  behind : memory.ctl.changes ≤ memory.app.changes

/-- The next status is another one, so the word changes. -/
theorem Word.write_next {more : Nat} {word : Word} (holds : word.value = statusAt more word.changes) :
    word.write (statusAt more (word.changes + 1)) =
      ⟨statusAt more (word.changes + 1), word.changes + 1⟩ := by
  rw [Word.write, holds, if_neg (statusAt_ne word.changes)]

/-- The same status again is no change. -/
theorem Word.write_same {more : Nat} {word : Word} (holds : word.value = statusAt more word.changes) :
    word.write (statusAt more word.changes) = word := by
  rw [Word.write, holds, if_pos rfl]

namespace RankAt

variable {numRank more app ctl exchange left : Nat} {arrived later : Fin numRank → Nat}
  {isWriter : Bool} {process : Process} {stage : RankStage} {memory : Memory}

/-- The other ranks and the controller go on. -/
theorem mono {ctlLater : Nat} (here : RankAt more app ctl arrived isWriter process exchange stage)
    (grown : ∀ other, arrived other ≤ later other) (published : ctl ≤ ctlLater) :
    RankAt more app ctlLater later isWriter process exchange stage :=
  { here with
    behind := here.behind.trans (by omega)
    together := fun past other => (here.together past other).trans (grown other)
    seen := fun seen => (here.seen seen).trans published }

/-- A rank that has not left the collectives of an exchange has not passed it. -/
theorem le_of_arrived {other : Nat}
    (here : RankAt more app ctl arrived isWriter process exchange stage)
    (first : 1 ≤ other) (reached : entered numRank (other + 1) ≤ process.arrived) :
    other ≤ exchange := by
  by_contra beyond
  have arrivals := here.arrivals
  have before := @entered_mono numRank (exchange + 1) other (by omega)
  have later := @entered_lt numRank other first
  omega

/-- Another process of the application publishes the status of an exchange. -/
theorem publish {other : Nat}
    (here : RankAt more app ctl arrived isWriter process exchange stage)
    (next : app + 1 = other) (first : 1 ≤ other)
    (reached : entered numRank (other + 1) ≤ process.arrived) (behind : ctl ≤ app)
    (kind : isWriter = true → IsLoop more other) :
    RankAt more other ctl arrived isWriter process exchange stage := by
  have passed := here.le_of_arrived first reached
  have turn := here.behind
  obtain rfl : exchange = other := by omega
  refine { here with ahead := le_refl _, unpublished := ?_, published := fun _ _ => rfl }
  intro _ writes step
  exact absurd (kind writes) step

/-- The rank stays in its exchange and the memory as it is. -/
theorem advance {after : Process} {next : RankStage}
    (here : RankAt more app ctl arrived isWriter process exchange stage)
    (todo : after.todo = next.rest isWriter more exchange ++
      Profile.programFrom isWriter numRank more (exchange + 1))
    (isThrown : after.isThrown = false)
    (fits : next.Fits isWriter more exchange)
    (arrivals : after.arrived + next.left = process.arrived + stage.left)
    (together : next.phase ≠ .entering →
      ∀ other, entered numRank (exchange + 1) ≤ arrived other)
    (unpublished : next.phase = .entering ∨ next.phase = .publishing →
      stage.phase = .entering ∨ stage.phase = .publishing)
    (published : next.phase = .waiting ∨ next.phase = .seen →
      isWriter = true ∨ IsLoop more exchange → app = exchange)
    (seen : next.phase = .seen → exchange ≤ ctl)
    (last : after.last =
      if next.IsCounted then statusAt more exchange else statusAt more (exchange - 1))
    (loaded : next = .storing → after.loaded = statusAt more (exchange - 1))
    (awaited : after.awaited = if next.phase = .seen then exchange else exchange - 1) :
    RankAt more app ctl arrived isWriter after exchange next where
  todo := todo
  isThrown := isThrown
  first := here.first
  last_le := here.last_le
  fits := fits
  behind := here.behind
  ahead := here.ahead
  arrivals := arrivals.trans here.arrivals
  together := together
  unpublished := fun before => here.unpublished (unpublished before)
  published := published
  seen := seen
  last := last
  loaded := loaded
  awaited := awaited

/-- After the collectives the rank publishes its status. -/
theorem rest_published (isWriter : Bool) (more exchange : Nat) :
    (RankStage.published isWriter more exchange).rest isWriter more exchange =
      Profile.publish isWriter more exchange := by
  unfold RankStage.published Profile.publish Profile.await Profile.step
  by_cases loop : IsLoop more exchange
  · rw [if_pos loop, if_pos loop]
    rfl
  · rw [if_neg loop, if_neg loop]
    cases isWriter with
    | true => rfl
    | false =>
        by_cases last : exchange = numExchange more
        · simp [last, RankStage.rest]
        · simp [last, RankStage.rest]

theorem published_fits (isWriter : Bool) (more exchange : Nat) :
    (RankStage.published isWriter more exchange).Fits isWriter more exchange ∧
      (RankStage.published isWriter more exchange).left = 0 ∧
      ¬ (RankStage.published isWriter more exchange).IsCounted ∧
      RankStage.published isWriter more exchange ≠ .storing ∧
      ((RankStage.published isWriter more exchange).phase = .publishing ∨
        (RankStage.published isWriter more exchange).phase = .waiting ∧ isWriter = false ∧
          ¬ IsLoop more exchange) := by
  unfold RankStage.published
  split_ifs with loop writer last
  · exact ⟨loop, rfl, id, by simp, .inl rfl⟩
  · exact ⟨⟨writer, loop⟩, rfl, id, by simp, .inl rfl⟩
  · exact ⟨last, rfl, id, by simp, .inr ⟨rfl, by simpa using writer, loop⟩⟩
  · exact ⟨⟨loop, last⟩, rfl, id, by simp, .inr ⟨rfl, by simpa using writer, loop⟩⟩

theorem enter {tail : List Instr}
    (here : RankAt more app ctl arrived isWriter process exchange (.arriving left))
    (todo : process.todo = .arrive :: tail) :
    RankAt more app ctl arrived isWriter
      { process with todo := tail, arrived := process.arrived + 1 } exchange (.leaving left) := by
  have whole := here.todo
  rw [todo, RankStage.rest, List.replicate_succ, List.flatten_cons] at whole
  refine here.advance (List.cons.inj whole).2 here.isThrown trivial ?_ (by simp [RankStage.phase])
    (fun _ => .inl rfl) (by simp [RankStage.phase]) (by simp [RankStage.phase]) here.last (by simp)
    here.awaited
  simp only [RankStage.left]
  omega

theorem leave {tail : List Instr}
    (here : RankAt more app ctl arrived isWriter process exchange (.leaving left))
    (todo : process.todo = .leave :: tail)
    (together : ∀ other, process.arrived ≤ arrived other) :
    ∃ next, RankAt more app ctl arrived isWriter { process with todo := tail } exchange next := by
  have whole := here.todo
  rw [todo, RankStage.rest] at whole
  have rest := (List.cons.inj whole).2
  cases left with
  | succ left =>
      refine ⟨.arriving left, here.advance rest here.isThrown trivial rfl (by simp [RankStage.phase])
        (fun _ => .inl rfl) (by simp [RankStage.phase]) (by simp [RankStage.phase]) here.last
        (by simp) here.awaited⟩
  | zero =>
      obtain ⟨fits, left, counted, storing, phase⟩ := published_fits isWriter more exchange
      have arrivals : process.arrived = entered numRank (exchange + 1) := here.arrivals
      have waits : (RankStage.published isWriter more exchange).phase = .waiting →
          isWriter = false ∧ ¬ IsLoop more exchange := by
        intro waiting
        obtain publishing | both := phase
        · simp [publishing] at waiting
        · exact both.2
      have unseen : (RankStage.published isWriter more exchange).phase ≠ .seen := by
        obtain publishing | both := phase
        · simp [publishing]
        · simp [both.1]
      refine ⟨RankStage.published isWriter more exchange, here.advance ?_ here.isThrown fits ?_
        (fun _ other => arrivals ▸ together other) ?_ ?_ (fun seen => absurd seen unseen) ?_
        (fun stored => absurd stored storing) ?_⟩
      · rw [rest_published]
        exact rest
      · rw [left]
        rfl
      · intro _
        exact .inl rfl
      · rintro (waiting | seen) kind
        · obtain ⟨other, step⟩ := waits waiting
          simp [other, step] at kind
        · exact absurd seen unseen
      · rw [if_neg counted]
        exact here.last
      · rw [if_neg unseen]
        exact here.awaited

/-- The increment of the writer, up to its last write. -/
theorem check {tail : List Instr}
    (here : RankAt more app ctl arrived isWriter process exchange .checking)
    (todo : process.todo = .stepCheck .app :: tail) :
    RankAt more app ctl arrived isWriter { process with todo := tail } exchange .loading := by
  have whole := here.todo
  rw [todo] at whole
  exact here.advance (List.cons.inj whole).2 here.isThrown here.fits rfl
    (fun _ => here.together (by simp [RankStage.phase])) (fun _ => .inr rfl)
    (by simp [RankStage.phase]) (by simp [RankStage.phase]) here.last (by simp) here.awaited

theorem load {tail : List Instr}
    (here : RankAt more app ctl arrived isWriter process exchange .loading)
    (todo : process.todo = .stepLoad .app :: tail) :
    RankAt more app ctl arrived isWriter
      { process with todo := tail, loaded := statusAt more app } exchange .storing := by
  have whole := here.todo
  rw [todo] at whole
  refine here.advance (List.cons.inj whole).2 here.isThrown here.fits rfl
    (fun _ => here.together (by simp [RankStage.phase])) (fun _ => .inr rfl)
    (by simp [RankStage.phase]) (by simp [RankStage.phase]) here.last ?_ here.awaited
  intro _
  have before := here.unpublished (.inr rfl) here.fits.1 here.fits.2
  rw [← before, Nat.add_sub_cancel]

/-- Then it waits, unless it has shut down. -/
theorem store {tail : List Instr}
    (here : RankAt more app ctl arrived isWriter process exchange .storing)
    (todo : process.todo = .stepStore .app :: tail) :
    ∃ next, RankAt more exchange ctl arrived isWriter { process with todo := tail } exchange next := by
  have whole := here.todo
  rw [todo] at whole
  have rest := (List.cons.inj whole).2
  have together := here.together (by simp [RankStage.phase])
  by_cases last : exchange = numExchange more
  · refine ⟨.finished, { here with
      todo := ?_, fits := last, ahead := le_refl _, together := fun _ => together
      unpublished := by simp [RankStage.phase], published := fun _ _ => rfl
      seen := by simp [RankStage.phase], loaded := by simp }⟩
    rw [rest, Profile.await, if_pos last]
    rfl
  · refine ⟨.counting, { here with
      todo := ?_, fits := ⟨here.fits.2, last⟩, ahead := le_refl _, together := fun _ => together
      unpublished := by simp [RankStage.phase], published := fun _ _ => rfl
      seen := by simp [RankStage.phase], loaded := by simp }⟩
    rw [rest, Profile.await, if_neg last]
    rfl

/-- An exchange ends when the status of the controller was seen. -/
theorem next {after : Process}
    (here : RankAt more app ctl arrived isWriter process exchange stage)
    (ordered : ctl ≤ app) (seen : stage.phase = .seen) (inner : exchange ≠ numExchange more)
    (todo : after.todo = Profile.programFrom isWriter numRank more (exchange + 1))
    (isThrown : after.isThrown = false) (arrivals : after.arrived = process.arrived)
    (none : stage.left = 0) (last : after.last = statusAt more exchange)
    (awaited : after.awaited = process.awaited) :
    RankAt more app ctl arrived isWriter after (exchange + 1)
      (.arriving (collectives numRank (exchange + 1) - 1)) := by
  have behind := here.seen seen
  have ahead := here.ahead
  have last_le := here.last_le
  have collective := collectives_pos numRank (exchange + 1)
  have counted := here.arrivals
  have known := here.awaited
  rw [if_pos seen] at known
  refine ⟨?_, isThrown, by omega, by omega, trivial, by omega, by omega, ?_,
    by simp [RankStage.phase], fun _ _ _ => by omega, by simp [RankStage.phase],
    by simp [RankStage.phase], last, by simp, awaited.trans known⟩
  · rw [todo, Profile.programFrom_succ (by omega), Profile.exchangeProgram, RankStage.rest,
      Nat.sub_add_cancel collective]
  · rw [@entered_succ numRank (exchange + 1) (by omega), RankStage.left, arrivals]
    omega

theorem count {tail : List Instr}
    (here : RankAt more app ctl arrived isWriter process exchange .counting)
    (todo : process.todo = .waitCount :: tail) :
    RankAt more app ctl arrived isWriter
      { process with todo := tail, last := statusAt more exchange } exchange .spinning := by
  have whole := here.todo
  rw [todo] at whole
  exact here.advance (List.cons.inj whole).2 here.isThrown here.fits rfl
    (fun _ => here.together (by simp [RankStage.phase])) (by simp [RankStage.phase])
    (fun _ => here.published (.inl rfl)) (by simp [RankStage.phase]) rfl (by simp) here.awaited

/-- The rank sees the status of the controller. -/
theorem see {tail : List Instr} {after : RankStage}
    (here : RankAt more app ctl arrived isWriter process exchange stage) (reached : exchange ≤ ctl)
    (waiting : stage.phase = .waiting) (seen : after.phase = .seen)
    (todo : tail = after.rest isWriter more exchange ++
      Profile.programFrom isWriter numRank more (exchange + 1))
    (fits : after.Fits isWriter more exchange) (left : after.left = stage.left)
    (counted : after.IsCounted ↔ stage.IsCounted) :
    RankAt more app ctl arrived isWriter (process.see tail) exchange after := by
  have first := here.first
  have known := here.awaited
  rw [waiting, if_neg (by simp)] at known
  refine here.advance todo here.isThrown fits ?_ (fun _ => here.together (by simp [waiting]))
    (by simp [seen]) (fun _ => here.published (.inl waiting)) (fun _ => reached) ?_ ?_ ?_
  · rw [left]
    rfl
  · rw [show (process.see tail).last = process.last from rfl, here.last]
    simp only [counted]
  · rintro rfl
    simp [RankStage.phase] at seen
  · rw [seen, if_pos rfl, Process.see, known]
    exact Nat.sub_add_cancel first

theorem spin {tail : List Instr}
    (here : RankAt more app ctl arrived isWriter process exchange .spinning)
    (todo : process.todo = .waitSpin :: tail) (reached : exchange ≤ ctl) :
    RankAt more app ctl arrived isWriter (process.see tail) exchange .rechecking := by
  have whole := here.todo
  rw [todo] at whole
  exact here.see reached rfl rfl (List.cons.inj whole).2 here.fits rfl Iff.rfl

theorem recheck {tail : List Instr}
    (here : RankAt more app ctl arrived isWriter process exchange .rechecking)
    (ordered : ctl ≤ app) (todo : process.todo = .waitCheck :: tail) :
    ∃ after stage, RankAt more app ctl arrived isWriter { process with todo := tail } after stage := by
  have whole := here.todo
  rw [todo] at whole
  exact ⟨_, _, here.next ordered rfl here.fits.2 (List.cons.inj whole).2 here.isThrown rfl rfl
    here.last rfl⟩

/-- All ranks publish the status of a loop. -/
theorem beginLoop {tail : List Instr}
    (here : RankAt more app ctl arrived isWriter process exchange .beginning)
    (todo : process.todo = .loopWrite :: tail) :
    RankAt more exchange ctl arrived isWriter { process with todo := tail } exchange .awaiting := by
  have whole := here.todo
  rw [todo] at whole
  exact { here with
    todo := (List.cons.inj whole).2, ahead := le_refl _
    together := fun _ => here.together (by simp [RankStage.phase])
    unpublished := by simp [RankStage.phase], published := fun _ _ => rfl
    seen := by simp [RankStage.phase], loaded := by simp }

theorem awaitLoop {tail : List Instr}
    (here : RankAt more app ctl arrived isWriter process exchange .awaiting)
    (todo : process.todo = .loopSpin :: tail) (reached : exchange ≤ ctl) :
    RankAt more app ctl arrived isWriter (process.see tail) exchange .setting := by
  have whole := here.todo
  rw [todo] at whole
  exact here.see reached rfl rfl (List.cons.inj whole).2 here.fits rfl Iff.rfl

theorem setLast {tail : List Instr}
    (here : RankAt more app ctl arrived isWriter process exchange .setting)
    (ordered : ctl ≤ app) (todo : process.todo = .loopLast :: tail) :
    ∃ after stage, RankAt more app ctl arrived isWriter
      { process with todo := tail, last := statusNameLoopBegin } after stage := by
  have whole := here.todo
  have loop : IsLoop more exchange := here.fits
  have inner : exchange ≠ numExchange more := by
    have bound := loop.2.1
    unfold numExchange
    omega
  rw [todo] at whole
  exact ⟨_, _, here.next ordered rfl inner (List.cons.inj whole).2 here.isThrown rfl rfl
    (statusAt_loop loop).symm rfl⟩

/-- The status of the controller is that of the exchange only in the exchange. -/
theorem ctl_eq_iff (here : RankAt more app ctl arrived isWriter process exchange stage)
    (ordered : ctl ≤ app) : statusAt more ctl = statusAt more exchange ↔ exchange ≤ ctl := by
  have behind := here.behind
  have ahead := here.ahead
  constructor
  · intro same
    by_contra before
    obtain rfl : exchange = ctl + 1 := by omega
    exact statusAt_ne ctl same.symm
  · intro reached
    obtain rfl : exchange = ctl := by omega
    rfl

end RankAt

/-- What an instruction of a rank leaves: the memory as it is, or the next status. -/
inductive RankResult {numRank : Nat} (more : Nat) (memory : Memory) (arrived : Fin numRank → Nat)
    (isWriter : Bool) (process : Process) : Memory → Process → Prop where
  | unchanged {after : Process} {exchange : Nat} {stage : RankStage}
      (grown : process.arrived ≤ after.arrived)
      (here : RankAt more memory.app.changes memory.ctl.changes arrived isWriter after exchange stage) :
      RankResult more memory arrived isWriter process memory after
  | publish {after : Process} {exchange : Nat} {stage : RankStage}
      (grown : process.arrived ≤ after.arrived) (next : memory.app.changes + 1 = exchange)
      (first : 1 ≤ exchange) (together : ∀ other, entered numRank (exchange + 1) ≤ arrived other)
      (kind : isWriter = true ∨ IsLoop more exchange)
      (here : RankAt more exchange memory.ctl.changes arrived isWriter after exchange stage) :
      RankResult more memory arrived isWriter process
        { memory with app := ⟨statusAt more exchange, exchange⟩ } after

section

variable {numRank more exchange : Nat} {arrived : Fin numRank → Nat} {isWriter : Bool}
  {process after : Process} {stage : RankStage} {memory last : Memory} {together : Prop}
  [Decidable together]

/-- A rank that waits goes on when the controller has published the status. -/
theorem RankAt.exec_spinning {tail : List Instr}
    (here : RankAt more memory.app.changes memory.ctl.changes arrived isWriter process exchange
      .spinning) (holds : memory.Holds more) (todo : process.todo = .waitSpin :: tail) :
    process.exec .app memory together =
      if exchange ≤ memory.ctl.changes then some (memory, process.see tail) else none := by
  have value : memory.status Side.app.peer = statusAt more memory.ctl.changes := holds.ctl
  have expected : process.last = statusAt more exchange := here.last
  have ahead := here.ahead
  have last_le := here.last_le
  have ordered := holds.behind
  have alive : statusAt more memory.ctl.changes ≠ statusAbort := statusAt_ne_abort (by omega)
  simp only [Process.exec, todo, value, expected, here.ctl_eq_iff ordered, if_neg alive]

theorem RankAt.exec_awaiting {tail : List Instr}
    (here : RankAt more memory.app.changes memory.ctl.changes arrived isWriter process exchange
      .awaiting) (holds : memory.Holds more) (todo : process.todo = .loopSpin :: tail) :
    process.exec .app memory together =
      if exchange ≤ memory.ctl.changes then some (memory, process.see tail) else none := by
  have value : memory.status Side.app.peer = statusAt more memory.ctl.changes := holds.ctl
  have loop : IsLoop more exchange := here.fits
  simp only [Process.exec, todo, value, ← statusAt_loop loop, here.ctl_eq_iff holds.behind]

theorem RankAt.exec
    (here : RankAt more memory.app.changes memory.ctl.changes arrived isWriter process exchange stage)
    (holds : memory.Holds more) (entries : together → ∀ other, process.arrived ≤ arrived other)
    (done : process.exec .app memory together = some (last, after)) :
    RankResult more memory arrived isWriter process last after := by
  cases stage with
  | arriving left =>
      obtain ⟨tail, todo⟩ : ∃ tail, process.todo = .arrive :: tail := ⟨_, here.todo⟩
      simp only [Process.exec, todo, Option.some.injEq, Prod.mk.injEq] at done
      obtain ⟨rfl, rfl⟩ := done
      exact .unchanged (Nat.le_succ _) (here.enter todo)
  | leaving left =>
      obtain ⟨tail, todo⟩ : ∃ tail, process.todo = .leave :: tail := ⟨_, here.todo⟩
      simp only [Process.exec, todo] at done
      split at done
      · simp only [Option.some.injEq, Prod.mk.injEq] at done
        obtain ⟨rfl, rfl⟩ := done
        obtain ⟨next, there⟩ := here.leave todo (entries ‹together›)
        exact .unchanged (le_refl _) there
      · simp at done
  | checking =>
      obtain ⟨tail, todo⟩ : ∃ tail, process.todo = .stepCheck .app :: tail := ⟨_, here.todo⟩
      have before := here.unpublished (.inr rfl) here.fits.1 here.fits.2
      have last_le := here.last_le
      have value : memory.status .app = statusAt more memory.app.changes := holds.app
      have running : memory.status .app ≠ statusShutdown := by
        rw [value]
        exact (statusAt_lt (by omega)).ne
      simp only [Process.exec, todo, if_pos running, Option.some.injEq, Prod.mk.injEq] at done
      obtain ⟨rfl, rfl⟩ := done
      exact .unchanged (le_refl _) (here.check todo)
  | loading =>
      obtain ⟨tail, todo⟩ : ∃ tail, process.todo = .stepLoad .app :: tail := ⟨_, here.todo⟩
      have value : memory.status .app = statusAt more memory.app.changes := holds.app
      simp only [Process.exec, todo, value, Option.some.injEq, Prod.mk.injEq] at done
      obtain ⟨rfl, rfl⟩ := done
      exact .unchanged (le_refl _) (here.load todo)
  | storing =>
      obtain ⟨tail, todo⟩ : ∃ tail, process.todo = .stepStore .app :: tail := ⟨_, here.todo⟩
      obtain ⟨writer, other⟩ := here.fits
      have next := here.unpublished (.inr rfl) writer other
      have value : process.loaded + 1 = statusAt more (memory.app.changes + 1) := by
        rw [here.loaded rfl, ← next, Nat.add_sub_cancel, statusAt_step (next ▸ other)]
      simp only [Process.exec, todo, value, Memory.write, Word.write_next holds.app,
        Option.some.injEq, Prod.mk.injEq] at done
      obtain ⟨rfl, rfl⟩ := done
      obtain ⟨stage, there⟩ := here.store todo
      rw [next]
      exact .publish (le_refl _) next here.first (here.together (by simp [RankStage.phase]))
        (.inl writer) there
  | counting =>
      obtain ⟨tail, todo⟩ : ∃ tail, process.todo = .waitCount :: tail := ⟨_, here.todo⟩
      obtain ⟨other, inner⟩ := here.fits
      have first := here.first
      have last_le := here.last_le
      have before : process.last = statusAt more (exchange - 1) := here.last
      have below : process.last ≠ statusShutdown := before ▸ (statusAt_lt (by omega)).ne
      have value : process.last + 1 = statusAt more exchange := by
        obtain ⟨before, rfl⟩ := Nat.exists_eq_add_of_le' first
        rw [here.last, if_neg (by simp [RankStage.IsCounted]), Nat.add_sub_cancel,
          statusAt_step other]
      simp only [Process.exec, todo, if_pos below, value, Option.some.injEq, Prod.mk.injEq] at done
      obtain ⟨rfl, rfl⟩ := done
      exact .unchanged (le_refl _) (here.count todo)
  | spinning =>
      obtain ⟨tail, todo⟩ : ∃ tail, process.todo = .waitSpin :: tail := ⟨_, here.todo⟩
      rw [here.exec_spinning holds todo] at done
      split at done
      · simp only [Option.some.injEq, Prod.mk.injEq] at done
        obtain ⟨rfl, rfl⟩ := done
        exact .unchanged (le_refl _) (here.spin todo ‹_›)
      · simp at done
  | rechecking =>
      obtain ⟨tail, todo⟩ : ∃ tail, process.todo = .waitCheck :: tail := ⟨_, here.todo⟩
      have value : memory.status Side.app.peer = statusAt more memory.ctl.changes := holds.ctl
      have expected : process.last = statusAt more exchange := here.last
      have same : memory.status Side.app.peer = process.last := by
        rw [value, expected, here.ctl_eq_iff holds.behind]
        exact here.seen rfl
      simp only [Process.exec, todo, if_pos same, Option.some.injEq, Prod.mk.injEq] at done
      obtain ⟨rfl, rfl⟩ := done
      obtain ⟨after, stage, there⟩ := here.recheck holds.behind todo
      exact .unchanged (le_refl _) there
  | beginning =>
      obtain ⟨tail, todo⟩ : ∃ tail, process.todo = .loopWrite :: tail := ⟨_, here.todo⟩
      have behind := here.behind
      have ahead := here.ahead
      have ordered := holds.behind
      have loop : IsLoop more exchange := here.fits
      simp only [Process.exec, todo, Memory.write, ← statusAt_loop loop, Option.some.injEq,
        Prod.mk.injEq] at done
      obtain ⟨rfl, rfl⟩ := done
      by_cases fresh : memory.app.changes + 1 = exchange
      · subst fresh
        rw [Word.write_next holds.app]
        exact .publish (le_refl _) rfl here.first (here.together (by simp [RankStage.phase]))
          (.inr loop) (here.beginLoop todo)
      · -- another rank has begun the loop before
        obtain rfl : memory.app.changes = exchange := by omega
        rw [Word.write_same holds.app]
        exact .unchanged (le_refl _) (here.beginLoop todo)
  | awaiting =>
      obtain ⟨tail, todo⟩ : ∃ tail, process.todo = .loopSpin :: tail := ⟨_, here.todo⟩
      rw [here.exec_awaiting holds todo] at done
      split at done
      · simp only [Option.some.injEq, Prod.mk.injEq] at done
        obtain ⟨rfl, rfl⟩ := done
        exact .unchanged (le_refl _) (here.awaitLoop todo ‹_›)
      · simp at done
  | setting =>
      obtain ⟨tail, todo⟩ : ∃ tail, process.todo = .loopLast :: tail := ⟨_, here.todo⟩
      simp only [Process.exec, todo, Option.some.injEq, Prod.mk.injEq] at done
      obtain ⟨rfl, rfl⟩ := done
      obtain ⟨after, stage, there⟩ := here.setLast holds.behind todo
      exact .unchanged (le_refl _) there
  | finished =>
      have todo : process.todo = [] := by
        rw [here.todo, show exchange = numExchange more from here.fits, Profile.programFrom_end]
        rfl
      simp [Process.exec, todo] at done

end

end Geopm.Handshake
