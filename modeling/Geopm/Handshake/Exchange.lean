import Geopm.Handshake.ControlMessage

namespace Geopm.Handshake

/-! The statuses of a whole handshake in their order, and the programs of both sides cut
at them: in each exchange the ranks publish the next status and then wait for the
controller to do the same. -/

section

variable (numRank more exchange : Nat)

/-- The number of statuses that the application goes through. -/
def numExchange : Nat := 2 * more + 9

/-- The status of an exchange. -/
def statusAt : Nat :=
  if exchange ≤ 5 then exchange
  else if exchange ≤ 2 * more + 7 then 6 + exchange % 2
  else exchange - 2 * more

/-- The exchange is one of `loop_begin`. -/
def IsLoop : Prop := 6 ≤ exchange ∧ exchange ≤ 2 * more + 6 ∧ exchange % 2 = 0

instance : Decidable (IsLoop more exchange) := inferInstanceAs (Decidable (_ ∧ _))

/-- The collectives of an exchange, all of them before its status is published. -/
def collectives : Nat :=
  if exchange = 2 then numRank + 1 else if exchange = 4 then 3 else 1

theorem collectives_pos : 0 < collectives numRank exchange := by
  unfold collectives
  split
  · omega
  · split <;> omega

end

section

variable {more exchange : Nat}

theorem statusAt_loop (loop : IsLoop more exchange) :
    statusAt more exchange = statusNameLoopBegin := by
  obtain ⟨first, last, even⟩ := loop
  rw [statusAt, if_neg (by omega), if_pos (by omega), even]
  rfl

/-- Elsewhere the status is the next one. -/
theorem statusAt_step (other : ¬ IsLoop more (exchange + 1)) :
    statusAt more (exchange + 1) = statusAt more exchange + 1 := by
  unfold IsLoop at other
  unfold statusAt
  split_ifs <;> omega

theorem statusAt_ne (exchange : Nat) : statusAt more (exchange + 1) ≠ statusAt more exchange := by
  unfold statusAt
  split_ifs <;> omega

theorem statusAt_lt (inside : exchange < numExchange more) :
    statusAt more exchange < statusShutdown := by
  unfold numExchange at inside
  unfold statusAt statusShutdown
  split_ifs <;> omega

theorem statusAt_le (inside : exchange ≤ numExchange more) :
    statusAt more exchange ≤ statusShutdown := by
  unfold numExchange at inside
  unfold statusAt statusShutdown
  split_ifs <;> omega

theorem statusAt_ne_abort (inside : exchange ≤ numExchange more) :
    statusAt more exchange ≠ statusAbort := by
  have bounded := statusAt_le inside
  unfold statusShutdown at bounded
  unfold statusAbort
  omega

/-- Two statuses in a row differ by one, also where the loop begins again. -/
theorem statusAt_near (exchange : Nat) :
    statusAt more (exchange + 1) = statusAt more exchange + 1 ∨
      statusAt more exchange = statusAt more (exchange + 1) + 1 := by
  unfold statusAt
  split_ifs <;> omega

/-- The exchanges before the rounds, in the rounds and after them. -/
theorem exchanges_eq (more : Nat) : List.range' 1 (numExchange more) =
    [1, 2, 3, 4, 5] ++ List.range' 6 (2 * (more + 1)) ++ [2 * more + 8, 2 * more + 9] := by
  rw [numExchange, show 2 * more + 9 = 5 + 2 * (more + 1) + 2 by omega, ← List.range'_append_1,
    ← List.range'_append_1]
  congr 1
  simp [List.range']
  omega

end

namespace Profile

variable (isWriter : Bool) (numRank more exchange : Nat)

/-- What a rank does after it has published its status. -/
def await : List Instr := if exchange = numExchange more then [] else wait

/-- What a rank does after the collectives. -/
def publish : List Instr :=
  if IsLoop more exchange then loopBegin else step isWriter ++ await more exchange

/-- What a rank does from the start of an exchange. -/
def exchangeProgram : List Instr :=
  (List.replicate (collectives numRank exchange) barrier).flatten ++ publish isWriter more exchange

/-- The program from the start of an exchange to the end. -/
def programFrom : List Instr :=
  (List.range' exchange (numExchange more + 1 - exchange)).flatMap
    (exchangeProgram isWriter numRank more)

variable {isWriter numRank more exchange}

theorem programFrom_succ (inside : exchange ≤ numExchange more) :
    programFrom isWriter numRank more exchange =
      exchangeProgram isWriter numRank more exchange ++
        programFrom isWriter numRank more (exchange + 1) := by
  rw [programFrom, show numExchange more + 1 - exchange = numExchange more + 1 - (exchange + 1) + 1 by
    omega, List.range'_succ, List.flatMap_cons]
  rfl

theorem programFrom_end :
    programFrom isWriter numRank more (numExchange more + 1) = [] := by
  rw [programFrom, Nat.sub_self]
  rfl

/-- An exchange of `loop_begin`, and the one after it in the same round. -/
theorem exchangeProgram_round {rounds : Nat} (bounded : rounds < more + 1) :
    exchangeProgram isWriter numRank more (6 + 2 * rounds) ++
      exchangeProgram isWriter numRank more (6 + 2 * rounds + 1) = sendRound isWriter := by
  have loop : IsLoop more (6 + 2 * rounds) := by unfold IsLoop; omega
  have other : ¬ IsLoop more (6 + 2 * rounds + 1) := by unfold IsLoop; omega
  have inner : ¬ 6 + 2 * rounds + 1 = numExchange more := by unfold numExchange; omega
  have single : ∀ exchange, 6 ≤ exchange → collectives numRank exchange = 1 := by
    intro exchange later
    rw [collectives, if_neg (by omega), if_neg (by omega)]
  rw [exchangeProgram, exchangeProgram, single _ (by omega), single _ (by omega), publish,
    if_pos loop, publish, if_neg other, await, if_neg inner, sendRound]
  simp [List.append_assoc]

/-- The rounds of `send_names` are pairs of exchanges. -/
theorem exchanges_rounds (rounds : Nat) (bounded : rounds ≤ more + 1) :
    (List.range' 6 (2 * rounds)).flatMap (exchangeProgram isWriter numRank more) =
      (List.replicate rounds (sendRound isWriter)).flatten := by
  induction rounds with
  | zero => rfl
  | succ rounds ih =>
      rw [show 2 * (rounds + 1) = 2 * rounds + 1 + 1 by omega, List.range'_1_concat,
        List.range'_1_concat, List.replicate_succ', List.flatMap_append, List.flatMap_append,
        List.flatten_append, ih (by omega), ← @exchangeProgram_round isWriter numRank more rounds bounded]
      simp [List.append_assoc, Nat.add_assoc]

theorem exchangeProgram_wait {exchange : Nat} (other : ¬ IsLoop more exchange)
    (inner : exchange ≠ numExchange more) :
    exchangeProgram isWriter numRank more exchange =
      (List.replicate (collectives numRank exchange) barrier).flatten ++ step isWriter ++ wait := by
  rw [exchangeProgram, publish, if_neg other, await, if_neg inner, List.append_assoc]

/-- The program of a rank is its exchanges in order. -/
theorem program_eq :
    program isWriter numRank more = programFrom isWriter numRank more 1 := by
  have early : ∀ exchange, exchange < 6 → exchangeProgram isWriter numRank more exchange =
      (List.replicate (collectives numRank exchange) barrier).flatten ++ step isWriter ++ wait := by
    intro exchange before
    exact exchangeProgram_wait (by unfold IsLoop; omega) (by unfold numExchange; omega)
  have names : exchangeProgram isWriter numRank more (2 * more + 8) =
      barrier ++ step isWriter ++ wait := by
    rw [exchangeProgram_wait (by unfold IsLoop; omega) (by unfold numExchange; omega), collectives,
      if_neg (by omega), if_neg (by omega)]
    simp
  have last : exchangeProgram isWriter numRank more (2 * more + 9) = barrier ++ step isWriter := by
    rw [exchangeProgram, publish, if_neg (by unfold IsLoop; omega), await,
      if_pos (by unfold numExchange; omega), collectives, if_neg (by omega), if_neg (by omega)]
    simp
  rw [programFrom, Nat.add_sub_cancel, exchanges_eq, List.flatMap_append, List.flatMap_append,
    exchanges_rounds _ (le_refl _)]
  simp only [List.flatMap_cons, List.flatMap_nil, names, last, early 1 (by omega),
    early 2 (by omega), early 3 (by omega), early 4 (by omega), early 5 (by omega), collectives]
  simp [program, init, shutdown, sendNames, initCpuAffinity, initTable, initAppStatus,
    List.append_assoc, List.replicate_succ', List.flatten_append]

end Profile

namespace ProfileSampler

variable (more exchange : Nat)

/-- What the controller does in an exchange, with what is left of the round before. -/
def exchangeProgram : List Instr :=
  if exchange = 4 then [.sampleEnd] ++ step
  else if exchange = 5 then [.nameSpin, .nameBegin] ++ step
  else if IsLoop more exchange then
    (if exchange = 6 then [] else [.shutdownCheck]) ++ [.loopSpin, .loopWrite]
  else if 6 ≤ exchange ∧ exchange ≤ 2 * more + 7 then [.loopLast] ++ wait ++ step
  else if exchange = numExchange more then wait
  else wait ++ step

/-- The program from the start of an exchange to the end. -/
def programFrom : List Instr :=
  (List.range' exchange (numExchange more + 1 - exchange)).flatMap (exchangeProgram more)

variable {more exchange}

theorem programFrom_succ (inside : exchange ≤ numExchange more) :
    programFrom more exchange =
      exchangeProgram more exchange ++ programFrom more (exchange + 1) := by
  rw [programFrom, show numExchange more + 1 - exchange = numExchange more + 1 - (exchange + 1) + 1 by
    omega, List.range'_succ, List.flatMap_cons]
  rfl

theorem programFrom_end : programFrom more (numExchange more + 1) = [] := by
  rw [programFrom, Nat.sub_self]
  rfl

theorem exchangeProgram_loop {rounds : Nat} (bounded : rounds ≤ more) :
    exchangeProgram more (6 + 2 * rounds) =
      (if rounds = 0 then [] else [.shutdownCheck]) ++ [.loopSpin, .loopWrite] := by
  have loop : IsLoop more (6 + 2 * rounds) := by unfold IsLoop; omega
  have first : 6 + 2 * rounds = 6 ↔ rounds = 0 := by omega
  rw [exchangeProgram, if_neg (by omega), if_neg (by omega), if_pos loop]
  simp only [first]

theorem exchangeProgram_round {rounds : Nat} (bounded : rounds ≤ more) :
    exchangeProgram more (6 + 2 * rounds + 1) = [.loopLast] ++ wait ++ step := by
  have other : ¬ IsLoop more (6 + 2 * rounds + 1) := by unfold IsLoop; omega
  rw [exchangeProgram, if_neg (by omega), if_neg (by omega), if_neg other, if_pos (by omega)]

/-- The rounds of `region_names` are pairs of exchanges. -/
theorem exchanges_rounds (rounds : Nat) (bounded : rounds ≤ more) :
    (List.range' 6 (2 * (rounds + 1))).flatMap (exchangeProgram more) =
      (List.replicate rounds (nameRound ++ [.shutdownCheck])).flatten ++ nameRound := by
  induction rounds with
  | zero =>
      have loop := @exchangeProgram_loop more 0 bounded
      have round := @exchangeProgram_round more 0 bounded
      simp only [Nat.mul_zero, Nat.add_zero] at loop round
      simp [List.range', loop, round, nameRound, loopBegin]
  | succ rounds ih =>
      have loop := @exchangeProgram_loop more (rounds + 1) bounded
      have round := @exchangeProgram_round more (rounds + 1) bounded
      rw [show 2 * (rounds + 1 + 1) = 2 * (rounds + 1) + 1 + 1 by omega, List.range'_1_concat,
        List.range'_1_concat, List.replicate_succ', List.flatMap_append, List.flatMap_append,
        List.flatten_append, ih (by omega)]
      simp only [List.flatMap_cons, List.flatMap_nil, List.append_nil, loop, ← Nat.add_assoc, round]
      simp [nameRound, loopBegin, List.append_assoc]

/-- The program of the controller is its exchanges in order. -/
theorem program_eq : program more = programFrom more 1 := by
  have outside : ∀ exchange, exchange < 4 ∨ exchange = 2 * more + 8 →
      exchangeProgram more exchange = wait ++ step := by
    intro exchange either
    rw [exchangeProgram, if_neg (by omega), if_neg (by omega), if_neg (by unfold IsLoop; omega),
      if_neg (by omega), if_neg (by unfold numExchange; omega)]
  have last : exchangeProgram more (2 * more + 9) = wait := by
    rw [exchangeProgram, if_neg (by omega), if_neg (by omega), if_neg (by unfold IsLoop; omega),
      if_neg (by omega), if_pos (by unfold numExchange; omega)]
  rw [programFrom, Nat.add_sub_cancel, exchanges_eq, List.flatMap_append, List.flatMap_append,
    exchanges_rounds _ (le_refl _)]
  simp only [List.flatMap_cons, List.flatMap_nil, outside 1 (by omega), outside 2 (by omega),
    outside 3 (by omega), outside (2 * more + 8) (by omega), last]
  simp [program, initializeSampler, controllerReady, checkSampleEnd, regionNames, exchangeProgram,
    List.append_assoc]

end ProfileSampler

end Geopm.Handshake
