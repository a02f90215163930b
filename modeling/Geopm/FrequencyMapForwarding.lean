import Geopm.FrequencyMapLeaf

namespace Geopm

/-! The policies that a `FrequencyMapAgent` forwards to a child. -/

namespace FrequencyMap

/-- A policy for the parent, and the region hashes that the child samples. -/
structure Input where
  policy : List Number
  hashes : Nat → Nat

/-- A parent, its child with the policy it has last received, and a second
child, to which every policy is delivered. -/
structure Forwarding where
  parent : Agent
  received : List Number
  child : Leaf
  direct : Leaf

namespace Forwarding

/-- The parent is above level 0, and both children are on the same platform. -/
def start (coreFreqMin coreFreqMax : ℚ) (freqs : List Number) (uncore : UncoreLimits) : Forwarding where
  parent := Agent.new.init 1 coreFreqMin coreFreqMax
  received := List.replicate numPolicy .nan
  child := .init coreFreqMin coreFreqMax freqs uncore
  direct := .init coreFreqMin coreFreqMax freqs uncore

/-- A step of the parent and of the children. -/
def exchange (state : Forwarding) (input : Input) : Except AgentError Forwarding := do
  let (parent, outPolicy) ← state.parent.splitPolicy input.policy [state.received]
  let received := if parent.doSendPolicy then outPolicy.headD state.received else state.received
  let child ← state.child.step received input.hashes
  let direct ← state.direct.step input.policy input.hashes
  pure { parent, received, child, direct }

/-- Both children have the same frequencies in force. -/
def Same (state : Forwarding) : Prop := state.child.applied = state.direct.applied

/-- The uncore frequency that the parent holds is taken back and nothing else is
changed, where the child has other limits to return to. -/
def Lost (state : Forwarding) (input : Input) : Prop :=
  state.parent.uncoreFreq.isNan = false ∧ (input.policy.getD 1 .nan).isNan = true ∧
    state.parent.defaultFreq.eq (input.policy.getD 0 .nan) = true ∧
    sameMap (mapPairs (input.policy.drop 2) []) state.parent.hashFreqMap = true ∧
    state.child.uncoreInit ≠ .fixed state.parent.uncoreFreq

/-- No policy of the run is lost. -/
def NeverLost (state : Forwarding) : List Input → Prop
  | [] => True
  | input :: rest =>
      ¬ state.Lost input ∧ ∀ next, state.exchange input = .ok next → NeverLost next rest

/-- Before the first policy. -/
structure Fresh (state : Forwarding) : Prop where
  parent : state.parent.defaultFreq = .nan
  same : state.child = state.direct
  ready : state.child.adjustOnce.Written

/-- What the steps keep after the first policy. -/
structure Follows (state : Forwarding) : Prop where
  filled : isAllNan state.received = false
  hashFreqMap : mapPairs (state.received.drop 2) [] = state.parent.hashFreqMap
  defaultFreq : state.received.getD 0 .nan = state.parent.defaultFreq
  uncoreFreq : state.parent.uncoreFreq.isNan = false → state.received.getD 1 .nan = state.parent.uncoreFreq
  child : state.child.Written
  direct : state.direct.Written
  alike : state.child.Alike state.direct
  childUncore : state.child.lastUncoreFreq = state.received.getD 1 .nan
  directUncore : state.direct.lastUncoreFreq = state.parent.uncoreFreq

variable {state next : Forwarding} {input : Input} {inputs : List Input}

/-- A policy that the parent finds to be a change is delivered. -/
theorem exchange_changed (filled : isAllNan input.policy = false)
    (changed : state.parent.isChanged input.policy = true) :
    state.exchange input = .ok
      { parent := state.parent.accept input.policy
        received := input.policy
        child := state.child.next input.policy input.hashes
        direct := state.direct.next input.policy input.hashes } := by
  have updated : (state.parent.accept input.policy).isPolicyUpdated = true := changed
  simp only [exchange, Agent.splitPolicy, Agent.updatePolicy_filled filled, Agent.doSendPolicy, updated,
    bind, Except.bind, pure, Except.pure, if_true, List.map_cons, List.headD_cons,
    Leaf.step_filled filled]

/-- Otherwise the child keeps its policy. -/
theorem exchange_unchanged (filled : isAllNan input.policy = false)
    (before : isAllNan state.received = false)
    (unchanged : state.parent.isChanged input.policy = false) :
    state.exchange input = .ok
      { parent := state.parent.accept input.policy
        received := state.received
        child := state.child.next state.received input.hashes
        direct := state.direct.next input.policy input.hashes } := by
  have updated : (state.parent.accept input.policy).isPolicyUpdated = false := unchanged
  simp only [exchange, Agent.splitPolicy, Agent.updatePolicy_filled filled, Agent.doSendPolicy, updated,
    bind, Except.bind, pure, Except.pure, Bool.false_eq_true, if_false,
    Leaf.step_filled filled, Leaf.step_filled before]

theorem sameMap_eq {left right : List (Nat × Number)} (same : sameMap left right = true) : left = right := by
  induction left generalizing right with
  | nil =>
      cases right with
      | nil => rfl
      | cons entry rest => cases same
  | cons entry rest ih =>
      cases right with
      | nil => cases same
      | cons other others =>
          simp only [sameMap, Bool.and_eq_true] at same
          obtain ⟨⟨hash, freq⟩, tail⟩ := same
          rw [ih tail, Prod.ext (beq_iff_eq.mp hash) (Number.of_eq freq)]

/-- The parent finds no change. -/
theorem unchanged_iff {agent : Agent} {policy : List Number} :
    agent.isChanged policy = false ↔ agent.defaultFreq.eq (policy.getD 0 .nan) = true ∧
      sameMap (mapPairs (policy.drop 2) []) agent.hashFreqMap = true ∧
      ((policy.getD 1 .nan).isNan = false → agent.uncoreFreq.eq (policy.getD 1 .nan) = true) := by
  simp only [Agent.isChanged, Bool.or_eq_false_iff, Bool.not_eq_false', Bool.and_eq_false_imp,
    Bool.not_eq_true', and_assoc]

/-- A policy that is delivered leaves both children with the same frequencies. -/
theorem follows_changed (child : state.child.adjustOnce.Written) (direct : state.direct.adjustOnce.Written)
    (alike : state.child.adjustOnce.Alike state.direct.adjustOnce) (filled : isAllNan input.policy = false)
    (changed : state.parent.isChanged input.policy = true) :
    ∃ next, state.exchange input = .ok next ∧ next.Follows ∧ next.Same := by
  have childNext : (state.child.next input.policy input.hashes).Written := Leaf.written_next child
  have directNext : (state.direct.next input.policy input.hashes).Written := Leaf.written_next direct
  have alikeNext : (state.child.next input.policy input.hashes).Alike
      (state.direct.next input.policy input.hashes) := by
    rw [← Leaf.next_adjustOnce, ← @Leaf.next_adjustOnce state.direct]
    exact alike.next child direct rfl rfl
  have childLast : (state.child.next input.policy input.hashes).lastUncoreFreq = input.policy.getD 1 .nan := by
    rw [← Leaf.next_adjustOnce]
    exact Leaf.next_lastUncoreFreq child
  have directLast : (state.direct.next input.policy input.hashes).lastUncoreFreq = input.policy.getD 1 .nan := by
    rw [← Leaf.next_adjustOnce]
    exact Leaf.next_lastUncoreFreq direct
  refine ⟨_, exchange_changed filled changed,
    ⟨filled, rfl, rfl, fun _ => rfl, childNext, directNext, alikeNext, childLast, directLast⟩, ?_⟩
  apply (Leaf.applied_eq_iff alikeNext childNext directNext).mpr
  rw [childLast, directLast]

/-- A policy that is not delivered leaves them with what the child has and with
what the policy asks for. -/
theorem Follows.unchanged (follows : state.Follows) (filled : isAllNan input.policy = false)
    (unchanged : state.parent.isChanged input.policy = false) :
    ∃ next, state.exchange input = .ok next ∧ next.Follows ∧
      (next.Same ↔ state.child.uncoreFor (state.received.getD 1 .nan) =
        state.child.uncoreFor (input.policy.getD 1 .nan)) := by
  obtain ⟨default, mapped, uncore⟩ := unchanged_iff.mp unchanged
  have childNext : (state.child.next state.received input.hashes).Written :=
    Leaf.written_next follows.child.ready
  have directNext : (state.direct.next input.policy input.hashes).Written :=
    Leaf.written_next follows.direct.ready
  have sameDefault := follows.defaultFreq.trans (Number.of_eq default)
  have sameMapped := follows.hashFreqMap.trans (sameMap_eq mapped).symm
  have alikeNext : (state.child.next state.received input.hashes).Alike
      (state.direct.next input.policy input.hashes) :=
    follows.alike.next follows.child follows.direct sameDefault sameMapped
  have childLast := @Leaf.next_lastUncoreFreq _ state.received input.hashes follows.child
  have directLast := @Leaf.next_lastUncoreFreq _ input.policy input.hashes follows.direct
  have init := @Leaf.next_uncoreInit _ state.received input.hashes follows.child
  have limits : (state.child.next state.received input.hashes).uncoreFor = state.child.uncoreFor := by
    funext freq
    rw [Leaf.uncoreFor, Leaf.uncoreFor, init]
  refine ⟨_, exchange_unchanged filled follows.filled unchanged, ?_, ?_⟩
  · refine ⟨follows.filled, sameMapped, sameDefault, ?_, childNext, directNext, alikeNext, childLast,
      directLast⟩
    intro given
    have held := Number.of_eq (uncore given)
    exact (follows.uncoreFreq (held ▸ given)).trans held
  · rw [Same, Leaf.applied_eq_iff alikeNext childNext directNext, childLast, directLast, limits]

/-- Both children have the same frequencies so far. -/
def Synced (state : Forwarding) : Prop := state.Fresh ∨ state.Follows ∧ state.Same

theorem Synced.same (synced : state.Synced) : state.Same := by
  cases synced with
  | inl fresh => exact congrArg _ fresh.same
  | inr follows => exact follows.2

theorem uncoreFor_eq_iff {leaf : Leaf} {freq : Number} (given : freq.isNan = false) :
    leaf.uncoreFor freq = leaf.uncoreFor .nan ↔ leaf.uncoreInit = .fixed freq := by
  rw [Leaf.uncoreFor, Leaf.uncoreFor, if_neg (by simp [given]), if_pos Number.isNan_nan, eq_comm]

theorem Synced.changed (synced : state.Synced) (filled : isAllNan input.policy = false)
    (changed : state.parent.isChanged input.policy = true) :
    ∃ next, state.exchange input = .ok next ∧ next.Follows ∧ next.Same := by
  cases synced with
  | inl fresh =>
      have direct := fresh.ready
      have alike : state.child.adjustOnce.Alike state.child.adjustOnce := ⟨rfl, rfl⟩
      rw [fresh.same] at direct
      nth_rewrite 2 [fresh.same] at alike
      exact follows_changed fresh.ready direct alike filled changed
  | inr both =>
      obtain ⟨follows, _⟩ := both
      have alike := follows.alike
      rw [← Leaf.adjustOnce_written follows.child, ← Leaf.adjustOnce_written follows.direct] at alike
      exact follows_changed follows.child.ready follows.direct.ready alike filled changed

/-- What the child has is what the policy asks for, unless it is lost. -/
theorem Follows.uncore_iff (follows : state.Follows) (same : state.Same)
    (unchanged : state.parent.isChanged input.policy = false) :
    state.child.uncoreFor (state.received.getD 1 .nan) = state.child.uncoreFor (input.policy.getD 1 .nan) ↔
      ¬ state.Lost input := by
  obtain ⟨default, mapped, uncore⟩ := unchanged_iff.mp unchanged
  simp only [Lost, default, mapped, true_and]
  cases given : (input.policy.getD 1 .nan).isNan with
  | false =>
      have held := Number.of_eq (uncore given)
      rw [follows.uncoreFreq (held ▸ given), held]
      simp
  | true =>
      rw [Number.nan_of_isNan given]
      cases held : state.parent.uncoreFreq.isNan with
      | false =>
          rw [follows.uncoreFreq held, uncoreFor_eq_iff held]
          simp
      | true =>
          have inForce := (Leaf.applied_eq_iff follows.alike follows.child follows.direct).mp same
          rw [follows.childUncore, follows.directUncore, Number.nan_of_isNan held] at inForce
          exact iff_of_true inForce (by simp)

/-- A step keeps the frequencies the same exactly if its policy is not lost. -/
theorem Synced.step (synced : state.Synced) (filled : isAllNan input.policy = false) :
    ∃ next, state.exchange input = .ok next ∧ (next.Same ↔ ¬ state.Lost input) ∧
      (next.Same → next.Synced) := by
  cases changed : state.parent.isChanged input.policy with
  | true =>
      have kept : ¬ state.Lost input := by
        rintro ⟨_, blank, default, mapped, _⟩
        have given : (input.policy.getD 1 .nan).isNan = false → state.parent.uncoreFreq.eq
            (input.policy.getD 1 .nan) = true := fun number => by rw [blank] at number; cases number
        have unchanged := unchanged_iff.mpr ⟨default, mapped, given⟩
        rw [changed] at unchanged
        cases unchanged
      obtain ⟨next, done, follows, same⟩ := synced.changed filled changed
      exact ⟨next, done, iff_of_true same kept, fun _ => .inr ⟨follows, same⟩⟩
  | false =>
      cases synced with
      | inl fresh =>
          have default := (unchanged_iff.mp changed).1
          rw [fresh.parent] at default
          cases default
      | inr both =>
          obtain ⟨follows, same⟩ := both
          obtain ⟨next, done, followsNext, sameNext⟩ := follows.unchanged filled changed
          exact ⟨next, done, sameNext.trans (follows.uncore_iff same changed),
            fun same => .inr ⟨followsNext, same⟩⟩

/-- The children have the same frequencies in force after each step exactly if no
policy is lost. -/
theorem Synced.run_iff (synced : state.Synced) (filled : ∀ input ∈ inputs, isAllNan input.policy = false) :
    (∀ before, before <+: inputs → ∃ final, before.foldlM exchange state = .ok final ∧ final.Same) ↔
      state.NeverLost inputs := by
  induction inputs generalizing state with
  | nil =>
      refine iff_of_true (fun before initial => ?_) trivial
      rw [List.prefix_nil.mp initial]
      exact ⟨state, rfl, synced.same⟩
  | cons input rest ih =>
      obtain ⟨next, done, sameNext, syncedNext⟩ := synced.step (filled input (by simp))
      have others := fun later member => filled later (List.mem_cons_of_mem input member)
      have continued (before : List Input) :
          (input :: before).foldlM exchange state = before.foldlM exchange next := by
        rw [List.foldlM_cons, done]
        rfl
      constructor
      · intro all
        obtain ⟨final, ended, same⟩ := all [input] (by simp)
        rw [continued] at ended
        cases ended
        refine ⟨sameNext.mp same, fun reached reaches => ?_⟩
        cases done.symm.trans reaches
        refine (ih (syncedNext same) others).mp fun before initial => ?_
        obtain ⟨final, ended, same⟩ := all (input :: before) (List.cons_prefix_cons.mpr ⟨rfl, initial⟩)
        exact ⟨final, (continued before).symm.trans ended, same⟩
      · rintro ⟨kept, never⟩ before initial
        cases before with
        | nil => exact ⟨state, rfl, synced.same⟩
        | cons first before =>
            obtain ⟨rfl, shorter⟩ := List.cons_prefix_cons.mp initial
            obtain ⟨final, ended, same⟩ :=
              (ih (syncedNext (sameNext.mpr kept)) others).mpr (never next done) before shorter
            exact ⟨final, (continued before).trans ended, same⟩

section

variable {coreFreqMin coreFreqMax : ℚ} {freqs : List Number} {uncore : UncoreLimits}

theorem synced_start : (start coreFreqMin coreFreqMax freqs uncore).Synced :=
  .inl ⟨rfl, rfl, Leaf.written_init⟩

/-- Forwarding has the effect of delivery exactly if no policy is lost. -/
theorem forwarding_iff (filled : ∀ input ∈ inputs, isAllNan input.policy = false) :
    (∀ before, before <+: inputs → ∃ final,
        before.foldlM exchange (start coreFreqMin coreFreqMax freqs uncore) = .ok final ∧ final.Same) ↔
      (start coreFreqMin coreFreqMax freqs uncore).NeverLost inputs :=
  synced_start.run_iff filled

end

/-- A policy with these frequencies for the cores and the uncore. -/
def plain (core : ℚ) (uncore : Number) : Input :=
  ⟨[.value core, uncore] ++ List.replicate 62 .nan, fun _ => 7⟩

theorem forwarding_kept :
    (∀ before, before <+: [plain 2 (.value 1), plain (3 / 2) .nan] → ∃ final,
        before.foldlM exchange (start 1 3 [.value 2] ⟨.value 1, .value 2⟩) = .ok final ∧ final.Same) ↔
      (start 1 3 [.value 2] ⟨.value 1, .value 2⟩).NeverLost [plain 2 (.value 1), plain (3 / 2) .nan] :=
  forwarding_iff (by decide +kernel)

/-- The uncore frequency is taken back and the default stays. -/
theorem not_forwarding_uncore :
    ¬ ∀ before, before <+: [plain 2 (.value 1), plain 2 .nan] → ∃ final,
      before.foldlM exchange (start 1 3 [.value 2] ⟨.value 1, .value 2⟩) = .ok final ∧ final.Same := by
  intro all
  obtain ⟨final, ended, same⟩ := all _ (List.prefix_refl _)
  have limits : (([plain 2 (.value 1), plain 2 .nan].foldlM exchange
      (start 1 3 [.value 2] ⟨.value 1, .value 2⟩)).toOption.map fun final =>
        (final.child.uncoreInForce, final.direct.uncoreInForce)) =
      some (⟨.value 1, .value 1⟩, ⟨.value 1, .value 2⟩) := by
    decide +kernel
  rw [ended] at limits
  have child : final.child.uncoreInForce = ⟨.value 1, .value 1⟩ := congrArg Prod.fst (Option.some.inj limits)
  have direct : final.direct.uncoreInForce = ⟨.value 1, .value 2⟩ := congrArg Prod.snd (Option.some.inj limits)
  have uncore : final.child.uncoreInForce = final.direct.uncoreInForce := congrArg Prod.snd same
  rw [child, direct] at uncore
  revert uncore
  decide +kernel

end Forwarding

end FrequencyMap

end Geopm
