import Geopm.FrequencyValidation

namespace Geopm

/-! `EnergyEfficientAgent` above level 0: which policies it sends to its children. -/

namespace EnergyEfficient

/-- A policy with a value for each field. -/
structure Policy where
  freqMin : ℚ
  freqMax : ℚ
  perfMargin : ℚ
  freqFixed : ℚ
deriving Repr, DecidableEq

/-- A policy as it arrives. -/
structure Request where
  freqMin : Number
  freqMax : Number
  perfMargin : Number
  freqFixed : Number
deriving Repr, DecidableEq

inductive PolicyError where
  /-- "performance margin must be between 0.0 and 1.0." -/
  | perfMargin
  | frequency (reason : FrequencyPolicyError)
deriving Repr, DecidableEq

/-- `EnergyEfficientAgent`, as far as it holds policies. -/
structure Agent where
  freqGovernor : FrequencyGovernor
  perfMargin : ℚ
  doSendPolicy : Bool
  /-- "CPUINFO::FREQ_STICKER" -/
  freqSticker : ℚ
  /-- "FREQUENCY_MAX" of the board -/
  frequencyMax : ℚ

namespace Agent

/-- `M_POLICY_PERF_MARGIN_DEFAULT`. -/
def perfMarginDefault : ℚ := 1 / 10

/-- The constructor. -/
def new (freqGovernor : FrequencyGovernor) (freqSticker frequencyMax : ℚ) : Agent :=
  ⟨freqGovernor, perfMarginDefault, false, freqSticker, frequencyMax⟩

/-- The performance margin that `validate_policy` leaves in the policy. -/
def validMargin : Number → Except PolicyError ℚ
  | .nan => .ok perfMarginDefault
  | .value perfMargin => if perfMargin < 0 ∨ 1 < perfMargin then .error .perfMargin else .ok perfMargin

/-- `validate_policy`. -/
def validatePolicy (agent : Agent) (policy : Request) : Except PolicyError Policy := do
  let perfMargin ← validMargin policy.perfMargin
  match agent.freqGovernor.validatePolicy agent.freqSticker policy.freqMin policy.freqMax with
  | .error reason => .error (.frequency reason)
  | .ok (freqMin, freqMax) => .ok ⟨freqMin, freqMax, perfMargin, policy.freqFixed.getD agent.frequencyMax⟩

/-- `update_policy`, which tells whether the frequency bounds have changed. -/
def updatePolicy (agent : Agent) (inPolicy : Policy) : Except GovernorError Bool × Agent :=
  match agent.freqGovernor.setFrequencyBounds inPolicy.freqMin inPolicy.freqMax with
  | .error reason => (.error reason, { agent with perfMargin := inPolicy.perfMargin })
  | .ok (changed, freqGovernor) => (.ok changed, { agent with perfMargin := inPolicy.perfMargin, freqGovernor })

/-- `split_policy`. -/
def splitPolicy (agent : Agent) (inPolicy : Policy) (outPolicy : List Policy) :
    Except GovernorError (List Policy) × Agent :=
  match agent.updatePolicy inPolicy with
  | (.error reason, updated) => (.error reason, updated)
  | (.ok doSendPolicy, updated) =>
      (.ok (if doSendPolicy then outPolicy.map fun _ => inPolicy else outPolicy), { updated with doSendPolicy })

end Agent

/-- A parent, the vectors for its children and the last policy that was sent to these. -/
structure Forwarding where
  parent : Agent
  outPolicy : List Policy
  received : Option Policy

namespace Forwarding

/-- Before the first policy. Above level 0 no control is pushed. -/
def start (freqGovernor : FrequencyGovernor) (freqSticker frequencyMax : ℚ) (outPolicy : List Policy) : Forwarding :=
  ⟨.new freqGovernor freqSticker frequencyMax, outPolicy, none⟩

/-- A validated policy is given to `split_policy`, and sent if `do_send_policy` is true. -/
def split (state : Forwarding) (inPolicy : Policy) : Forwarding :=
  match state.parent.splitPolicy inPolicy state.outPolicy with
  | (.error _, parent) => { state with parent }
  | (.ok outPolicy, parent) =>
      { parent, outPolicy, received := if parent.doSendPolicy then outPolicy.head? else state.received }

/-- A policy arrives. One that is not valid is given to nobody. -/
def step (state : Forwarding) (request : Request) : Forwarding :=
  match state.parent.validatePolicy request with
  | .error _ => state
  | .ok inPolicy => state.split inPolicy

/-- The policy differs from what the children have, if they have one. -/
def IsNews (state : Forwarding) (policy : Policy) : Prop :=
  ∀ last, state.received = some last →
    policy.freqMin ≠ last.freqMin ∨ policy.freqMax ≠ last.freqMax ∨ policy.perfMargin ≠ last.perfMargin

/-- A valid policy that is news is copied for every child and sent. -/
def Forwards (state : Forwarding) (request : Request) : Prop :=
  ∀ policy, state.parent.validatePolicy request = .ok policy → state.IsNews policy →
    (state.parent.splitPolicy policy state.outPolicy).1 = .ok (state.outPolicy.map fun _ => policy) ∧
      (state.parent.splitPolicy policy state.outPolicy).2.doSendPolicy = true

/-- The frequency bounds that the children have, or those of the platform. -/
def bounds (state : Forwarding) : ℚ × ℚ :=
  match state.received with
  | none => (state.parent.freqGovernor.platFreqMin, state.parent.freqGovernor.platFreqMax)
  | some last => (last.freqMin, last.freqMax)

/-- A valid policy that is news has other frequency bounds, and these are in order. -/
def ChangesBounds (state : Forwarding) (request : Request) : Prop :=
  ∀ policy, state.parent.validatePolicy request = .ok policy → state.IsNews policy →
    policy.freqMin ≤ policy.freqMax ∧ (policy.freqMin, policy.freqMax) ≠ state.bounds

/-- The bounds of the governor are those that the children have. -/
structure Agrees (state : Forwarding) : Prop where
  some_child : state.outPolicy ≠ []
  within : state.parent.freqGovernor.Within
  bounds : (state.parent.freqGovernor.freqMin, state.parent.freqGovernor.freqMax) = state.bounds

variable {state : Forwarding} {policy : Policy} {request : Request} {requests : List Request}

theorem agrees_start {platFreqMin platFreqMax freqSticker frequencyMax : ℚ} {controls : List FrequencyControl}
    {outPolicy : List Policy} (some_child : outPolicy ≠ []) (ordered : platFreqMin ≤ platFreqMax) :
    (start (.new platFreqMin platFreqMax controls ordered) freqSticker frequencyMax outPolicy).Agrees :=
  ⟨some_child, FrequencyGovernor.within_new, rfl⟩

/-- What a valid policy asks for is within the limits of the platform. -/
theorem valid_within (within : state.parent.freqGovernor.Within)
    (valid : state.parent.validatePolicy request = .ok policy) :
    state.parent.freqGovernor.platFreqMin ≤ policy.freqMin ∧ policy.freqMax ≤ state.parent.freqGovernor.platFreqMax := by
  rw [Agent.validatePolicy] at valid
  obtain ⟨margin, _, valid⟩ := Transition.ok_of_bind valid
  split at valid
  · cases valid
  · next low high validated =>
      cases valid
      rw [FrequencyGovernor.validatePolicy] at validated
      split at validated
      · cases validated
      · cases validated
        constructor
        · simp only
          split
          · exact within.lower
          · next above => exact within.lower.trans (not_lt.mp above)
        · simp only
          split
          · exact within.upper
          · next below => exact (not_lt.mp below).trans within.upper

/-- What `update_policy` makes of the bounds of a valid policy. -/
theorem Agrees.updatePolicy (agrees : state.Agrees) (valid : state.parent.validatePolicy request = .ok policy) :
    if policy.freqMin ≤ policy.freqMax then
      ∃ freqGovernor : FrequencyGovernor,
        state.parent.updatePolicy policy = (.ok (decide ((policy.freqMin, policy.freqMax) ≠ state.bounds)),
          { state.parent with perfMargin := policy.perfMargin, freqGovernor }) ∧
        freqGovernor.Within ∧ (freqGovernor.freqMin, freqGovernor.freqMax) = (policy.freqMin, policy.freqMax) ∧
        freqGovernor.platFreqMin = state.parent.freqGovernor.platFreqMin ∧
        freqGovernor.platFreqMax = state.parent.freqGovernor.platFreqMax
    else state.parent.updatePolicy policy = (.error .invalidBounds, { state.parent with perfMargin := policy.perfMargin }) := by
  obtain ⟨lower, upper⟩ := valid_within agrees.within valid
  rw [Agent.updatePolicy, FrequencyGovernor.setFrequencyBounds]
  split
  · next ordered =>
      have accepted : ¬ (policy.freqMin < state.parent.freqGovernor.platFreqMin ∨
          state.parent.freqGovernor.platFreqMax < policy.freqMax ∨ policy.freqMax < policy.freqMin) := by
        simp only [not_or, not_lt]
        exact ⟨lower, upper, ordered⟩
      rw [dif_neg accepted, ← agrees.bounds]
      by_cases changed : state.parent.freqGovernor.freqMin ≠ policy.freqMin ∨
          state.parent.freqGovernor.freqMax ≠ policy.freqMax
      case pos =>
          rw [if_pos changed]
          have other : (policy.freqMin, policy.freqMax) ≠
              (state.parent.freqGovernor.freqMin, state.parent.freqGovernor.freqMax) := by
            intro same
            rw [Prod.mk.injEq] at same
            exact changed.elim (fun differs => differs same.1.symm) fun differs => differs same.2.symm
          simp only [other, ne_eq, not_false_eq_true, decide_true]
          exact ⟨_, rfl, ⟨lower, upper⟩, rfl, rfl, rfl⟩
      case neg =>
          obtain ⟨minSame, maxSame⟩ := not_or.mp changed
          rw [if_neg changed, not_not.mp minSame, not_not.mp maxSame]
          simp only [ne_eq, not_true_eq_false, decide_false]
          exact ⟨_, rfl, agrees.within, by rw [not_not.mp minSame, not_not.mp maxSame], rfl, rfl⟩
  · next crossed => rw [dif_pos (.inr (.inr (not_le.mp crossed)))]

/-- A policy that is news is forwarded exactly if its bounds are new. -/
theorem Agrees.forwards_iff (agrees : state.Agrees) : state.Forwards request ↔ state.ChangesBounds request := by
  refine forall_congr' fun policy => forall_congr' fun valid => forall_congr' fun _ => ?_
  have updated := agrees.updatePolicy valid
  rw [Agent.splitPolicy]
  split_ifs at updated with ordered
  · obtain ⟨freqGovernor, updated, _⟩ := updated
    rw [updated]
    by_cases other : (policy.freqMin, policy.freqMax) ≠ state.bounds
    · simp [other, ordered]
    · simp [not_not.mp other]
  · rw [updated]
    simp [ordered]

/-- Whatever is sent, the governor has the bounds that the children have. -/
theorem Agrees.step (agrees : state.Agrees) : (state.step request).Agrees := by
  rw [Forwarding.step]
  cases valid : state.parent.validatePolicy request with
  | error reason => exact agrees
  | ok policy =>
      have updated := agrees.updatePolicy valid
      simp only [split, Agent.splitPolicy]
      split_ifs at updated with ordered
      case neg =>
          rw [updated]
          exact ⟨agrees.some_child, agrees.within, agrees.bounds⟩
      case pos =>
          obtain ⟨freqGovernor, updated, within, bounds, platMin, platMax⟩ := updated
          rw [updated]
          by_cases other : (policy.freqMin, policy.freqMax) ≠ state.bounds
          case pos =>
              obtain ⟨head, rest, children⟩ := List.exists_cons_of_ne_nil agrees.some_child
              simp only [other, ne_eq, not_false_eq_true, decide_true, if_true, children, List.map_cons, List.head?_cons]
              exact ⟨List.cons_ne_nil _ _, within, bounds⟩
          case neg =>
              simp only [not_not.mp other, ne_eq, not_true_eq_false, decide_false, Bool.false_eq_true, if_false]
              refine ⟨agrees.some_child, within, bounds.trans ((not_not.mp other).trans ?_)⟩
              rw [Forwarding.bounds, Forwarding.bounds]
              simp only [platMin, platMax]

/-- Every policy that is news is forwarded exactly if every policy that is news has new bounds. -/
theorem forwards_run_iff {platFreqMin platFreqMax : ℚ} (ordered : platFreqMin ≤ platFreqMax) {outPolicy : List Policy}
    (some_child : outPolicy ≠ []) (freqSticker frequencyMax : ℚ) (requests : List Request) :
    Transition.Permitted Forwarding.step Forwards
        (start (.new platFreqMin platFreqMax [] ordered) freqSticker frequencyMax outPolicy) requests ↔
      Transition.Permitted Forwarding.step ChangesBounds
        (start (.new platFreqMin platFreqMax [] ordered) freqSticker frequencyMax outPolicy) requests :=
  Transition.permitted_congr (fun _ _ (agrees : Agrees _) _ => agrees.step) (fun _ _ agrees => agrees.forwards_iff)
    (agrees_start some_child ordered)

theorem forwards_run_narrower :
    Transition.Permitted Forwarding.step Forwards
        (start (.new 1 3 [] FrequencyGovernor.one_le_three) 2 3 [⟨0, 0, 0, 0⟩]) [⟨.nan, .nan, .nan, .nan⟩] ↔
      Transition.Permitted Forwarding.step ChangesBounds
        (start (.new 1 3 [] FrequencyGovernor.one_le_three) 2 3 [⟨0, 0, 0, 0⟩]) [⟨.nan, .nan, .nan, .nan⟩] :=
  forwards_run_iff FrequencyGovernor.one_le_three (by decide) 2 3 [⟨.nan, .nan, .nan, .nan⟩]

/-- A first policy with the bounds of the platform is not sent. -/
theorem not_forwards_first :
    ¬ ∀ (platFreqMin platFreqMax : ℚ) (ordered : platFreqMin ≤ platFreqMax) (outPolicy : List Policy),
      outPolicy ≠ [] → ∀ (freqSticker frequencyMax : ℚ) (requests : List Request),
      Transition.Permitted Forwarding.step Forwards
        (start (.new platFreqMin platFreqMax [] ordered) freqSticker frequencyMax outPolicy) requests := by
  intro all
  have valid : (start (.new 1 3 [] FrequencyGovernor.one_le_three) 2 3 [⟨0, 0, 0, 0⟩]).parent.validatePolicy
      ⟨.value 1, .value 3, .nan, .nan⟩ = .ok ⟨1, 3, 1 / 10, 3⟩ := by
    decide +kernel
  have forwarded := all 1 3 FrequencyGovernor.one_le_three [⟨0, 0, 0, 0⟩] (by decide) 2 3 [⟨.value 1, .value 3, .nan, .nan⟩]
  have sent := (forwarded.1 _ valid (fun _ received => by cases received)).2
  revert sent
  decide +kernel

end Forwarding

end EnergyEfficient

end Geopm
