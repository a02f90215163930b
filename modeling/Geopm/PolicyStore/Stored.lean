import Geopm.PolicyStore.Store
import Mathlib.Data.List.TakeWhile

namespace Geopm

/-! `PolicyStoreImp` gives back what was stored. -/

namespace PolicyStore

/-- The policy that a call sets as the best one of a pair. -/
def Call.best? (agent profile : Name) : Call → Option (List Number)
  | .setBest other another policy => if other = agent ∧ another = profile then some policy else none
  | .setDefault _ _ => none

/-- The policy that a call sets as the default one of an agent. -/
def Call.default? (agent : Name) : Call → Option (List Number)
  | .setBest _ _ _ => none
  | .setDefault other policy => if other = agent then some policy else none

/-- The best policy that was set last for a pair, or none. -/
def lastBest (calls : List Call) (agent profile : Name) : List Number :=
  ((calls.filterMap (Call.best? agent profile)).getLast?).getD []

/-- The default policy that was set last for an agent, or none. -/
def lastDefault (calls : List Call) (agent : Name) : List Number :=
  ((calls.filterMap (Call.default? agent)).getLast?).getD []

/-- The policy for a pair: the best one, or else the default one, if these have values. -/
def policyFor (calls : List Call) (agent profile : Name) : List Number :=
  if lastBest calls agent profile = [] then lastDefault calls agent else lastBest calls agent profile

/-- A policy is padded. None is enough for an agent without policies alone. -/
def answer (count : Nat) (policy : List Number) : Except StoreError (List Number) :=
  if policy = [] ∧ count ≠ 0 then .error .notFound else .ok (policy ++ List.replicate (count - policy.length) .nan)

variable {numPolicy : Name → Option Nat} {calls : List Call} {call : Call} {store : Store} {agent profile other another : Name}
  {policy : List Number}

theorem bound_eq (name : Name) : name.bound = name.chars := by
  rw [Name.bound, List.takeWhile_eq_self_iff]
  intro char member
  exact decide_eq_true fun same => name.terminated (same ▸ member)

/-- Names are told apart by what is bound. -/
theorem bound_inj : other.bound = agent.bound ↔ other = agent := by
  constructor
  · intro same
    rw [bound_eq, bound_eq] at same
    cases other
    cases agent
    cases same
    rfl
  · intro same
    rw [same]

theorem lastBest_concat : lastBest (calls ++ [call]) agent profile =
    (call.best? agent profile).getD (lastBest calls agent profile) := by
  rw [lastBest, lastBest, List.filterMap_append]
  cases found : call.best? agent profile with
  | none => simp [found]
  | some policy => simp [found]

theorem lastDefault_concat : lastDefault (calls ++ [call]) agent =
    (call.default? agent).getD (lastDefault calls agent) := by
  rw [lastDefault, lastDefault, List.filterMap_append]
  cases found : call.default? agent with
  | none => simp [found]
  | some policy => simp [found]

/-- The tables hold what was set last, and no transaction is open. -/
structure Stored (calls : List Call) (store : Store) : Prop where
  closed : store.transaction = none
  best : ∀ agent profile, HasPolicy store.database.bestPolicies (profile.bound, agent.bound) (lastBest calls agent profile)
  default : ∀ agent, HasPolicy store.database.defaultPolicies agent.bound (lastDefault calls agent)

namespace Stored

theorem new : Stored [] Store.new where
  closed := rfl
  best := fun _ _ => rfl
  default := fun _ => rfl

/-- An update that fits is committed. -/
theorem update {statements : Database → Except StoreError Unit × Database} {database : Database}
    (stored : Stored calls store) (fits : ∃ count, numPolicy agent = some count ∧ policy.length ≤ count)
    (done : statements store.database = (.ok (), database)) :
    store.update numPolicy agent policy statements = (.ok (), ⟨database, none⟩) := by
  obtain ⟨count, registered, short⟩ := fits
  simp only [Store.update, registered, if_neg (not_lt.mpr short), Store.beginTransaction, stored.closed, done,
    Store.commitTransaction]

/-- A call that fits is successful, and its policy is held. -/
theorem next (stored : Stored calls store) (fits : call.Fits numPolicy) :
    ∃ next, store.call numPolicy none call = (.ok (), next) ∧ Stored (calls ++ [call]) next := by
  cases call with
  | setBest agent profile policy =>
      obtain ⟨rows, replaced, has, others⟩ :=
        replacePolicy_ok (profile.bound, agent.bound) policy store.database.bestPolicies
      have done : store.call numPolicy none (.setBest agent profile policy) =
          (.ok (), ⟨{ store.database with bestPolicies := rows }, none⟩) := by
        rw [Store.call, Store.setBest]
        exact stored.update fits (by simp only [replaced])
      refine ⟨_, done, rfl, fun other another => ?_, fun other => ?_⟩
      · rw [lastBest_concat, Call.best?]
        by_cases same : agent = other ∧ profile = another
        · rw [if_pos same, ← same.1, ← same.2]
          exact has
        · rw [if_neg same]
          refine others _ (fun bound => ?_) _ (stored.best other another)
          rw [Prod.mk.injEq, bound_inj, bound_inj] at bound
          exact same ⟨bound.2.symm, bound.1.symm⟩
      · rw [lastDefault_concat]
        exact stored.default other
  | setDefault agent policy =>
      obtain ⟨rows, replaced, has, others⟩ := replacePolicy_ok agent.bound policy store.database.defaultPolicies
      have done : store.call numPolicy none (.setDefault agent policy) =
          (.ok (), ⟨{ store.database with defaultPolicies := rows }, none⟩) := by
        rw [Store.call, Store.setDefault]
        exact stored.update fits (by simp only [replaced])
      refine ⟨_, done, rfl, fun other another => ?_, fun other => ?_⟩
      · rw [lastBest_concat]
        exact stored.best other another
      · rw [lastDefault_concat, Call.default?]
        by_cases same : agent = other
        · rw [if_pos same, ← same]
          exact has
        · rw [if_neg same]
          exact others _ (fun bound => same (bound_inj.mp bound).symm) _ (stored.default other)

theorem getBest {count : Nat} (stored : Stored calls store) (registered : numPolicy agent = some count) :
    store.getBest numPolicy agent profile = answer count (policyFor calls agent profile) := by
  simp only [Store.getBest, (stored.best agent profile).queryPolicy, (stored.default agent).queryPolicy, registered,
    answer, policyFor]
  rfl

theorem run (stored : Stored calls store) {more : List Call} (fit : ∀ call ∈ more, call.Fits numPolicy) :
    Transition.Permitted (fun store call => (store.call numPolicy none call).2)
        (fun store call => (store.call numPolicy none call).1 = .ok ()) store more ∧
      Stored (calls ++ more) (Transition.run (fun store call => (store.call numPolicy none call).2) store more) := by
  induction more generalizing calls store with
  | nil =>
      rw [List.append_nil]
      exact ⟨trivial, stored⟩
  | cons call rest ih =>
      rw [List.forall_mem_cons] at fit
      obtain ⟨next, done, stored⟩ := stored.next fit.1
      obtain ⟨others, final⟩ := ih stored fit.2
      rw [List.append_assoc, List.singleton_append] at final
      rw [Transition.Permitted, Transition.run_cons, done]
      exact ⟨⟨rfl, others⟩, final⟩

end Stored

/-- After any calls with vectors that fit, which are all successful, the policy for a pair is the best one that was
set last, or else the default one, padded to the number of policies of the agent. -/
theorem getBest_run {count : Nat} (fit : ∀ call ∈ calls, call.Fits numPolicy) (registered : numPolicy agent = some count)
    (profile : Name) :
    Transition.Permitted (fun store call => (store.call numPolicy none call).2)
        (fun store call => (store.call numPolicy none call).1 = .ok ()) Store.new calls ∧
      (Transition.run (fun store call => (store.call numPolicy none call).2) Store.new calls).getBest numPolicy agent profile =
        answer count (policyFor calls agent profile) := by
  obtain ⟨done, stored⟩ := Stored.new.run fit
  exact ⟨done, stored.getBest registered⟩

/-- A policy that is replaced by a shorter one with a value that is not a number. -/
theorem getBest_run_shorter :
    Transition.Permitted (fun store call => (store.call (fun _ => some 3) none call).2)
        (fun store call => (store.call (fun _ => some 3) none call).1 = .ok ()) Store.new
        [.setBest ⟨['a'], by decide⟩ ⟨['p'], by decide⟩ [.value 1, .value 2, .value 3],
          .setBest ⟨['a'], by decide⟩ ⟨['p'], by decide⟩ [.nan, .value 5]] ∧
      (Transition.run (fun store call => (store.call (fun _ => some 3) none call).2) Store.new
        [.setBest ⟨['a'], by decide⟩ ⟨['p'], by decide⟩ [.value 1, .value 2, .value 3],
          .setBest ⟨['a'], by decide⟩ ⟨['p'], by decide⟩ [.nan, .value 5]]).getBest (fun _ => some 3)
          ⟨['a'], by decide⟩ ⟨['p'], by decide⟩ =
        answer 3 (policyFor [.setBest ⟨['a'], by decide⟩ ⟨['p'], by decide⟩ [.value 1, .value 2, .value 3],
          .setBest ⟨['a'], by decide⟩ ⟨['p'], by decide⟩ [.nan, .value 5]] ⟨['a'], by decide⟩ ⟨['p'], by decide⟩) := by
  have first : Call.Fits (fun _ => some 3) (.setBest ⟨['a'], by decide⟩ ⟨['p'], by decide⟩
      [.value 1, .value 2, .value 3]) := ⟨3, rfl, Nat.le_refl 3⟩
  have second : Call.Fits (fun _ => some 3) (.setBest ⟨['a'], by decide⟩ ⟨['p'], by decide⟩ [.nan, .value 5]) :=
    ⟨3, rfl, Nat.le_succ 2⟩
  exact getBest_run (List.forall_mem_cons.mpr ⟨first, List.forall_mem_singleton.mpr second⟩) rfl _

/-- A default policy without values is not padded. -/
theorem not_getBest_padded :
    ¬ ∀ (numPolicy : Name → Option Nat) (calls : List Call) (agent profile : Name) (count : Nat) (default : List Number),
      (∀ call ∈ calls, call.Fits numPolicy) → numPolicy agent = some count → lastBest calls agent profile = [] →
      (calls.filterMap (Call.default? agent)).getLast? = some default →
      (Transition.run (fun store call => (store.call numPolicy none call).2) Store.new calls).getBest numPolicy agent profile =
        .ok (default ++ List.replicate (count - default.length) .nan) := by
  intro all
  have fits : Call.Fits (fun _ => some 1) (.setDefault ⟨['a'], by decide⟩ []) := ⟨1, rfl, Nat.zero_le 1⟩
  have padded := all (fun _ => some 1) [.setDefault ⟨['a'], by decide⟩ []] ⟨['a'], by decide⟩ ⟨['p'], by decide⟩ 1 []
    (List.forall_mem_singleton.mpr fits) rfl (by decide) (by decide)
  revert padded
  decide +kernel

end PolicyStore

end Geopm
