import Geopm.PolicyStore.Store

namespace Geopm

/-! `PolicyStoreImp` after a statement that failed. -/

namespace PolicyStore

/-- A call, and the number of its statement that fails, if one does. -/
structure Request where
  call : Call
  fault : Option Nat
deriving DecidableEq

/-- The connection after a call, which may have thrown. -/
def Store.step (numPolicy : Name → Option Nat) (store : Store) (request : Request) : Store :=
  (store.call numPolicy request.fault request.call).2

/-- A `DELETE` or an `INSERT` statement fails, and the call throws. -/
def Store.Fails (numPolicy : Name → Option Nat) (store : Store) (request : Request) : Prop :=
  (store.call numPolicy request.fault request.call).1 = .error .replacing ∨
    (store.call numPolicy request.fault request.call).1 = .error .setting

/-- What is read is what was read before, and a call whose statements succeed is accepted and has the effect that it
would have had before. -/
structure LeavesNoTrace (numPolicy : Name → Option Nat) (before after : Store) : Prop where
  reads : ∀ agent profile, after.getBest numPolicy agent profile = before.getBest numPolicy agent profile
  accepts : ∀ call : Call, call.Fits numPolicy → (after.call numPolicy none call).1 = .ok ()
  effects : ∀ call : Call, call.Fits numPolicy →
    (after.call numPolicy none call).2.database = (before.call numPolicy none call).2.database

variable {numPolicy : Name → Option Nat} {store : Store} {request : Request} {call : Call} {agent : Name}
  {policy : List Number}

/-- A reason that comes from a statement. -/
def StoreError.OfStatement (reason : StoreError) : Prop := reason = .replacing ∨ reason = .setting

/-- What an update does: it is refused, or a statement fails in its transaction, or it is committed. -/
theorem update_cases (statements : Database → Except StoreError Unit × Database) :
    (∃ reason, store.update numPolicy agent policy statements = (.error reason, store) ∧ ¬ reason.OfStatement) ∨
    ((∃ count, numPolicy agent = some count ∧ policy.length ≤ count) ∧ ∃ result database,
      statements store.database = (result, database) ∧
        store.update numPolicy agent policy statements =
          (result, ⟨database, match result with | .ok () => none | .error _ => some store.database⟩)) := by
  rw [Store.update]
  cases registered : numPolicy agent with
  | none => exact .inl ⟨_, rfl, by simp [StoreError.OfStatement]⟩
  | some count =>
      by_cases long : count < policy.length
      case pos =>
          simp only [if_pos long]
          exact .inl ⟨_, rfl, by simp [StoreError.OfStatement]⟩
      case neg =>
          simp only [if_neg long, Store.beginTransaction]
          cases store.transaction with
          | some saved => exact .inl ⟨_, rfl, by simp [StoreError.OfStatement]⟩
          | none =>
              refine .inr ⟨⟨count, rfl, not_lt.mp long⟩, ?_⟩
              cases ran : statements store.database with
              | mk result database =>
                  refine ⟨result, database, rfl, ?_⟩
                  cases result with
                  | error reason => simp only [ran]
                  | ok done => simp only [ran, Store.commitTransaction]

/-- A statement that fails does so in a transaction, which is left open. -/
theorem update_fails {statements : Database → Except StoreError Unit × Database} {reason : StoreError}
    (failed : (store.update numPolicy agent policy statements).1 = .error reason) (statement : reason.OfStatement) :
    (∃ count, numPolicy agent = some count ∧ policy.length ≤ count) ∧
      (store.update numPolicy agent policy statements).2.transaction = some store.database := by
  rcases @update_cases numPolicy store agent policy statements with refused | executed
  · obtain ⟨other, refused, early⟩ := refused
    rw [refused] at failed
    cases failed
    exact absurd statement early
  · obtain ⟨fits, result, database, _, updated⟩ := executed
    rw [updated] at failed ⊢
    simp only at failed
    rw [failed]
    exact ⟨fits, rfl⟩

theorem Store.Fails.opens (fails : store.Fails numPolicy request) :
    request.call.Fits numPolicy ∧ (store.step numPolicy request).transaction = some store.database := by
  obtain ⟨reason, failed, statement⟩ : ∃ reason : StoreError,
      (store.call numPolicy request.fault request.call).1 = .error reason ∧ reason.OfStatement := by
    cases fails with
    | inl replacing => exact ⟨_, replacing, .inl rfl⟩
    | inr setting => exact ⟨_, setting, .inr rfl⟩
  obtain ⟨call, fault⟩ := request
  cases call with
  | setBest agent profile policy => exact update_fails failed statement
  | setDefault agent policy => exact update_fails failed statement

/-- Within a transaction every call is refused. -/
theorem update_open {statements : Database → Except StoreError Unit × Database} {saved : Database}
    (opened : store.transaction = some saved) : (store.update numPolicy agent policy statements).1 ≠ .ok () := by
  rw [Store.update]
  cases numPolicy agent with
  | none => simp
  | some count =>
      by_cases long : count < policy.length
      · simp [long]
      · simp [long, Store.beginTransaction, opened]

theorem call_open {saved : Database} (opened : store.transaction = some saved) :
    (store.call numPolicy none call).1 ≠ .ok () := by
  cases call with
  | setBest agent profile policy => exact update_open opened
  | setDefault agent policy => exact update_open opened

/-- After a statement that failed, the call itself is not accepted again. -/
theorem fails_leaves_trace (numPolicy : Name → Option Nat) (requests : List Request) (request : Request)
    (fails : (Transition.run (Store.step numPolicy) Store.new requests).Fails numPolicy request) :
    ¬ LeavesNoTrace numPolicy (Transition.run (Store.step numPolicy) Store.new requests)
      ((Transition.run (Store.step numPolicy) Store.new requests).step numPolicy request) := by
  intro untraced
  obtain ⟨fits, opened⟩ := fails.opens
  exact call_open opened (untraced.accepts request.call fits)

theorem fails_leaves_trace_first :
    ¬ LeavesNoTrace (fun _ => some 1) (Transition.run (Store.step fun _ => some 1) Store.new [])
      ((Transition.run (Store.step fun _ => some 1) Store.new []).step (fun _ => some 1)
        ⟨.setDefault ⟨['a'], by decide⟩ [.value 1], some 1⟩) :=
  fails_leaves_trace (fun _ => some 1) [] ⟨.setDefault ⟨['a'], by decide⟩ [.value 1], some 1⟩ (.inr (by decide +kernel))

/-- A default policy cannot be set after its `INSERT` has failed. -/
theorem not_leavesNoTrace_default :
    ¬ ∀ (numPolicy : Name → Option Nat) (requests : List Request) (request : Request),
      (Transition.run (Store.step numPolicy) Store.new requests).Fails numPolicy request →
      LeavesNoTrace numPolicy (Transition.run (Store.step numPolicy) Store.new requests)
        ((Transition.run (Store.step numPolicy) Store.new requests).step numPolicy request) := by
  intro all
  have untraced := all (fun _ => some 1) [] ⟨.setDefault ⟨['a'], by decide⟩ [.value 1], some 1⟩
    (.inr (by decide +kernel))
  have accepted := untraced.accepts (.setDefault ⟨['a'], by decide⟩ [.value 1]) ⟨1, rfl, Nat.le_refl 1⟩
  revert accepted
  decide +kernel

end PolicyStore

end Geopm
