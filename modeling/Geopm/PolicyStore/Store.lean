import Geopm.Library.Number
import Geopm.Library.Run
import Geopm.Library.SqlTable

namespace Geopm

/-! `PolicyStoreImp`: policies as rows of two tables. -/

namespace PolicyStore

def nul : Char := Char.ofNat 0

/-- The name of an agent or of a profile, which callers have as a C string. -/
structure Name where
  chars : List Char
  terminated : nul ∉ chars
deriving DecidableEq

/-- `bind_value_to_statement` of a text, which is bound up to its terminator. -/
def Name.bound (name : Name) : List Char := name.chars.takeWhile fun char => char ≠ nul

/-- `bind_value_to_statement` of a number, where SQLite stores `NULL` for what is not one. -/
def bindValue : Number → Option ℚ
  | .nan => none
  | .value value => some value

/-- `sqlite3_column_type` and `sqlite3_column_double`. -/
def columnValue : Option ℚ → Number
  | none => .nan
  | some value => .value value

/-- A row of a table with "PRIMARY KEY (agent, offset)" or "PRIMARY KEY (profile, agent, offset)". -/
structure PolicyRow (Key : Type) where
  key : Key
  offset : Nat
  value : Option ℚ
deriving Repr, DecidableEq

def PolicyRow.primaryKey {Key : Type} (row : PolicyRow Key) : Key × Nat := (row.key, row.offset)

inductive StoreError where
  /-- the name "has not been registered" -/
  | notRegistered
  /-- "invalid policy for ... agent." -/
  | invalidPolicy
  /-- "Error beginning a transaction: " -/
  | beginning
  /-- "Error committing a transaction: " -/
  | committing
  /-- "Error replacing an existing policy" -/
  | replacing
  /-- "Error setting the best policy" or "Error setting the default policy" -/
  | setting
  /-- "No policy found for profile ... with agent ..." -/
  | notFound
deriving Repr, DecidableEq

section Statements

variable {Key : Type} [DecidableEq Key]

/-- `sqlite_results_to_policy_vector`. -/
def policyVector (rows : List (PolicyRow Key)) : List Number :=
  rows.foldl (fun policy row =>
    policy ++ List.replicate (row.offset - policy.length) .nan ++ [columnValue row.value]) []

/-- The query of the policy of a key, whose rows come in the order of the primary key. -/
def queryPolicy (key : Key) (rows : List (PolicyRow Key)) : List Number :=
  policyVector (SqlTable.select (fun row next => row.offset ≤ next.offset) (fun row => row.key = key) rows)

/-- The loop of `INSERT` statements. The one that fails, if any, changes nothing. -/
def insertValues (fault : Option Nat) (key : Key) :
    Nat → List Number → List (PolicyRow Key) → Except StoreError Unit × List (PolicyRow Key)
  | _, [], rows => (.ok (), rows)
  | offset, value :: rest, rows =>
      if fault = some (offset + 1) then (.error .setting, rows)
      else match SqlTable.insert PolicyRow.primaryKey ⟨key, offset, bindValue value⟩ rows with
        | none => (.error .setting, rows)
        | some inserted => insertValues fault key (offset + 1) rest inserted

/-- The `DELETE` statement and the loop. The statements are numbered from zero on. -/
def replacePolicy (fault : Option Nat) (key : Key) (policy : List Number) (rows : List (PolicyRow Key)) :
    Except StoreError Unit × List (PolicyRow Key) :=
  if fault = some 0 then (.error .replacing, rows)
  else insertValues fault key 0 policy (SqlTable.delete (fun row => row.key = key) rows)

end Statements

structure Database where
  /-- by profile and agent -/
  bestPolicies : List (PolicyRow (List Char × List Char))
  /-- by agent -/
  defaultPolicies : List (PolicyRow (List Char))
deriving Repr, DecidableEq

/-- A connection, with the database as it sees it. -/
structure Store where
  database : Database
  /-- the database at the beginning of the transaction that is open -/
  transaction : Option Database
deriving Repr, DecidableEq

inductive Call where
  | setBest (agent profile : Name) (policy : List Number)
  | setDefault (agent : Name) (policy : List Number)
deriving DecidableEq

def Call.agent : Call → Name
  | .setBest agent _ _ => agent
  | .setDefault agent _ => agent

def Call.policy : Call → List Number
  | .setBest _ _ policy => policy
  | .setDefault _ policy => policy

/-- The agent is registered, and its policy is no shorter than the vector. -/
def Call.Fits (numPolicy : Name → Option Nat) (call : Call) : Prop :=
  ∃ count, numPolicy call.agent = some count ∧ call.policy.length ≤ count

namespace Store

/-- The constructor, on a new file. -/
def new : Store := ⟨⟨[], []⟩, none⟩

/-- `begin_transaction_or_throw`, which SQLite refuses within a transaction. -/
def beginTransaction (store : Store) : Except StoreError Store :=
  match store.transaction with
  | some _ => .error .beginning
  | none => .ok { store with transaction := some store.database }

/-- `commit_transaction_or_throw`. -/
def commitTransaction (store : Store) : Except StoreError Unit × Store :=
  match store.transaction with
  | some _ => (.ok (), { store with transaction := none })
  | none => (.error .committing, store)

/-- `set_best` and `set_default`: the check of the vector and the transaction around the statements. -/
def update (numPolicy : Name → Option Nat) (agent : Name) (policy : List Number)
    (statements : Database → Except StoreError Unit × Database) (store : Store) : Except StoreError Unit × Store :=
  match numPolicy agent with
  | none => (.error .notRegistered, store)
  | some count =>
      if count < policy.length then (.error .invalidPolicy, store)
      else match store.beginTransaction with
        | .error reason => (.error reason, store)
        | .ok begun =>
            match statements begun.database with
            | (.error reason, database) => (.error reason, { begun with database })
            | (.ok (), database) => commitTransaction { begun with database }

/-- `set_best`. -/
def setBest (numPolicy : Name → Option Nat) (fault : Option Nat) (agent profile : Name) (policy : List Number)
    (store : Store) : Except StoreError Unit × Store :=
  store.update numPolicy agent policy fun database =>
    let replaced := replacePolicy fault (profile.bound, agent.bound) policy database.bestPolicies
    (replaced.1, { database with bestPolicies := replaced.2 })

/-- `set_default`. -/
def setDefault (numPolicy : Name → Option Nat) (fault : Option Nat) (agent : Name) (policy : List Number)
    (store : Store) : Except StoreError Unit × Store :=
  store.update numPolicy agent policy fun database =>
    let replaced := replacePolicy fault agent.bound policy database.defaultPolicies
    (replaced.1, { database with defaultPolicies := replaced.2 })

/-- A call in which the statement with the number of the fault, if any, fails. -/
def call (numPolicy : Name → Option Nat) (fault : Option Nat) (store : Store) : Call → Except StoreError Unit × Store
  | .setBest agent profile policy => store.setBest numPolicy fault agent profile policy
  | .setDefault agent policy => store.setDefault numPolicy fault agent policy

/-- `get_best`. -/
def getBest (numPolicy : Name → Option Nat) (store : Store) (agent profile : Name) : Except StoreError (List Number) :=
  let best := queryPolicy (profile.bound, agent.bound) store.database.bestPolicies
  let policy := if best = [] then queryPolicy agent.bound store.database.defaultPolicies else best
  match numPolicy agent with
  | none => .error .notRegistered
  | some count =>
      if policy = [] ∧ count ≠ 0 then .error .notFound
      else .ok (policy ++ List.replicate (count - policy.length) .nan)

end Store

section Statements

variable {Key : Type} [DecidableEq Key] {key : Key} {rows : List (PolicyRow Key)} {policy : List Number} {offset : Nat}

/-- The rows of a policy from an offset on. -/
def rowsFrom (key : Key) (offset : Nat) : List Number → List (PolicyRow Key)
  | [] => []
  | value :: rest => ⟨key, offset, bindValue value⟩ :: rowsFrom key (offset + 1) rest

theorem columnValue_bindValue (value : Number) : columnValue (bindValue value) = value := by
  cases value <;> rfl

omit [DecidableEq Key] in
theorem mem_rowsFrom {row : PolicyRow Key} (member : row ∈ rowsFrom key offset policy) :
    row.key = key ∧ offset ≤ row.offset := by
  induction policy generalizing offset with
  | nil => cases member
  | cons value rest ih =>
      cases member with
      | head => exact ⟨rfl, Nat.le_refl _⟩
      | tail _ later => exact ⟨(ih later).1, Nat.le_of_succ_le (ih later).2⟩

omit [DecidableEq Key] in
theorem rowsFrom_sorted : (rowsFrom key offset policy).Pairwise fun row next => row.offset ≤ next.offset := by
  induction policy generalizing offset with
  | nil => exact .nil
  | cons value rest ih => exact .cons (fun _ later => Nat.le_of_succ_le (mem_rowsFrom later).2) ih

omit [DecidableEq Key] in
/-- The rows of a policy give it back, with nothing to fill in. -/
theorem policyVector_rowsFrom : policyVector (rowsFrom key 0 policy) = policy := by
  have each (start rest : List Number) : (rowsFrom key start.length rest).foldl (fun policy row =>
      policy ++ List.replicate (row.offset - policy.length) .nan ++ [columnValue row.value]) start = start ++ rest := by
    induction rest generalizing start with
    | nil => exact (List.append_nil start).symm
    | cons value rest ih =>
        have next := ih (start ++ [value])
        rw [List.length_append, List.length_singleton] at next
        rw [rowsFrom, List.foldl_cons, Nat.sub_self, List.replicate_zero, List.append_nil, columnValue_bindValue, next,
          List.append_assoc, List.singleton_append]
  exact each [] policy

/-- A table has exactly the rows of a policy for a key. -/
def HasPolicy (rows : List (PolicyRow Key)) (key : Key) (policy : List Number) : Prop :=
  (rows.filter fun row => row.key = key) = rowsFrom key 0 policy

theorem HasPolicy.queryPolicy (has : HasPolicy rows key policy) : queryPolicy key rows = policy := by
  rw [PolicyStore.queryPolicy, SqlTable.select_sorted (by rw [has]; exact rowsFrom_sorted), has, policyVector_rowsFrom]

/-- The loop inserts the rows that are not there. -/
theorem insertValues_ok (absent : ∀ row ∈ rows, row.key = key → row.offset < offset) :
    insertValues none key offset policy rows = (.ok (), rows ++ rowsFrom key offset policy) := by
  induction policy generalizing offset rows with
  | nil => rw [insertValues, rowsFrom, List.append_nil]
  | cons value rest ih =>
      have new (held : PolicyRow Key) (member : held ∈ rows) :
          held.primaryKey ≠ (⟨key, offset, bindValue value⟩ : PolicyRow Key).primaryKey := by
        intro same
        rw [PolicyRow.primaryKey, PolicyRow.primaryKey, Prod.mk.injEq] at same
        exact absurd same.2 (absent held member same.1).ne
      rw [insertValues, if_neg (by simp), SqlTable.insert_new new]
      have later (row : PolicyRow Key) (member : row ∈ rows ++ [⟨key, offset, bindValue value⟩]) (same : row.key = key) :
          row.offset < offset + 1 := by
        rcases List.mem_append.mp member with old | last
        · exact Nat.lt_succ_of_lt (absent row old same)
        · rw [List.mem_singleton.mp last]
          exact Nat.lt_succ_self offset
      simp only [ih later, rowsFrom, List.append_assoc, List.singleton_append]

/-- A replacement leaves exactly the new policy for the key, and the other keys as they are. -/
theorem replacePolicy_ok (key : Key) (policy : List Number) (rows : List (PolicyRow Key)) :
    ∃ replaced, replacePolicy none key policy rows = (.ok (), replaced) ∧ HasPolicy replaced key policy ∧
      ∀ other, other ≠ key → ∀ held, HasPolicy rows other held → HasPolicy replaced other held := by
  have absent (row : PolicyRow Key) (member : row ∈ SqlTable.delete (fun row => row.key = key) rows)
      (same : row.key = key) : row.offset < 0 := by
    have deleted := of_decide_eq_true (List.mem_filter.mp member).2
    exact absurd same deleted
  refine ⟨_, (if_neg (by simp)).trans (insertValues_ok absent), ?_, fun other different held has => ?_⟩
  · rw [HasPolicy, List.filter_append, SqlTable.filter_delete_self, List.nil_append, List.filter_eq_self]
    exact fun row member => decide_eq_true (mem_rowsFrom member).1
  · have none : ((rowsFrom key 0 policy).filter fun row => row.key = other) = [] := by
      rw [List.filter_eq_nil_iff]
      intro row member found
      exact different ((of_decide_eq_true found).symm.trans (mem_rowsFrom member).1)
    have apart (row : PolicyRow Key) (found : row.key = other) : ¬ row.key = key :=
      fun same => different (found.symm.trans same)
    rw [HasPolicy, List.filter_append, none, List.append_nil, SqlTable.filter_delete_other apart]
    exact has

end Statements

end PolicyStore

end Geopm
