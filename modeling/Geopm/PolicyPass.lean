import Geopm.FrequencyMapAgent
import Geopm.PolicySource
import Geopm.TreeComm.Down
import Geopm.TreeComm.Tree
import Mathlib.Algebra.BigOperators.Group.List.Lemmas

namespace Geopm

/-! A pass of `Controller::walk_down` over a tree of frequency map agents. -/

instance : Double Number where
  beq := Number.eq
  zero := .value 0
  one := .value 1
  nan := .nan
  nan_beq value := by cases value <;> rfl
  beq_symm {left right} equal := by
    cases left <;> cases right <;> simp_all [Number.eq, Number.compares]
  beq_trans {first second third} left right := by
    cases first <;> cases second <;> cases third <;> simp_all [Number.eq, Number.compares]
  zero_beq_zero := by decide +kernel
  one_beq_one := by decide +kernel
  zero_beq_one := by decide +kernel
  one_beq_zero := by decide +kernel

namespace FrequencyMap

open TreeComm Cartesian

inductive WalkError where
  | agent (reason : AgentError)
  | level (reason : LevelError)
deriving Repr, DecidableEq

/-- A policy of which nothing is known. -/
def blankPolicy : List Number := List.replicate numPolicy .nan

/-- `Controller`, as far as it passes policies down. What `adjust_platform` was called with last
is kept next to it. -/
structure Controller where
  inPolicy : List Number
  lastPolicy : List Number
  outPolicy : Nat → List (List Number)
  agent : Nat → Agent
  adjusted : Option (List Number)

/-- The controllers of all ranks, and the levels of their tree by the first rank of each
communicator. -/
structure Tree where
  controller : Nat → Controller
  levels : Nat → Nat → Level Number

/-- A controller on its way down the levels that it controls. -/
structure Walk where
  doSend : Bool
  controller : Controller
  levels : Nat → Nat → Level Number

section Definitions

variable (dims : List Nat) (split : (Nat → SplitCall) → Nat → List Nat) (source : PolicySource (List Number))
  (limits : Nat → ℚ × ℚ)

/-- `level_size` of a level of the tree. -/
def sizeOf (level : Nat) : Nat := (levelSize dims level).getD 0

/-- The first rank of the communicator of a rank, and the place of the rank in it. -/
def headOf (level rank : Nat) : Nat := (levelComm split dims level rank).headD 0
def placeOf (level rank : Nat) : Nat := (levelComm split dims level rank).idxOf rank

/-- The constructor, `create_agents` and `init_agents`. Each rank reads the file, if there is one. -/
def newController (rank : Nat) : Controller where
  inPolicy := match source with
    | .file policy => policy
    | .endpoint _ => blankPolicy
  lastPolicy := blankPolicy
  outPolicy level := List.replicate (sizeOf dims level) blankPolicy
  agent level := Agent.new.init level (limits rank).1 (limits rank).2
  adjusted := none

def newTree : Tree where
  controller := newController dims source limits
  levels level _ := .new (sizeOf dims level) 0 numPolicy

/-- The part of `walk_down` for the root. -/
def startRoot (controller : Controller) : Bool × Controller :=
  let read := source.read samePolicy controller.lastPolicy
  (read.1, { controller with inPolicy := source.policy, lastPolicy := read.2 })

/-- `receive_down` of a level. -/
def receiveLevel (rank level : Nat) (walk : Walk) : Walk :=
  let received := (walk.levels level (headOf dims split level rank)).receiveDown
    (placeOf dims split level rank) walk.controller.inPolicy
  { walk with
    doSend := received.1
    controller := { walk.controller with inPolicy := received.2 } }

/-- `validate_policy` and `split_policy` of the agent that controls a level. -/
def splitLevel (level : Nat) (walk : Walk) : Except WalkError Walk :=
  let controller := walk.controller
  if walk.doSend then
    match (controller.agent (level + 1)).validatePolicy controller.inPolicy with
    | .error reason => .error (.agent reason)
    | .ok _ =>
        match (controller.agent (level + 1)).splitPolicy controller.inPolicy
            (controller.outPolicy level) with
        | .error reason => .error (.agent reason)
        | .ok (agent, outPolicy) => .ok { walk with
            doSend := agent.doSendPolicy
            controller := { controller with
              agent := Function.update controller.agent (level + 1) agent
              outPolicy := Function.update controller.outPolicy level outPolicy } }
  else .ok walk

/-- `send_down` of a level. -/
def sendLevel (rank level : Nat) (walk : Walk) : Except WalkError Walk :=
  let head := headOf dims split level rank
  if walk.doSend then
    match (walk.levels level head).sendDown (walk.controller.outPolicy level) with
    | .error reason => .error (.level reason)
    | .ok next => .ok { walk with
        levels := Function.update walk.levels level (Function.update (walk.levels level) head next) }
  else .ok walk

/-- The body of the loop of `walk_down`. -/
def walkLevel (rank : Nat) (walk : Walk) (level : Nat) : Except WalkError Walk := do
  let walk ← splitLevel level walk
  let walk ← sendLevel dims split rank level walk
  pure (receiveLevel dims split rank level walk)

/-- The end of `walk_down`. -/
def adjust (controller : Controller) : Except WalkError Controller :=
  match (controller.agent 0).validatePolicy controller.inPolicy with
  | .error reason => .error (.agent reason)
  | .ok _ =>
      match (controller.agent 0).adjustPlatform controller.inPolicy with
      | .error reason => .error (.agent reason)
      | .ok agent => .ok { controller with
          agent := Function.update controller.agent 0 agent
          adjusted := some controller.inPolicy }

/-- The start of `walk_down`. -/
def startWalk (tree : Tree) (rank : Nat) : Walk :=
  let controller := tree.controller rank
  if numLevelCtl dims rank = dims.length then
    let started := startRoot source controller
    ⟨started.1, started.2, tree.levels⟩
  else
    receiveLevel dims split rank (numLevelCtl dims rank) ⟨false, controller, tree.levels⟩

/-- `walk_down`. -/
def walkDown (tree : Tree) (rank : Nat) : Except WalkError Tree := do
  let walk ← (List.range (numLevelCtl dims rank)).reverse.foldlM (walkLevel dims split rank)
    (startWalk dims split source tree rank)
  let controller ← adjust walk.controller
  pure ⟨Function.update tree.controller rank controller, walk.levels⟩

/-- All nodes walk down, one after the other. -/
def pass (order : List Nat) : Except WalkError Tree :=
  order.foldlM (walkDown dims split source) (newTree dims source limits)

/-- Each node is in the order, after its parent. -/
structure ParentsFirst (order : List Nat) : Prop where
  all : order.Perm (List.range dims.prod)
  after : ∀ before rank rest, order = before ++ rank :: rest →
    ∀ parent, IsParent split dims parent rank → parent ∈ before

/-- Each leaf has adjusted its platform to the policy of the root. -/
def Reaches (order : List Nat) : Prop :=
  ∃ final, pass dims split source limits order = .ok final ∧
    ∀ rank < dims.prod, (final.controller rank).adjusted = some source.policy

end Definitions

section Levels

variable {size rank level head : Nat} {policy : List Number} {source : PolicySource (List Number)}

/-- A level on which nothing has been sent. -/
def Quiet (level : Level Number) : Prop :=
  ∀ rank policy, level.receiveDown rank policy = (false, policy)

/-- A level on which a policy has been sent to all ranks. The call does not succeed where the
policy has a nan. -/
def Carries (policy : List Number) (size : Nat) (level : Level Number) : Prop :=
  ∀ rank < size, ∀ old, level.receiveDown rank old = (policy.all fun value => !isNan value, policy)

theorem quiet_new : Quiet (.new size 0 numPolicy) := by
  intro rank policy
  rfl

theorem all_not_nan : (policy.all fun value => !isNan value) = decide (NanFree policy) := by
  rw [Bool.eq_iff_iff, decide_eq_true_iff, List.all_eq_true]
  simp [NanFree]

theorem receiveDown_deliver {level : Level Number} (sized : policy.length = level.numSendDown)
    (old : List Number) : (level.deliver rank policy).receiveDown rank old =
      (policy.all fun value => !isNan value, policy) := by
  have flag : (level.deliver rank policy).policyMailbox rank 0 = 1 := by
    simp only [Level.deliver, Function.update_self]
    rw [Window.put_outside (by omega)]
    exact Window.put_singleton 1
  have values : Window.read ((level.deliver rank policy).policyMailbox rank) 1
      (level.deliver rank policy).numSendDown = policy := by
    simp only [Level.deliver, Function.update_self, ← sized, Window.read_put]
  rw [Level.receiveDown, flag, if_pos Double.one_beq_one, values]

theorem receiveDown_other {first second : Level Number}
    (mailbox : first.policyMailbox rank = second.policyMailbox rank)
    (numSendDown : first.numSendDown = second.numSendDown) (old : List Number) :
    first.receiveDown rank old = second.receiveDown rank old := by
  rw [Level.receiveDown, Level.receiveDown, mailbox, numSendDown]

/-- What the loop of `send_down` has done when some ranks are left. -/
structure Serving (policy : List Number) (child : Nat) (level : Level Number) : Prop where
  numSendDown : level.numSendDown = policy.length
  sent : ∀ rank < child, ∀ old,
    level.receiveDown rank old = (policy.all fun value => !isNan value, policy)
  history : ∀ rank, child ≤ rank → level.policyLast rank = List.replicate policy.length Double.nan

theorem Serving.serve {child : Nat} {level : Level Number} (serving : Serving policy child level)
    (filled : 0 < policy.length) : Serving policy (child + 1) (level.serve policy child) := by
  have different : (policy != level.policyLast child) = true := by
    rw [serving.history child (Nat.le_refl _), bne, vectors_nan filled]
    rfl
  rw [Level.serve, if_pos different]
  constructor
  case numSendDown => exact serving.numSendDown
  case sent =>
      intro rank before old
      by_cases same : rank = child
      · rw [same]
        exact receiveDown_deliver serving.numSendDown.symm old
      · rw [← serving.sent rank (by omega) old]
        exact receiveDown_other (Level.deliver_other same) rfl old
  case history =>
      intro rank after
      have other : rank ≠ child := by omega
      rw [← serving.history rank (by omega)]
      exact Function.update_of_ne other _ _

theorem Serving.loop {child count : Nat} {level : Level Number} (serving : Serving policy child level)
    (filled : 0 < policy.length) :
    Serving policy (child + count) (((List.replicate count policy).zipIdx child).foldl
      (fun level entry => level.serve entry.1 entry.2) level) := by
  induction count generalizing child level with
  | zero => exact serving
  | succ count ih =>
      rw [List.replicate_succ, List.zipIdx_cons, List.foldl_cons,
        show child + (count + 1) = child + 1 + count by omega]
      exact ih (serving.serve filled)

/-- The first policy that is sent arrives at all ranks. -/
theorem sendDown_new (positive : 0 < size) (sized : policy.length = numPolicy) :
    ∃ next, (Level.new size 0 numPolicy).sendDown (List.replicate size policy) = .ok next ∧
      Carries policy size next := by
  obtain ⟨more, rfl⟩ := Nat.exists_eq_succ_of_ne_zero (Nat.ne_of_gt positive)
  have filled : 0 < policy.length := by
    rw [sized]
    decide
  have started : (Level.new (more + 1) 0 numPolicy : Level Number).startDown
      (List.replicate (more + 1) policy) =
      .ok ((Level.new (more + 1) 0 numPolicy).deliver 0 policy, (List.replicate more policy).zipIdx 1) := by
    rw [Level.startDown, if_neg]
    · rw [List.replicate_succ, List.headD_cons, List.zipIdx_cons, List.tail_cons]
    · simp [Level.new, sized]
  have serving : Serving policy 1 ((Level.new (more + 1) 0 numPolicy).deliver 0 policy) := by
    constructor
    case numSendDown => exact sized.symm
    case sent =>
        intro rank before old
        rw [Nat.lt_one_iff.mp before]
        exact receiveDown_deliver sized old
    case history =>
        intro rank _
        rw [sized]
        rfl
  have served : Serving policy (1 + more) _ := serving.loop filled
  refine ⟨_, by rw [Level.sendDown, started]; rfl, ?_⟩
  intro rank inside
  exact served.sent rank (by omega)

end Levels

section Ranks

variable {dims : List Nat} {split : (Nat → SplitCall) → Nat → List Nat} {rank level : Nat}

theorem levelSize_sizeOf (inside : level < dims.length) :
    levelSize dims level = some (sizeOf dims level) := by
  obtain ⟨size, sized⟩ := exists_levelSize inside
  rw [sizeOf, sized, Option.getD_some]

theorem sizeOf_pos (positive : ∀ dim ∈ dims, 1 ≤ dim) (inside : level < dims.length) :
    0 < sizeOf dims level := levelSize_pos positive (levelSize_sizeOf inside)

theorem headOf_base (splits : Splits dims.prod split) (positive : ∀ dim ∈ dims, 1 ≤ dim)
    (known : rank < dims.prod) (inside : level < dims.length) (takesPart : TakesPart dims level rank) :
    headOf dims split level rank = base dims level rank := by
  rw [headOf, List.headD_eq_head?_getD, head_levelComm splits positive known inside takesPart,
    Option.getD_some]

theorem placeOf_lt (splits : Splits dims.prod split) (positive : ∀ dim ∈ dims, 1 ≤ dim)
    (known : rank < dims.prod) (inside : level < dims.length) (takesPart : TakesPart dims level rank) :
    placeOf dims split level rank < sizeOf dims level := by
  have formed := levelFormed splits positive inside
  have place := List.idxOf_lt_length_of_mem (formed.own rank known takesPart)
  have size := formed.size rank known takesPart
  rw [levelSize_sizeOf inside, Option.some.injEq] at size
  rw [placeOf, size]
  exact place

/-- A rank takes part in the levels that it controls and in the next one. -/
theorem takesPart_le (inside : level < dims.length) (below : level ≤ numLevelCtl dims rank) :
    TakesPart dims level rank := by
  rw [TakesPart, levelCall_eq, if_pos ((lt_maxLevel inside).mpr below)]
  exact Option.some_ne_none _

/-- The root is the rank that controls all levels. -/
theorem headOf_controlled (splits : Splits dims.prod split) (positive : ∀ dim ∈ dims, 1 ≤ dim)
    (known : rank < dims.prod) (controls : level < numLevelCtl dims rank) :
    headOf dims split level rank = rank := by
  have inside : level < dims.length := Nat.lt_of_lt_of_le controls numLevelCtl_le
  rw [headOf_base splits positive known inside (takesPart_le inside (Nat.le_of_lt controls))]
  exact ((span_dvd_iff positive).mp ((lt_numLevelCtl positive known inside).mp controls)).symm

/-- The parent controls the level in which it is. -/
theorem parent_controls (splits : Splits dims.prod split) (positive : ∀ dim ∈ dims, 1 ≤ dim)
    (known : rank < dims.prod) (inside : numLevelCtl dims rank < dims.length) :
    IsParent split dims (headOf dims split (numLevelCtl dims rank) rank) rank ∧
      numLevelCtl dims rank < numLevelCtl dims (headOf dims split (numLevelCtl dims rank) rank) := by
  rw [headOf_base splits positive known inside (takesPart_le inside (Nat.le_refl _))]
  constructor
  · exact (isParent_iff splits positive known).mpr ⟨inside, rfl⟩
  · have parentKnown : base dims (numLevelCtl dims rank) rank < dims.prod :=
      Nat.lt_of_le_of_lt base_le known
    rw [lt_numLevelCtl positive parentKnown inside]
    exact Nat.dvd_sub_mod rank

end Ranks

section Walks

variable {dims : List Nat} {split : (Nat → SplitCall) → Nat → List Nat} {source : PolicySource (List Number)}
  {limits : Nat → ℚ × ℚ} {rank level count : Nat} {policy : List Number} {walk : Walk}

/-- Nothing has been sent yet by a rank on the lower levels, and its agents are as `init` left
them. -/
structure Ready (dims : List Nat) (rank count : Nat) (walk : Walk) : Prop where
  agent : ∀ level < count, walk.controller.agent (level + 1) = Agent.new
  outPolicy : ∀ level < count,
    walk.controller.outPolicy level = List.replicate (sizeOf dims level) blankPolicy
  levels : ∀ level < count, walk.levels level rank = .new (sizeOf dims level) 0 numPolicy

/-- What the levels below hold after the walk. Unless the policy has no nan, it comes no
further than to the first of them. -/
structure Sent (dims : List Nat) (policy : List Number) (rank count : Nat) (walk final : Walk) :
    Prop where
  inPolicy : final.controller.inPolicy = policy
  agent : final.controller.agent 0 = walk.controller.agent 0
  others : ∀ level head, head ≠ rank ∨ count ≤ level → final.levels level head = walk.levels level head
  carries : ∀ level < count, NanFree policy ∨ level + 1 = count →
    Carries policy (sizeOf dims level) (final.levels level rank)
  quiet : ∀ level < count, ¬(NanFree policy ∨ level + 1 = count) →
    final.levels level rank = .new (sizeOf dims level) 0 numPolicy

theorem receiveLevel_quiet (quiet : Quiet (walk.levels level (headOf dims split level rank)))
    (stopped : walk.doSend = false) : receiveLevel dims split rank level walk = walk := by
  rw [receiveLevel, quiet]
  cases walk
  simp only at stopped
  rw [stopped]

/-- Nothing is sent below a level on which `receive_down` does not succeed. -/
theorem walk_stopped (splits : Splits dims.prod split) (positive : ∀ dim ∈ dims, 1 ≤ dim)
    (known : rank < dims.prod) (below : count ≤ numLevelCtl dims rank) (ready : Ready dims rank count walk)
    (stopped : walk.doSend = false) :
    (List.range count).reverse.foldlM (walkLevel dims split rank) walk = .ok walk := by
  induction count with
  | zero => rfl
  | succ count ih =>
      have quiet : Quiet (walk.levels count (headOf dims split count rank)) := by
        rw [headOf_controlled splits positive known below, ready.levels count (Nat.lt_succ_self _)]
        exact quiet_new
      have same : walkLevel dims split rank walk count = .ok walk := by
        simp only [walkLevel, splitLevel, sendLevel, stopped, Bool.false_eq_true, if_false, bind, Except.bind,
          pure, Except.pure, receiveLevel_quiet quiet stopped]
      have rest : Ready dims rank count walk := by
        constructor
        · exact fun level less => ready.agent level (Nat.lt_succ_of_lt less)
        · exact fun level less => ready.outPolicy level (Nat.lt_succ_of_lt less)
        · exact fun level less => ready.levels level (Nat.lt_succ_of_lt less)
      rw [List.range_succ, List.reverse_append, List.reverse_singleton, List.singleton_append,
        List.foldlM_cons, same]
      exact ih (Nat.le_of_succ_le below) rest

/-- What a level on which the policy is sent leaves. -/
def sentOn (policy : List Number) (dims : List Nat) (rank level : Nat) (agent : Agent)
    (after : Level Number) (walk : Walk) : Walk where
  doSend := decide (NanFree policy)
  controller := { walk.controller with
    inPolicy := policy
    agent := Function.update walk.controller.agent (level + 1) agent
    outPolicy := Function.update walk.controller.outPolicy level
      (List.replicate (sizeOf dims level) policy) }
  levels := Function.update walk.levels level (Function.update (walk.levels level) rank after)

/-- The policy is split and sent on the highest level of a walk. -/
theorem walkLevel_sends (splits : Splits dims.prod split) (positive : ∀ dim ∈ dims, 1 ≤ dim)
    (known : rank < dims.prod) (below : count + 1 ≤ numLevelCtl dims rank)
    (ready : Ready dims rank (count + 1) walk) (sized : policy.length = numPolicy)
    (filled : isAllNan policy = false) (accepted : Agent.new.validatePolicy policy = .ok ())
    (sends : walk.doSend = true) (arrived : walk.controller.inPolicy = policy) :
    ∃ agent after, walkLevel dims split rank walk count =
        .ok (sentOn policy dims rank count agent after walk) ∧
      Carries policy (sizeOf dims count) after := by
  have inside : count < dims.length := Nat.lt_of_lt_of_le below numLevelCtl_le
  have controls : count < numLevelCtl dims rank := below
  have head := headOf_controlled splits positive known controls
  have place := placeOf_lt splits positive known inside (takesPart_le inside (Nat.le_of_lt controls))
  obtain ⟨agent, splitted, again⟩ := Agent.splitPolicy_first (rfl : Agent.new.defaultFreq = .nan) filled
    (List.replicate (sizeOf dims count) blankPolicy)
  obtain ⟨after, sent, carries⟩ := sendDown_new (sizeOf_pos positive inside) sized
  rw [List.map_replicate] at splitted
  refine ⟨agent, after, ?_, carries⟩
  have received (old : List Number) :
      after.receiveDown (placeOf dims split count rank) old = (decide (NanFree policy), policy) := by
    rw [carries _ place, all_not_nan]
  simp only [walkLevel, splitLevel, sends, if_true, arrived, ready.agent count (Nat.lt_succ_self _),
    accepted, ready.outPolicy count (Nat.lt_succ_self _), splitted, again, bind, Except.bind, sendLevel,
    Function.update_self, head, ready.levels count (Nat.lt_succ_self _), sent, pure, Except.pure,
    receiveLevel, received, sentOn]

theorem Ready.sentOn {agent : Agent} {after : Level Number} (ready : Ready dims rank (count + 1) walk) :
    Ready dims rank count (sentOn policy dims rank count agent after walk) where
  agent level less := by
    rw [← ready.agent level (by omega)]
    exact Function.update_of_ne (by omega) _ _
  outPolicy level less := by
    rw [← ready.outPolicy level (by omega)]
    exact Function.update_of_ne (by omega) _ _
  levels level less := by
    rw [← ready.levels level (by omega)]
    exact congrFun (Function.update_of_ne (by omega) _ _) rank

theorem sentOn_other {agent : Agent} {after : Level Number} {head : Nat}
    (other : head ≠ rank ∨ level ≠ count) :
    (sentOn policy dims rank count agent after walk).levels level head = walk.levels level head := by
  by_cases same : level = count
  · simp only [sentOn, same, Function.update_self]
    exact Function.update_of_ne (other.resolve_right fun no => no same) _ _
  · simp only [sentOn, Function.update_of_ne same]

theorem sentOn_self {agent : Agent} {after : Level Number} :
    (sentOn policy dims rank level agent after walk).levels level rank = after := by
  simp only [sentOn, Function.update_self]

theorem sentOn_agent {agent : Agent} {after : Level Number} :
    (sentOn policy dims rank level agent after walk).controller.agent 0 = walk.controller.agent 0 := by
  simp [sentOn]

theorem walk_sends (splits : Splits dims.prod split) (positive : ∀ dim ∈ dims, 1 ≤ dim)
    (known : rank < dims.prod) (below : count ≤ numLevelCtl dims rank) (ready : Ready dims rank count walk)
    (sized : policy.length = numPolicy) (filled : isAllNan policy = false)
    (accepted : Agent.new.validatePolicy policy = .ok ()) (sends : walk.doSend = true)
    (arrived : walk.controller.inPolicy = policy) :
    ∃ final, (List.range count).reverse.foldlM (walkLevel dims split rank) walk = .ok final ∧
      Sent dims policy rank count walk final := by
  induction count generalizing walk with
  | zero =>
      refine ⟨walk, rfl, arrived, rfl, fun _ _ _ => rfl, ?_, ?_⟩
      · exact fun _ less => absurd less (Nat.not_lt_zero _)
      · exact fun _ less => absurd less (Nat.not_lt_zero _)
  | succ count ih =>
      obtain ⟨agent, after, walked, carries⟩ :=
        walkLevel_sends splits positive known below ready sized filled accepted sends arrived
      have rest : Ready dims rank count (sentOn policy dims rank count agent after walk) := ready.sentOn
      rw [List.range_succ, List.reverse_append, List.reverse_singleton, List.singleton_append,
        List.foldlM_cons, walked]
      by_cases nanFree : NanFree policy
      case pos =>
          obtain ⟨final, done, sent⟩ := ih (Nat.le_of_succ_le below) rest (decide_eq_true nanFree) rfl
          refine ⟨final, done, sent.inPolicy, ?_, ?_, ?_, ?_⟩
          · exact sent.agent.trans sentOn_agent
          · intro level head other
            rw [sent.others level head (other.imp_right Nat.le_of_succ_le)]
            exact sentOn_other (other.imp_right fun above => by omega)
          · intro level less _
            rcases Nat.lt_succ_iff_lt_or_eq.mp less with lower | rfl
            · exact sent.carries level lower (.inl nanFree)
            · rw [sent.others level rank (.inr (Nat.le_refl _)), sentOn_self]
              exact carries
          · exact fun _ _ other => absurd (.inl nanFree) other
      case neg =>
          refine ⟨_, walk_stopped splits positive known (Nat.le_of_succ_le below) rest
            (decide_eq_false nanFree), rfl, sentOn_agent, ?_, ?_, ?_⟩
          · exact fun level head other => sentOn_other (other.imp_right fun above => by omega)
          · intro level less reached
            have same : level = count := by
              have := reached.resolve_left nanFree
              omega
            rw [same, sentOn_self]
            exact carries
          · intro level less unreached
            have other : level ≠ count := by
              rintro rfl
              exact unreached (.inr rfl)
            exact rest.levels level (by omega)

end Walks

section Pass

variable {dims : List Nat} {split : (Nat → SplitCall) → Nat → List Nat} {source : PolicySource (List Number)}
  {limits : Nat → ℚ × ℚ} {rank level : Nat} {done order : List Nat} {tree : Tree}

/-- What a rank adjusts its platform to when all nodes have walked down. -/
def adjustedTo (dims : List Nat) (source : PolicySource (List Number)) (limits : Nat → ℚ × ℚ) (rank : Nat) :
    List Number :=
  if NanFree source.policy ∨ dims.length ≤ numLevelCtl dims rank + 1 then source.policy
  else (newController dims source limits rank).inPolicy

/-- The policy is sent on a level. -/
def SentOn (dims : List Nat) (source : PolicySource (List Number)) (level : Nat) : Prop :=
  NanFree source.policy ∨ level + 1 = dims.length

/-- What holds when some ranks have walked down. -/
structure Passed (dims : List Nat) (source : PolicySource (List Number)) (limits : Nat → ℚ × ℚ) (done : List Nat)
    (tree : Tree) : Prop where
  waiting : ∀ rank, rank ∉ done → tree.controller rank = newController dims source limits rank
  adjusted : ∀ rank ∈ done, (tree.controller rank).adjusted = some (adjustedTo dims source limits rank)
  carries : ∀ head level, head ∈ done → level < numLevelCtl dims head → SentOn dims source level →
    Carries source.policy (sizeOf dims level) (tree.levels level head)
  quiet : ∀ head level, head ∉ done ∨ numLevelCtl dims head ≤ level ∨ ¬SentOn dims source level →
    tree.levels level head = .new (sizeOf dims level) 0 numPolicy

theorem passed_newTree : Passed dims source limits [] (newTree dims source limits) where
  waiting _ _ := rfl
  adjusted _ member := absurd member List.not_mem_nil
  carries _ _ member := absurd member List.not_mem_nil
  quiet _ _ _ := rfl

/-- The policies that are considered: they have all fields, not all are nan, and the agents of
all ranks accept them. -/
structure Given (dims : List Nat) (source : PolicySource (List Number)) (limits : Nat → ℚ × ℚ) : Prop where
  sized : source.policy.length = numPolicy
  filled : isAllNan source.policy = false
  accepted : ∀ rank < dims.prod, (Agent.new.init 0 (limits rank).1 (limits rank).2).validatePolicy
    source.policy = .ok ()

theorem isAllNan_blank : isAllNan blankPolicy = true := by decide

theorem samePolicy_blank {policy : List Number} (sized : policy.length = numPolicy)
    (filled : isAllNan policy = false) : samePolicy policy blankPolicy = false := by
  rw [← Bool.not_eq_true]
  intro same
  rw [isAllNan, ← Bool.not_eq_true, List.all_eq_true] at filled
  apply filled
  intro value member
  obtain ⟨index, inside, rfl⟩ := List.mem_iff_getElem.mp member
  rw [samePolicy, List.all_eq_true] at same
  have pair : (policy[index], Number.nan) ∈ policy.zip blankPolicy := by
    rw [List.mem_iff_getElem]
    exact ⟨index, by simp [blankPolicy, ← sized, inside], by simp [blankPolicy]⟩
  simpa using same _ pair

/-- At the root all of the policies that are considered are new. -/
theorem startRoot_new (rank : Nat) (given : Given dims source limits) :
    ∃ lastPolicy, startRoot source (newController dims source limits rank) =
      (true, { newController dims source limits rank with inPolicy := source.policy, lastPolicy }) := by
  cases source with
  | file policy => exact ⟨_, rfl⟩
  | endpoint policy =>
      have new : samePolicy policy blankPolicy = false := samePolicy_blank given.sized given.filled
      refine ⟨policy, ?_⟩
      simp only [startRoot, newController, PolicySource.read, new, Bool.false_eq_true, if_false,
        PolicySource.policy]

/-- How a walk starts. Below the root it depends on what the parent has sent. -/
theorem startWalk_passed (splits : Splits dims.prod split) (positive : ∀ dim ∈ dims, 1 ≤ dim)
    (given : Given dims source limits) (known : rank < dims.prod) (passed : Passed dims source limits done tree)
    (after : ∀ parent, IsParent split dims parent rank → parent ∈ done) (waiting : rank ∉ done) :
    ∃ lastPolicy, startWalk dims split source tree rank =
      ⟨decide (NanFree source.policy ∨ numLevelCtl dims rank = dims.length),
        { newController dims source limits rank with
          inPolicy := adjustedTo dims source limits rank, lastPolicy }, tree.levels⟩ := by
  rw [startWalk, passed.waiting rank waiting]
  by_cases root : numLevelCtl dims rank = dims.length
  case pos =>
      obtain ⟨lastPolicy, started⟩ := startRoot_new rank given
      refine ⟨lastPolicy, ?_⟩
      rw [if_pos root, started, adjustedTo, if_pos (.inr (by omega)), decide_eq_true (.inr root)]
  case neg =>
      have inside : numLevelCtl dims rank < dims.length := by
        have few : numLevelCtl dims rank ≤ dims.length := numLevelCtl_le
        omega
      obtain ⟨isParent, controls⟩ := parent_controls splits positive known inside
      have place := placeOf_lt splits positive known inside (takesPart_le inside (Nat.le_refl _))
      refine ⟨blankPolicy, ?_⟩
      rw [if_neg root]
      by_cases sent : SentOn dims source (numLevelCtl dims rank)
      case pos =>
          have carries := passed.carries _ _ (after _ isParent) controls sent
          have reached : NanFree source.policy ∨ dims.length ≤ numLevelCtl dims rank + 1 :=
            sent.imp_right fun last => Nat.le_of_eq last.symm
          simp only [receiveLevel, carries _ place, all_not_nan, adjustedTo, if_pos reached, root, or_false]
          rfl
      case neg =>
          have quiet := passed.quiet (headOf dims split (numLevelCtl dims rank) rank) _ (.inr (.inr sent))
          have unreached : ¬(NanFree source.policy ∨ dims.length ≤ numLevelCtl dims rank + 1) := by
            intro reached
            exact sent (reached.imp_right fun last => by omega)
          have dirty : ¬NanFree source.policy := fun nanFree => unreached (.inl nanFree)
          have missed : adjustedTo dims source limits rank = (newController dims source limits rank).inPolicy :=
            if_neg unreached
          simp only [receiveLevel, quiet, quiet_new _ _, missed, root, or_false, dirty, decide_false]
          rfl

theorem adjustedTo_cases : adjustedTo dims source limits rank = source.policy ∨
    adjustedTo dims source limits rank = blankPolicy := by
  rw [adjustedTo]
  split
  · exact .inl rfl
  · cases source with
    | file policy => exact .inl rfl
    | endpoint policy => exact .inr rfl

/-- The agent of level 0 takes a policy that it accepts, and a blank one. -/
theorem adjust_ok {controller : Controller} (given : Given dims source limits) (known : rank < dims.prod)
    (agent : controller.agent 0 = Agent.new.init 0 (limits rank).1 (limits rank).2)
    (policy : controller.inPolicy = source.policy ∨ controller.inPolicy = blankPolicy) :
    ∃ next, adjust controller = .ok next ∧ next.adjusted = some controller.inPolicy := by
  rcases policy with policy | policy
  · have accepted := given.accepted rank known
    have first : (Agent.new.init 0 (limits rank).1 (limits rank).2).defaultFreq = .nan := rfl
    obtain ⟨next, updated, _⟩ := Agent.updatePolicy_first first given.filled
    simp only [adjust, Agent.adjustPlatform, agent, policy, accepted, updated]
    exact ⟨_, rfl, rfl⟩
  · have accepted : (Agent.new.init 0 (limits rank).1 (limits rank).2).validatePolicy blankPolicy = .ok () := by
      rw [Agent.validatePolicy, if_pos isAllNan_blank]
    have ignored : (Agent.new.init 0 (limits rank).1 (limits rank).2).updatePolicy blankPolicy =
        .ok { Agent.new.init 0 (limits rank).1 (limits rank).2 with isPolicyUpdated := false } := by
      rw [Agent.updatePolicy, isAllNan_blank]
      rfl
    simp only [adjust, Agent.adjustPlatform, agent, policy, accepted, ignored]
    exact ⟨_, rfl, rfl⟩

/-- The walk of a rank below its start. -/
theorem walk_passed (splits : Splits dims.prod split) (positive : ∀ dim ∈ dims, 1 ≤ dim)
    (given : Given dims source limits) (known : rank < dims.prod) {walk : Walk}
    (ready : Ready dims rank (numLevelCtl dims rank) walk)
    (sends : walk.doSend = decide (NanFree source.policy ∨ numLevelCtl dims rank = dims.length))
    (arrived : walk.controller.inPolicy = adjustedTo dims source limits rank) :
    ∃ final, (List.range (numLevelCtl dims rank)).reverse.foldlM (walkLevel dims split rank) walk = .ok final ∧
      final.controller.inPolicy = adjustedTo dims source limits rank ∧
      final.controller.agent 0 = walk.controller.agent 0 ∧
      (∀ level head, head ≠ rank ∨ numLevelCtl dims rank ≤ level →
        final.levels level head = walk.levels level head) ∧
      (∀ level < numLevelCtl dims rank, SentOn dims source level →
        Carries source.policy (sizeOf dims level) (final.levels level rank)) ∧
      ∀ level < numLevelCtl dims rank, ¬SentOn dims source level →
        final.levels level rank = .new (sizeOf dims level) 0 numPolicy := by
  have few : numLevelCtl dims rank ≤ dims.length := numLevelCtl_le
  by_cases informed : NanFree source.policy ∨ numLevelCtl dims rank = dims.length
  case pos =>
      rw [decide_eq_true informed] at sends
      have reached : adjustedTo dims source limits rank = source.policy :=
        if_pos (informed.imp_right fun root => by omega)
      have accepted := Agent.validatePolicy_unlimited (given.accepted rank known)
      obtain ⟨final, done, sent⟩ := walk_sends splits positive known (Nat.le_refl _) ready given.sized
        given.filled accepted sends (arrived.trans reached)
      have same (level : Nat) (controls : level < numLevelCtl dims rank) :
          SentOn dims source level ↔ NanFree source.policy ∨ level + 1 = numLevelCtl dims rank := by
        rw [SentOn]
        rcases informed with nanFree | root
        · simp [nanFree]
        · rw [root]
      refine ⟨final, done, sent.inPolicy.trans reached.symm, sent.agent, sent.others, ?_, ?_⟩
      · intro level controls reaches
        exact sent.carries level controls ((same level controls).mp reaches)
      · intro level controls missed
        exact sent.quiet level controls fun reaches => missed ((same level controls).mpr reaches)
  case neg =>
      rw [decide_eq_false informed] at sends
      refine ⟨walk, walk_stopped splits positive known (Nat.le_refl _) ready sends, arrived, rfl,
        fun _ _ _ => rfl, ?_, ?_⟩
      · intro level controls reaches
        exact absurd (reaches.imp_right fun last => by omega) informed
      · exact fun level controls _ => ready.levels level controls

theorem walkDown_passed (splits : Splits dims.prod split) (positive : ∀ dim ∈ dims, 1 ≤ dim)
    (given : Given dims source limits) (known : rank < dims.prod) (passed : Passed dims source limits done tree)
    (after : ∀ parent, IsParent split dims parent rank → parent ∈ done) (waiting : rank ∉ done) :
    ∃ next, walkDown dims split source tree rank = .ok next ∧
      Passed dims source limits (done ++ [rank]) next := by
  obtain ⟨lastPolicy, started⟩ := startWalk_passed splits positive given known passed after waiting
  have ready : Ready dims rank (numLevelCtl dims rank) (startWalk dims split source tree rank) := by
    rw [started]
    constructor
    · exact fun _ _ => rfl
    · exact fun _ _ => rfl
    · exact fun level _ => passed.quiet rank level (.inl waiting)
  obtain ⟨final, walked, inPolicy, agent, others, carries, quiet⟩ := walk_passed splits positive given known
    ready (by rw [started]) (by rw [started])
  rw [started] at agent others
  obtain ⟨controller, adjusts, adjusted⟩ := adjust_ok given known agent
    (by rw [inPolicy]; exact adjustedTo_cases)
  have result : walkDown dims split source tree rank =
      .ok ⟨Function.update tree.controller rank controller, final.levels⟩ := by
    rw [walkDown, walked]
    simp only [bind, Except.bind, adjusts, pure, Except.pure]
  refine ⟨_, result, ?_, ?_, ?_, ?_⟩
  case refine_1 =>
      intro other left
      rw [List.mem_append, List.mem_singleton, not_or] at left
      rw [← passed.waiting other left.1]
      exact Function.update_of_ne left.2 _ _
  case refine_2 =>
      intro other member
      by_cases same : other = rank
      · rw [same]
        simp only [Function.update_self]
        rw [adjusted, inPolicy]
      · simp only [Function.update_of_ne same]
        have earlier : other ∈ done := by simpa [same] using member
        exact passed.adjusted other earlier
  case refine_3 =>
      intro head level member controls sent
      by_cases same : head = rank
      · subst same
        exact carries level controls sent
      · have earlier : head ∈ done := by simpa [same] using member
        have kept := others level head (.inl same)
        simp only [kept]
        exact passed.carries head level earlier controls sent
  case refine_4 =>
      intro head level unsent
      by_cases same : head = rank
      · subst same
        by_cases controls : level < numLevelCtl dims head
        · apply quiet level controls
          rcases unsent with left | above | missed
          · simp at left
          · omega
          · exact missed
        · apply (others level head (.inr (by omega))).trans
          exact passed.quiet head level (.inl waiting)
      · apply (others level head (.inl same)).trans
        apply passed.quiet head level
        apply unsent.imp_left
        intro left earlier
        exact left (List.mem_append_left _ earlier)

/-- When all nodes have walked down it is settled what each adjusts its platform to. -/
theorem pass_passed (splits : Splits dims.prod split) (positive : ∀ dim ∈ dims, 1 ≤ dim)
    (given : Given dims source limits) (parentsFirst : ParentsFirst dims split order) :
    ∃ final, pass dims split source limits order = .ok final ∧ Passed dims source limits order final := by
  have unique : order.Nodup := parentsFirst.all.nodup_iff.mpr List.nodup_range
  have walks (rest : List Nat) : ∀ done tree, order = done ++ rest → Passed dims source limits done tree →
      ∃ final, rest.foldlM (walkDown dims split source) tree = .ok final ∧
        Passed dims source limits order final := by
    induction rest with
    | nil =>
        intro done tree parts passed
        rw [List.append_nil] at parts
        rw [parts]
        exact ⟨tree, rfl, passed⟩
    | cons rank rest ih =>
        intro done tree parts passed
        have known : rank < dims.prod := by
          rw [← List.mem_range, ← parentsFirst.all.mem_iff, parts]
          simp
        have waiting : rank ∉ done := by
          rw [parts] at unique
          intro member
          exact (List.disjoint_of_nodup_append unique) member (by simp)
        obtain ⟨next, walked, nextPassed⟩ := walkDown_passed splits positive given known passed
          (parentsFirst.after done rank rest parts) waiting
        rw [List.foldlM_cons, walked]
        exact ih (done ++ [rank]) next (by simpa using parts) nextPassed
  exact walks order [] _ rfl passed_newTree

/-- The ranks that the policy reaches are all ranks only where the levels below the highest have no
more than one rank. -/
theorem all_near_root (positive : ∀ dim ∈ dims, 1 ≤ dim) :
    (∀ rank < dims.prod, dims.length ≤ numLevelCtl dims rank + 1) ↔ ∀ dim ∈ dims.tail, dim = 1 := by
  cases dims with
  | nil => simp
  | cons top below =>
      have small : span (top :: below) below.length = below.prod := by
        rw [span_cons (Nat.le_refl _), span_length]
      have near (rank : Nat) (known : rank < (top :: below).prod) :
          (top :: below).length ≤ numLevelCtl (top :: below) rank + 1 ↔ below.prod ∣ rank := by
        rw [← small, ← trailing_coordinate positive known (Nat.le_succ _),
          ← le_numLevelControlled (by simp), ← numLevelCtl, List.length_cons, Nat.add_le_add_iff_right]
      have belowPositive : 0 < below.prod := prod_pos fun dim member => positive dim (by simp [member])
      rw [List.tail_cons]
      constructor
      · intro all dim member
        apply Nat.dvd_one.mp
        apply (List.dvd_prod member).trans
        by_contra several
        have known : 1 < (top :: below).prod := by
          have topPositive := positive top (by simp)
          rw [List.prod_cons]
          have more := Nat.le_mul_of_pos_left below.prod topPositive
          have other : below.prod ≠ 1 := fun one => several (one ▸ Nat.dvd_refl 1)
          omega
        exact several ((near 1 known).mp (all 1 known))
      · intro one rank known
        rw [near rank known, List.prod_eq_one one]
        exact Nat.one_dvd rank

end Pass

/-- A policy from a file is read by all nodes. A policy from an endpoint comes to all of them only
where it has no nan or the tree has no more than one level with several ranks, which are the
children of the root. -/
theorem reaches_iff (dims : List Nat) (positive : ∀ dim ∈ dims, 1 ≤ dim)
    (split : (Nat → SplitCall) → Nat → List Nat) (splits : Splits dims.prod split) (source : PolicySource (List Number))
    (limits : Nat → ℚ × ℚ) (given : Given dims source limits) (order : List Nat)
    (parentsFirst : ParentsFirst dims split order) :
    Reaches dims split source limits order ↔
      (∃ policy, source = .file policy) ∨ NanFree source.policy ∨ ∀ dim ∈ dims.tail, dim = 1 := by
  obtain ⟨final, passes, passed⟩ := pass_passed splits positive given parentsFirst
  have adjusted (rank : Nat) (known : rank < dims.prod) :
      (final.controller rank).adjusted = some (adjustedTo dims source limits rank) := by
    apply passed.adjusted rank
    rw [parentsFirst.all.mem_iff]
    exact List.mem_range.mpr known
  have settled : Reaches dims split source limits order ↔
      ∀ rank < dims.prod, adjustedTo dims source limits rank = source.policy := by
    constructor
    · rintro ⟨other, otherPasses, reached⟩ rank known
      rw [passes, Except.ok.injEq] at otherPasses
      rw [← otherPasses] at reached
      exact Option.some.inj ((adjusted rank known).symm.trans (reached rank known))
    · intro same
      exact ⟨final, passes, fun rank known => by rw [adjusted rank known, same rank known]⟩
  rw [settled]
  cases source with
  | file policy =>
      simp only [PolicySource.file.injEq, exists_eq', true_or, iff_true]
      intro rank _
      rw [adjustedTo]
      split <;> rfl
  | endpoint policy =>
      have different : blankPolicy ≠ policy := by
        intro blank
        have filled := given.filled
        rw [PolicySource.policy, ← blank, isAllNan_blank] at filled
        exact Bool.noConfusion filled
      have near (rank : Nat) : adjustedTo dims (.endpoint policy) limits rank = policy ↔
          NanFree policy ∨ dims.length ≤ numLevelCtl dims rank + 1 := by
        rw [adjustedTo]
        split
        case isTrue reached => exact ⟨fun _ => reached, fun _ => rfl⟩
        case isFalse missed => exact ⟨fun same => absurd same different, fun reached => absurd reached missed⟩
      simp only [PolicySource.policy, near, reduceCtorEq, exists_const, false_or]
      rw [← all_near_root positive]
      by_cases nanFree : NanFree policy <;> simp [nanFree]

/-- Parents come first in the order of the ranks. -/
theorem parentsFirst_range {dims : List Nat} {split : (Nat → SplitCall) → Nat → List Nat}
    (positive : ∀ dim ∈ dims, 1 ≤ dim) (splits : Splits dims.prod split) :
    ParentsFirst dims split (List.range dims.prod) where
  all := List.Perm.refl _
  after before rank rest parts parent isParent := by
    have place : (List.range dims.prod)[before.length]? = some rank := by
      rw [parts, List.getElem?_append_right (Nat.le_refl _), Nat.sub_self, List.getElem?_cons_zero]
    obtain ⟨known, rank_eq⟩ := List.getElem?_eq_some_iff.mp place
    rw [List.length_range] at known
    rw [List.getElem_range] at rank_eq
    have rankKnown : rank < dims.prod := rank_eq ▸ known
    have other : parent ≠ rank := by
      obtain ⟨_, _, _, _, other⟩ := isParent
      exact other
    obtain ⟨_, parent_eq⟩ := (isParent_iff splits positive rankKnown).mp isParent
    have less : parent < before.length := by
      have below : parent ≤ rank := parent_eq ▸ base_le
      omega
    have taken : before = List.range before.length := by
      have front := congrArg (List.take before.length) parts
      rw [List.take_left, List.take_range, Nat.min_eq_left (by omega)] at front
      exact front.symm
    rw [taken]
    exact List.mem_range.mpr less

/-- A default frequency and nothing else. -/
def defaultOnly : List Number := .value 2 :: List.replicate 63 .nan

theorem given_defaultOnly : Given [2, 2] (.endpoint defaultOnly) fun _ => (1, 3) where
  sized := by decide
  filled := by decide +kernel
  accepted _ _ := by decide +kernel

theorem reaches_twoLevels : ¬Reaches [2, 2] (splitByKey 4) (.endpoint defaultOnly) (fun _ => (1, 3)) [0, 1, 2, 3] := by
  rw [reaches_iff [2, 2] (by decide) (splitByKey 4) (splitByKey_splits 4) (.endpoint defaultOnly)
    (fun _ => (1, 3)) given_defaultOnly [0, 1, 2, 3] (parentsFirst_range (by decide) (splitByKey_splits 4))]
  rintro (⟨_, file⟩ | nanFree | flat)
  · cases file
  · exact absurd (nanFree .nan (List.mem_cons_of_mem _ (List.mem_replicate.mpr ⟨by decide, rfl⟩))) (by decide)
  · exact absurd (flat 2 (by decide)) (by decide)

/-- With two levels the default frequency comes to the children of the root only. -/
theorem not_reaches_defaultOnly : ¬∀ (dims : List Nat) (split : (Nat → SplitCall) → Nat → List Nat)
    (source : PolicySource (List Number)) (limits : Nat → ℚ × ℚ) (order : List Nat), (∀ dim ∈ dims, 1 ≤ dim) →
    Splits dims.prod split → Given dims source limits → ParentsFirst dims split order →
    Reaches dims split source limits order := by
  intro all
  obtain ⟨final, passes, adjusted⟩ := all [2, 2] (splitByKey 4) (.endpoint defaultOnly) (fun _ => (1, 3))
    (List.range 4) (by decide) (splitByKey_splits 4) given_defaultOnly
    (parentsFirst_range (by decide) (splitByKey_splits 4))
  have stopped : (pass [2, 2] (splitByKey 4) (.endpoint defaultOnly) (fun _ => (1, 3)) (List.range 4)).toOption.map
      (fun final => (final.controller 1).adjusted) = some (some blankPolicy) := by
    decide +kernel
  rw [passes] at stopped
  have reached := adjusted 1 (by decide)
  simp only [Except.toOption, Option.map_some, reached, Option.some.injEq] at stopped
  exact absurd stopped (by decide +kernel)

end FrequencyMap

end Geopm
