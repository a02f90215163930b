import Geopm.PlatformIOImp.Tracked

namespace Geopm

/-! `PlatformIOImp`: batch access and direct access come to the same. -/

namespace PlatformIOImp

open Kind (IsNative IsCombined InRange Sound)

variable {Group Value Error : Type} {groups : IOGroups Group Value Error} {topo : PlatformTopo}
  {iogroupList : List Group} {platform : PlatformIOImp Group Value} {calls : List (GroupCall Group)}
  {state final : PlatformIOImp Group Value × List (GroupCall Group)} {request : Request}
  {iogroup : Group} {idx groupIdx depth other : Nat} {setting : Number}

theorem mapM_of_forall₂ {First Second Result Reason : Type} {left : First → Except Reason Result}
    {right : Second → Except Reason Result} {firsts : List First} {seconds : List Second}
    (all : List.Forall₂ (fun first second => left first = right second) firsts seconds) :
    firsts.mapM left = seconds.mapM right := by
  induction all with
  | nil => rfl
  | cons same _ ih => rw [List.mapM_cons, List.mapM_cons, same, ih]

theorem mapM_error {First Result Reason : Type} {body : First → Except Reason Result} {reason : Reason}
    {firsts : List First} (thrown : firsts.mapM body = .error reason) :
    ∃ first ∈ firsts, body first = .error reason := by
  induction firsts with
  | nil => cases thrown
  | cons first rest ih =>
      rw [List.mapM_cons] at thrown
      cases ran : body first with
      | error other =>
          rw [ran] at thrown
          cases thrown
          exact ⟨first, List.mem_cons_self, ran⟩
      | ok value =>
          cases others : rest.mapM body with
          | error other =>
              rw [ran, others] at thrown
              cases thrown
              obtain ⟨later, member, same⟩ := ih others
              exact ⟨later, List.mem_cons_of_mem first member, same⟩
          | ok values =>
              rw [ran, others] at thrown
              cases thrown

section Sampling

variable (sound : (signalKind groups iogroupList).Sound topo (platform.signals, calls))

include sound

/-- How deep the recursion of `sample` may go does not matter beyond the index. -/
theorem sampleUpTo_depth (deep : idx < depth) (deeper : idx < other) :
    sampleUpTo groups platform calls depth idx = sampleUpTo groups platform calls other idx := by
  induction depth generalizing idx other with
  | zero => exact absurd deep (Nat.not_lt_zero idx)
  | succ depth ih =>
      cases other with
      | zero => exact absurd deeper (Nat.not_lt_zero idx)
      | succ other =>
          unfold sampleUpTo
          cases entry : platform.signals.active[idx]? with
          | none => rfl
          | some pair =>
              obtain ⟨group, mark⟩ := pair
              cases group with
              | some iogroup => rfl
              | none =>
                  obtain ⟨rfl, _⟩ := sound.marks idx mark entry
                  dsimp only
                  cases known : Assoc.lookup mark platform.signals.combined with
                  | none => rfl
                  | some combined =>
                      have smaller := (sound.combined mark combined.1 combined.2 known).2
                      have same : combined.1.mapM (sampleUpTo groups platform calls depth) =
                          combined.1.mapM (sampleUpTo groups platform calls other) := by
                        apply mapM_of_forall₂
                        rw [List.forall₂_same]
                        intro operand member
                        have less := smaller operand member
                        exact ih (by omega) (by omega)
                      simp only [same]

theorem sampleUpTo_ended (deep : idx < depth) :
    sampleUpTo groups platform calls depth idx ≠ .error .unended := by
  induction depth generalizing idx with
  | zero => exact absurd deep (Nat.not_lt_zero idx)
  | succ depth ih =>
      unfold sampleUpTo
      cases entry : platform.signals.active[idx]? with
      | none => exact fun thrown => by cases thrown
      | some pair =>
          obtain ⟨group, mark⟩ := pair
          dsimp only
          split
          · exact fun thrown => by cases thrown
          · cases group with
            | some iogroup =>
                dsimp only
                cases groups.sample calls iogroup mark <;> exact fun thrown => by cases thrown
            | none =>
                obtain ⟨rfl, _⟩ := sound.marks idx mark entry
                dsimp only
                cases known : Assoc.lookup mark platform.signals.combined with
                | none => exact fun thrown => by cases thrown
                | some combined =>
                    have smaller := (sound.combined mark combined.1 combined.2 known).2
                    dsimp only
                    intro thrown
                    cases ran : combined.1.mapM (sampleUpTo groups platform calls depth) with
                    | ok values =>
                        rw [ran] at thrown
                        cases thrown
                    | error reason =>
                        rw [ran] at thrown
                        cases thrown
                        obtain ⟨operand, member, same⟩ := mapM_error ran
                        have less := smaller operand member
                        exact ih (by omega) same

end Sampling

/-- The calls are made one after the other, and each returns. -/
def Returning (groups : IOGroups Group Value Error) :
    List (GroupCall Group) → List (GroupCall Group) → Prop
  | _, [] => True
  | calls, call :: rest => groups.perform calls call = .ok () ∧ Returning groups (calls ++ [call]) rest

/-- After the signals have been read, each IOGroup samples what it reads directly. -/
def BatchAgrees (groups : IOGroups Group Value Error) (iogroupList : List Group) : Prop :=
  ∀ calls iogroup request groupIdx, iogroup ∈ iogroupList →
    request.domainType = groups.signalDomainType iogroup request.name →
    (signalKind groups iogroupList).Returned calls iogroup request groupIdx →
    Returning groups calls (iogroupList.map .readBatch) →
    groups.sample (calls ++ iogroupList.map .readBatch) iogroup groupIdx =
      groups.readSignal (calls ++ iogroupList.map .readBatch) iogroup request

/-- Calls of IOGroups until one throws. -/
def issue (groups : IOGroups Group Value Error) (made : List (GroupCall Group)) :
    MethodM Group Value Error Unit := made.forM (callGroup groups)

theorem issue_map {Item : Type} {items : List Item} {made : Item → GroupCall Group} :
    items.forM (fun item => (callGroup groups (made item) : MethodM Group Value Error Unit)) =
      issue groups (items.map made) := by
  induction items with
  | nil => rfl
  | cons item rest ih => exact congrArg (fun others => callGroup groups (made item) >>= fun _ => others) ih

theorem issue_append {made more : List (GroupCall Group)} :
    issue groups (made ++ more) = (issue groups made >>= fun _ => issue groups more) := by
  induction made with
  | nil => exact (pure_bind _ _).symm
  | cons call rest ih =>
      change (callGroup groups call >>= fun _ => issue groups (rest ++ more)) =
        (callGroup groups call >>= fun _ => issue groups rest) >>= fun _ => issue groups more
      rw [ih, bind_assoc]

theorem issue_ok {made : List (GroupCall Group)}
    (done : (issue groups made).run (platform, calls) = .ok () final) :
    final = (platform, calls ++ made) ∧ Returning groups calls made := by
  induction made generalizing calls with
  | nil =>
      cases done
      exact ⟨by rw [List.append_nil], trivial⟩
  | cons call rest ih =>
      obtain ⟨_, middle, first, others⟩ := Stateful.ok_of_bind done
      cases answer : groups.perform calls call with
      | error reason =>
          simp only [callGroup, EStateM.run, answer] at first
          cases first
      | ok returned =>
          simp only [callGroup, EStateM.run, answer] at first
          cases first
          obtain ⟨rfl, returning⟩ := ih others
          exact ⟨by rw [List.append_assoc, List.singleton_append], answer, returning⟩

theorem readBatch_ok (done : (readBatch groups).run (platform, calls) = .ok () final) :
    final = ({ platform with isActive := true }, calls ++ platform.iogroupList.map .readBatch) ∧
      Returning groups calls (platform.iogroupList.map .readBatch) := by
  have body : (issue groups (platform.iogroupList.map .readBatch) >>= fun _ => setActive).run (platform, calls) =
      .ok () final := by
    rw [← issue_map]
    exact done
  obtain ⟨_, middle, loop, active⟩ := Stateful.ok_of_bind body
  obtain ⟨rfl, returning⟩ := issue_ok loop
  cases active
  exact ⟨rfl, returning⟩

theorem findSignalIogroup_mem {name : String} (found : findSignalIogroup groups iogroupList name = some iogroup) :
    iogroup ∈ iogroupList := List.mem_reverse.mp (List.mem_of_find?_eq_some found)

section Reading

variable (agrees : BatchAgrees groups iogroupList) (active : platform.isActive = true)
  (returning : Returning groups calls (iogroupList.map .readBatch))

include agrees active returning

theorem sample_native (native : IsNative (signalKind groups iogroupList) topo platform.signals calls request idx) :
    sampleUpTo groups platform (calls ++ iogroupList.map .readBatch) (depth + 1) idx =
      readSignalUpTo groups topo iogroupList (calls ++ iogroupList.map .readBatch) (other + 1) request := by
  obtain ⟨known, iogroup, groupIdx, found, base, entry, returned⟩ := native
  have same := agrees calls iogroup request groupIdx (findSignalIogroup_mem found) base returned returning
  have group : findSignalIogroup groups iogroupList request.name = some iogroup := found
  have native : groups.signalDomainType iogroup request.name = request.domainType := base.symm
  unfold sampleUpTo readSignalUpTo
  rw [entry, if_neg (not_not.mpr known), group]
  simp only [active, native, same, Bool.not_true, Bool.false_eq_true, if_false, ne_eq, not_true_eq_false]

theorem sample_combined
    (combined : IsCombined (signalKind groups iogroupList) topo platform.signals calls request idx) :
    sampleUpTo groups platform (calls ++ iogroupList.map .readBatch) (depth + 2) idx =
      readSignalUpTo groups topo iogroupList (calls ++ iogroupList.map .readBatch) 2 request := by
  obtain ⟨known, iogroup, nested, operands, combiner, found, apart, isNested, domains, entry, operation,
    aggregation, natives⟩ := combined
  have group : findSignalIogroup groups iogroupList request.name = some iogroup := found
  have base : groups.signalDomainType iogroup request.name ≠ request.domainType := Ne.symm apart
  have within : PlatformTopo.isNestedDomain (groups.signalDomainType iogroup request.name)
      request.domainType = true := isNested
  have nesting : topo.domainNested (groups.signalDomainType iogroup request.name) request.domainType
      request.domainIdx = .ok nested := domains
  have combines : aggFunction groups iogroupList request.name = .ok combiner := aggregation
  have values : operands.mapM (sampleUpTo groups platform (calls ++ iogroupList.map .readBatch) (depth + 1)) =
      (nested.sort (· ≤ ·)).mapM fun domainIdx =>
        readSignalUpTo groups topo iogroupList (calls ++ iogroupList.map .readBatch) 1
          ⟨request.name, groups.signalDomainType iogroup request.name, domainIdx⟩ := by
    apply mapM_of_forall₂
    refine natives.flip.imp fun operand domainIdx native => ?_
    exact sample_native agrees active returning native
  unfold sampleUpTo readSignalUpTo
  rw [entry, if_neg (not_not.mpr known), group]
  dsimp only
  rw [operation, if_pos base, if_pos within, nesting, active]
  dsimp only
  rw [values, combines]
  rfl

end Reading

/-- A request is read for the domains within once at most. -/
theorem readSignalUpTo_deeper : readSignalUpTo groups topo iogroupList calls (depth + 2) request =
    readSignalUpTo groups topo iogroupList calls 2 request := by
  rw [readSignalUpTo, readSignalUpTo]
  cases found : findSignalIogroup groups iogroupList request.name with
  | none => rfl
  | some iogroup =>
      have native : ∀ domainIdx : Int, readSignalUpTo groups topo iogroupList calls (depth + 1)
          ⟨request.name, groups.signalDomainType iogroup request.name, domainIdx⟩ =
          readSignalUpTo groups topo iogroupList calls 1
            ⟨request.name, groups.signalDomainType iogroup request.name, domainIdx⟩ := by
        intro domainIdx
        rw [readSignalUpTo, readSignalUpTo, found]
        simp only [ne_eq, not_true_eq_false, if_false]
      simp only [native]

theorem sample_run {signalIdx : Nat} : (sample groups signalIdx).run state =
    match sampleUpTo groups state.1 state.2 (signalIdx + 1) signalIdx with
    | .error reason => .error reason state
    | .ok value => .ok value state := by
  cases value : sampleUpTo groups state.1 state.2 (signalIdx + 1) signalIdx <;>
    simp [sample, value]

theorem readSignal_run : (readSignal groups topo request).run state =
    match readSignalUpTo groups topo state.1.iogroupList state.2 2 request with
    | .error reason => .error reason state
    | .ok value => .ok value state := by
  cases value : readSignalUpTo groups topo state.1.iogroupList state.2 2 request <;>
    simp [readSignal, value]

/-- After a batch has been read, a signal that has been pushed is sampled as it is read directly. -/
theorem sample_eq_readSignal (agrees : BatchAgrees groups iogroupList)
    (tracked : Tracked groups topo iogroupList state)
    (pushed : Assoc.lookup request state.1.signals.existing = some (some idx))
    (read : (readBatch groups).run state = .ok () final) :
    (sample groups idx).run final = (readSignal groups topo request).run final := by
  obtain ⟨platform, calls⟩ := state
  obtain rfl : platform.iogroupList = iogroupList := tracked.list
  obtain ⟨rfl, returning⟩ := readBatch_ok read
  have sound := tracked.signals
  have values : sampleUpTo groups { platform with isActive := true }
        (calls ++ platform.iogroupList.map .readBatch) (idx + 2) idx =
      readSignalUpTo groups topo platform.iogroupList (calls ++ platform.iogroupList.map .readBatch) 2 request := by
    rcases sound.existing request idx pushed with native | combined
    · exact sample_native agrees rfl returning native
    · exact sample_combined agrees rfl returning combined
  have later := (Kind.sound_calls sound (List.prefix_append calls (platform.iogroupList.map .readBatch))).1
  have depth : sampleUpTo groups { platform with isActive := true }
        (calls ++ platform.iogroupList.map .readBatch) (idx + 1) idx =
      sampleUpTo groups { platform with isActive := true }
        (calls ++ platform.iogroupList.map .readBatch) (idx + 2) idx :=
    sampleUpTo_depth later (by omega) (by omega)
  rw [sample_run, readSignal_run, depth, values]

/-- Computations that differ in no call of an IOGroup, whatever the state is but for the IOGroups. -/
def Alike (iogroupList : List Group) (first second : MethodM Group Value Error Unit) : Prop :=
  ∀ one other calls, one.iogroupList = iogroupList → other.iogroupList = iogroupList →
    match first.run (one, calls), second.run (other, calls) with
    | .ok _ left, .ok _ right => left.2 = right.2 ∧ left.1.iogroupList = iogroupList ∧
        right.1.iogroupList = iogroupList
    | .error reason left, .error thrown right => reason = thrown ∧ left.2 = right.2
    | _, _ => False

section Adjusting

variable {first second third fourth : MethodM Group Value Error Unit}

theorem Alike.bind (one : Alike iogroupList first second) (other : Alike iogroupList third fourth) :
    Alike iogroupList (first >>= fun _ => third) (second >>= fun _ => fourth) := by
  intro left right calls listed same
  have heads := one left right calls listed same
  rw [EStateM.run_bind, EStateM.run_bind]
  cases ran : first.run (left, calls) with
  | ok _ middle =>
      cases reran : second.run (right, calls) with
      | ok _ next =>
          rw [ran, reran] at heads
          obtain ⟨made, leftList, rightList⟩ := heads
          obtain ⟨middle, more⟩ := middle
          obtain ⟨next, again⟩ := next
          obtain rfl : more = again := made
          exact other middle next more leftList rightList
      | error reason next =>
          rw [ran, reran] at heads
          exact heads.elim
  | error reason middle =>
      cases reran : second.run (right, calls) with
      | ok _ next =>
          rw [ran, reran] at heads
          exact heads.elim
      | error thrown next =>
          rw [ran, reran] at heads
          exact heads

theorem alike_callGroup (call : GroupCall Group) :
    Alike iogroupList (callGroup groups call) (callGroup groups call) := by
  intro left right calls listed same
  cases answer : groups.perform calls call <;> simp [callGroup, EStateM.run, answer, listed, same]

theorem alike_pure : Alike iogroupList (pure () : MethodM Group Value Error Unit) (pure ()) :=
  fun _ _ _ listed same => ⟨rfl, listed, same⟩

theorem alike_setActive : Alike iogroupList (setActive : MethodM Group Value Error Unit) (pure ()) :=
  fun _ _ _ listed same => ⟨rfl, listed, same⟩

theorem alike_issue (made : List (GroupCall Group)) :
    Alike iogroupList (issue groups made) (issue groups made) := by
  induction made with
  | nil => exact alike_pure
  | cons call rest ih => exact (alike_callGroup call).bind ih

theorem alike_writeBatch :
    Alike iogroupList (writeBatch groups) (issue groups (iogroupList.map .writeBatch)) := by
  intro left right calls listed same
  have body : (writeBatch groups).run (left, calls) =
      (issue groups (iogroupList.map .writeBatch)).run (left, calls) := by
    rw [← issue_map, ← listed]
    rfl
  rw [body]
  exact alike_issue _ left right calls listed same

variable {controls : Pushed Group Unit}

theorem forM_congr {Item : Type} {items : List Item} {left right : Item → MethodM Group Value Error PUnit}
    (each : ∀ item ∈ items, left item = right item) : items.forM left = items.forM right := by
  induction items with
  | nil => rfl
  | cons item rest ih =>
      have tail := ih fun later member => each later (List.mem_cons_of_mem item member)
      change (left item >>= fun _ => rest.forM left) = (right item >>= fun _ => rest.forM right)
      rw [each item List.mem_cons_self, tail]

/-- How deep the recursion of `adjust` may go does not matter beyond the index. -/
theorem adjustUpTo_depth (sound : (controlKind groups iogroupList).Sound topo (controls, calls))
    (deep : idx < depth) (deeper : idx < other) :
    adjustUpTo groups controls setting depth idx = adjustUpTo groups controls setting other idx := by
  induction depth generalizing idx other with
  | zero => exact absurd deep (Nat.not_lt_zero idx)
  | succ depth ih =>
      cases other with
      | zero => exact absurd deeper (Nat.not_lt_zero idx)
      | succ other =>
          unfold adjustUpTo
          cases entry : controls.active[idx]? with
          | none => rfl
          | some pair =>
              obtain ⟨group, mark⟩ := pair
              cases group with
              | some iogroup => rfl
              | none =>
                  dsimp only
                  cases known : Assoc.lookup idx controls.combined with
                  | none => rfl
                  | some combined =>
                      have smaller := (sound.combined idx combined.1 combined.2 known).2
                      have same : combined.1.forM (adjustUpTo groups controls setting depth) =
                          combined.1.forM (adjustUpTo groups controls setting other) := by
                        apply forM_congr
                        intro operand member
                        have less := smaller operand member
                        exact ih (by omega) (by omega)
                      simp only [same]

theorem adjustUpTo_native (number : setting.isNan = false)
    (entry : controls.active[idx]? = some (some iogroup, groupIdx)) :
    adjustUpTo groups controls setting (depth + 1) idx =
      (do callGroup groups (.adjust iogroup groupIdx setting); setActive) := by
  unfold adjustUpTo
  rw [entry]
  simp only [number, Bool.false_eq_true, if_false]

theorem alike_adjustNative (number : setting.isNan = false)
    (entry : controls.active[idx]? = some (some iogroup, groupIdx)) :
    Alike iogroupList (adjustUpTo groups controls setting (depth + 1) idx)
      (callGroup groups (.adjust iogroup groupIdx setting)) := by
  have both : Alike iogroupList (adjustUpTo groups controls setting (depth + 1) idx)
      (callGroup groups (.adjust iogroup groupIdx setting) >>= fun _ => pure ()) := by
    rw [adjustUpTo_native number entry]
    exact (alike_callGroup _).bind alike_setActive
  rwa [bind_pure] at both

theorem alike_adjustAll {operands groupIdxs : List Nat} (number : setting.isNan = false)
    (entries : List.Forall₂ (fun operand groupIdx => controls.active[operand]? = some (some iogroup, groupIdx))
      operands groupIdxs) :
    Alike iogroupList (operands.forM (adjustUpTo groups controls setting (depth + 1)))
      (issue groups (groupIdxs.map (.adjust iogroup · setting))) := by
  induction entries with
  | nil => exact alike_pure
  | cons entry _ ih => exact (alike_adjustNative number entry).bind ih

theorem alike_adjustCombined {operands groupIdxs : List Nat} {combiner : Unit} (number : setting.isNan = false)
    (entry : controls.active[idx]? = some (none, idx))
    (combined : Assoc.lookup idx controls.combined = some (operands, combiner))
    (entries : List.Forall₂ (fun operand groupIdx => controls.active[operand]? = some (some iogroup, groupIdx))
      operands groupIdxs) :
    Alike iogroupList (adjustUpTo groups controls setting (depth + 2) idx)
      (issue groups (groupIdxs.map (.adjust iogroup · setting))) := by
  have body : adjustUpTo groups controls setting (depth + 2) idx =
      (do operands.forM (adjustUpTo groups controls setting (depth + 1)); setActive) := by
    rw [adjustUpTo, entry]
    simp only [number, combined, Bool.false_eq_true, if_false]
  have both : Alike iogroupList (adjustUpTo groups controls setting (depth + 2) idx)
      (issue groups (groupIdxs.map (.adjust iogroup · setting)) >>= fun _ => pure ()) := by
    rw [body]
    exact (alike_adjustAll number entries).bind alike_setActive
  rwa [bind_pure] at both

theorem writeControlUpTo_native (known : InRange topo request)
    (found : findControlIogroup groups iogroupList request.name = some iogroup)
    (base : groups.controlDomainType iogroup request.name = request.domainType) :
    (writeControlUpTo groups topo iogroupList setting (depth + 1) request : MethodM Group Value Error Unit) =
      callGroup groups (.writeControl iogroup request setting) := by
  rw [writeControlUpTo, if_neg (not_not.mpr known), found]
  simp only [base, ne_eq, not_true_eq_false, if_false]

/-- A setting is written for the domains within once at most. -/
theorem writeControlUpTo_deeper :
    (writeControlUpTo groups topo iogroupList setting (depth + 2) request : MethodM Group Value Error Unit) =
      writeControlUpTo groups topo iogroupList setting 2 request := by
  rw [writeControlUpTo, writeControlUpTo]
  cases found : findControlIogroup groups iogroupList request.name with
  | none => rfl
  | some iogroup =>
      have native : ∀ domainIdx : Int, (writeControlUpTo groups topo iogroupList setting (depth + 1)
          ⟨request.name, groups.controlDomainType iogroup request.name, domainIdx⟩ :
          MethodM Group Value Error Unit) =
          writeControlUpTo groups topo iogroupList setting 1
            ⟨request.name, groups.controlDomainType iogroup request.name, domainIdx⟩ := by
        intro domainIdx
        rw [writeControlUpTo, writeControlUpTo, found]
        simp only [ne_eq, not_true_eq_false, if_false]
      simp only [native]

end Adjusting

/-- How a method ends, and the calls of IOGroups that have been made then. -/
def outcome (computation : MethodM Group Value Error Unit)
    (state : PlatformIOImp Group Value × List (GroupCall Group)) :
    Except (PlatformError Error) Unit × List (GroupCall Group) :=
  match computation.run state with
  | .ok _ final => (.ok (), final.2)
  | .error reason final => (.error reason, final.2)

theorem Alike.outcome_eq {first second : MethodM Group Value Error Unit}
    (alike : Alike iogroupList first second) (listed : state.1.iogroupList = iogroupList) :
    outcome first state = outcome second state := by
  have both := alike state.1 state.1 state.2 listed listed
  unfold outcome
  cases ran : first.run state with
  | ok _ left =>
      cases reran : second.run state with
      | ok _ right =>
          rw [ran, reran] at both
          exact congrArg (Prod.mk (Except.ok ())) both.1
      | error reason right =>
          rw [ran, reran] at both
          exact both.elim
  | error reason left =>
      cases reran : second.run state with
      | ok _ right =>
          rw [ran, reran] at both
          exact both.elim
      | error thrown right =>
          rw [ran, reran] at both
          obtain ⟨rfl, same⟩ := both
          exact congrArg (Prod.mk (Except.error reason)) same

/-- A setting reaches the same native controls by the batch as by direct access: the IOGroup adjusts the
indices that it has returned for them, in the order in which it writes them directly, and all IOGroups
write their batch. -/
def AppliesAlike (groups : IOGroups Group Value Error) (topo : PlatformTopo) (request : Request)
    (controlIdx : Nat) (setting : Number) (state : PlatformIOImp Group Value × List (GroupCall Group)) :
    Prop :=
  ∃ iogroup natives groupIdxs, iogroup ∈ state.1.iogroupList ∧
    (∀ native ∈ natives, native.name = request.name ∧
      native.domainType = groups.controlDomainType iogroup request.name) ∧
    List.Forall₂ (fun native groupIdx =>
      (controlKind groups state.1.iogroupList).Returned state.2 iogroup native groupIdx) natives groupIdxs ∧
    outcome (do adjust groups controlIdx setting; writeBatch groups) state =
      outcome (issue groups (groupIdxs.map (.adjust iogroup · setting) ++
        state.1.iogroupList.map .writeBatch)) state ∧
    outcome (writeControl groups topo request setting) state =
      outcome (issue groups (natives.map (.writeControl iogroup · setting))) state

theorem findControlIogroup_mem {name : String} (found : findControlIogroup groups iogroupList name = some iogroup) :
    iogroup ∈ iogroupList := List.mem_reverse.mp (List.mem_of_find?_eq_some found)

/-- The indices that an IOGroup has returned for the native controls of a combined one. -/
theorem groupIdxs_of_natives {controls : Pushed Group Unit} {name : String} {indices : List Int}
    {operands : List Nat} (found : findControlIogroup groups iogroupList name = some iogroup)
    (natives : List.Forall₂ (fun domainIdx operand => IsNative (controlKind groups iogroupList) topo controls calls
      ⟨name, groups.controlDomainType iogroup name, domainIdx⟩ operand) indices operands) :
    ∃ groupIdxs, List.Forall₂ (fun domainIdx groupIdx => (controlKind groups iogroupList).Returned calls iogroup
        ⟨name, groups.controlDomainType iogroup name, domainIdx⟩ groupIdx) indices groupIdxs ∧
      List.Forall₂ (fun operand groupIdx => controls.active[operand]? = some (some iogroup, groupIdx))
        operands groupIdxs := by
  induction natives with
  | nil => exact ⟨[], .nil, .nil⟩
  | cons native _ ih =>
      obtain ⟨groupIdxs, returned, entries⟩ := ih
      obtain ⟨_, other, groupIdx, same, _, entry, one⟩ := native
      have group : findControlIogroup groups iogroupList name = some other := same
      rw [found] at group
      cases group
      exact ⟨groupIdx :: groupIdxs, .cons one returned, .cons entry entries⟩

theorem alike_batch {controlIdx : Nat} {made : List (GroupCall Group)}
    (listed : state.1.iogroupList = iogroupList)
    (adjusts : Alike iogroupList (adjustUpTo groups state.1.controls setting (controlIdx + 1) controlIdx)
      (issue groups made)) :
    outcome (do adjust groups controlIdx setting; writeBatch groups) state =
      outcome (issue groups (made ++ iogroupList.map .writeBatch)) state := by
  rw [issue_append, ← (adjusts.bind alike_writeBatch).outcome_eq listed]
  rfl

theorem appliesAlike_native (number : setting.isNan = false)
    (native : IsNative (controlKind groups state.1.iogroupList) topo state.1.controls state.2 request idx) :
    AppliesAlike groups topo request idx setting state := by
  obtain ⟨known, iogroup, groupIdx, found, base, entry, returned⟩ := native
  refine ⟨iogroup, [request], [groupIdx], findControlIogroup_mem found, ?_, .cons returned .nil, ?_, ?_⟩
  · intro native member
    rw [List.mem_singleton.mp member]
    exact ⟨rfl, base⟩
  · apply alike_batch rfl
    have adjusts : Alike state.1.iogroupList (adjustUpTo groups state.1.controls setting (idx + 1) idx)
        (callGroup groups (.adjust iogroup groupIdx setting) >>= fun _ => pure ()) := by
      rw [bind_pure]
      exact alike_adjustNative number entry
    exact adjusts
  · have direct : (writeControlUpTo groups topo state.1.iogroupList setting 2 request :
        MethodM Group Value Error Unit) = issue groups [.writeControl iogroup request setting] := by
      rw [writeControlUpTo_native known found base.symm, ← bind_pure (callGroup groups _)]
      rfl
    change outcome (writeControlUpTo groups topo state.1.iogroupList setting 2 request) state = _
    rw [direct]
    rfl

theorem appliesAlike_combined (sound : (controlKind groups state.1.iogroupList).Sound topo (state.1.controls, state.2))
    (number : setting.isNan = false)
    (combined : IsCombined (controlKind groups state.1.iogroupList) topo state.1.controls state.2 request idx) :
    AppliesAlike groups topo request idx setting state := by
  obtain ⟨known, iogroup, nested, operands, combiner, found, apart, isNested, domains, entry, operation,
    aggregation, natives⟩ := combined
  have group : findControlIogroup groups state.1.iogroupList request.name = some iogroup := found
  have base : groups.controlDomainType iogroup request.name ≠ request.domainType := Ne.symm apart
  have within : PlatformTopo.isNestedDomain (groups.controlDomainType iogroup request.name)
      request.domainType = true := isNested
  have nesting : topo.domainNested (groups.controlDomainType iogroup request.name) request.domainType
      request.domainIdx = .ok nested := domains
  obtain ⟨groupIdxs, returned, entries⟩ := groupIdxs_of_natives group natives
  refine ⟨iogroup, (nested.sort (· ≤ ·)).map fun domainIdx =>
    ⟨request.name, groups.controlDomainType iogroup request.name, domainIdx⟩, groupIdxs,
    findControlIogroup_mem group, ?_, List.forall₂_map_left_iff.mpr returned, ?_, ?_⟩
  · intro native member
    obtain ⟨domainIdx, _, rfl⟩ := List.mem_map.mp member
    exact ⟨rfl, rfl⟩
  · apply alike_batch rfl
    have depth : (adjustUpTo groups state.1.controls setting (idx + 1) idx : MethodM Group Value Error Unit) =
        adjustUpTo groups state.1.controls setting (idx + 2) idx :=
      adjustUpTo_depth sound (by omega) (by omega)
    rw [depth]
    exact alike_adjustCombined number entry operation entries
  · have each : ∀ domainIdx ∈ nested.sort (· ≤ ·),
        (writeControlUpTo groups topo state.1.iogroupList setting 1
          ⟨request.name, groups.controlDomainType iogroup request.name, domainIdx⟩ :
          MethodM Group Value Error Unit) =
        callGroup groups (.writeControl iogroup
          ⟨request.name, groups.controlDomainType iogroup request.name, domainIdx⟩ setting) := by
      intro domainIdx member
      obtain ⟨operand, _, native⟩ := Kind.mem_of_forall₂ natives.flip member
      exact writeControlUpTo_native native.1 group rfl
    change outcome (writeControlUpTo groups topo state.1.iogroupList setting 2 request) state = _
    rw [writeControlUpTo, if_neg (not_not.mpr known), group]
    dsimp only
    rw [if_pos base, if_pos within, nesting]
    dsimp only
    rw [forM_congr each, issue_map, List.map_map]
    rfl

/-- A setting is applied to the same native controls by the batch and directly. -/
theorem adjust_eq_writeControl (tracked : Tracked groups topo iogroupList state)
    (pushed : Assoc.lookup request state.1.controls.existing = some (some idx))
    (number : setting.isNan = false) : AppliesAlike groups topo request idx setting state := by
  obtain rfl : state.1.iogroupList = iogroupList := tracked.list
  rcases tracked.controls.existing request idx pushed with native | combined
  · exact appliesAlike_native number native
  · exact appliesAlike_combined tracked.controls number combined

theorem forM_error {Item : Type} {items : List Item} {body : Item → MethodM Group Value Error PUnit}
    {reason : PlatformError Error} (thrown : (items.forM body).run state = .error reason final) :
    ∃ item ∈ items, ∃ before after, (body item).run before = .error reason after := by
  induction items generalizing state with
  | nil => cases thrown
  | cons item rest ih =>
      rcases Stateful.error_of_bind thrown with head | ⟨_, middle, _, others⟩
      · exact ⟨item, List.mem_cons_self, state, final, head⟩
      · obtain ⟨later, member, somewhere⟩ := ih others
        exact ⟨later, List.mem_cons_of_mem item member, somewhere⟩

theorem callGroup_error {call : GroupCall Group} {reason : PlatformError Error}
    (thrown : (callGroup groups call).run state = .error reason final) : ∃ cause, reason = .group cause := by
  obtain ⟨platform, calls⟩ := state
  cases answer : groups.perform calls call with
  | error cause =>
      simp only [callGroup, EStateM.run, answer] at thrown
      cases thrown
      exact ⟨cause, rfl⟩
  | ok returned =>
      simp only [callGroup, EStateM.run, answer] at thrown
      cases thrown

/-- The recursion of `adjust` ends. -/
theorem adjustUpTo_ended {controls : Pushed Group Unit}
    (sound : (controlKind groups iogroupList).Sound topo (controls, calls)) (deep : idx < depth) :
    (adjustUpTo groups controls setting depth idx).run state ≠ .error .unended final := by
  induction depth generalizing idx state final with
  | zero => exact absurd deep (Nat.not_lt_zero idx)
  | succ depth ih =>
      unfold adjustUpTo
      cases entry : controls.active[idx]? with
      | none => exact fun thrown => by cases thrown
      | some pair =>
          obtain ⟨group, mark⟩ := pair
          dsimp only
          split
          · exact fun thrown => by cases thrown
          · cases group with
            | some iogroup =>
                intro thrown
                rcases Stateful.error_of_bind thrown with head | ⟨_, middle, _, active⟩
                · obtain ⟨cause, same⟩ := callGroup_error head
                  cases same
                · cases active
            | none =>
                dsimp only
                cases known : Assoc.lookup idx controls.combined with
                | none =>
                    intro thrown
                    cases thrown
                | some combined =>
                    have smaller := (sound.combined idx combined.1 combined.2 known).2
                    intro thrown
                    rcases Stateful.error_of_bind thrown with head | ⟨_, middle, _, active⟩
                    · obtain ⟨operand, member, before, after, same⟩ := forM_error head
                      have less := smaller operand member
                      exact ih (by omega) same
                    · cases active

/-- A combined entry refers to smaller indices. -/
def Ordered {Combiner : Type} (pushed : Pushed Group Combiner) : Prop :=
  ∀ idx operands combiner, Assoc.lookup idx pushed.combined = some (operands, combiner) →
    ∀ operand ∈ operands, operand < idx

theorem Tracked.pushSignal_again {again : Nat} (tracked : Tracked groups topo iogroupList state)
    (pushed : Assoc.lookup request state.1.signals.existing = some (some idx))
    (done : (pushSignal groups topo request).run state = .ok again final) : again = idx := by
  obtain ⟨⟨_, follows⟩, known⟩ := (pushSignal_ends request tracked).ok done
  have kept := follows.signals.existing request idx pushed
  rw [known] at kept
  exact Option.some.inj (Option.some.inj kept)

theorem Tracked.pushControl_again {again : Nat} (tracked : Tracked groups topo iogroupList state)
    (pushed : Assoc.lookup request state.1.controls.existing = some (some idx))
    (done : (pushControl groups topo request).run state = .ok again final) : again = idx := by
  obtain ⟨⟨_, follows⟩, known⟩ := (pushControl_ends request tracked).ok done
  have kept := follows.controls.existing request idx pushed
  rw [known] at kept
  exact Option.some.inj (Option.some.inj kept)

/-- In every run, what has been pushed is sampled as it is read directly and adjusted as it is written
directly; combined entries refer to smaller indices, so that the recursions end, and a request that is
pushed again has the same index. -/
theorem paths_agree (agrees : BatchAgrees groups iogroupList) (methods : List Method) :
    let state := after groups topo iogroupList methods
    Ordered state.1.signals ∧ Ordered state.1.controls ∧
    (∀ signalIdx depth, signalIdx < depth →
      sampleUpTo groups state.1 state.2 depth signalIdx =
        sampleUpTo groups state.1 state.2 (signalIdx + 1) signalIdx ∧
      sampleUpTo groups state.1 state.2 depth signalIdx ≠ .error .unended) ∧
    (∀ controlIdx setting final, (adjust groups controlIdx setting).run state ≠ .error .unended final) ∧
    (∀ request signalIdx pushed more,
      (pushSignal groups topo request).run state = .ok signalIdx pushed →
      let later := Transition.run (step groups topo) pushed more
      (∀ again final, (pushSignal groups topo request).run later = .ok again final → again = signalIdx) ∧
      ∀ final, (readBatch groups).run later = .ok () final →
        (sample groups signalIdx).run final = (readSignal groups topo request).run final) ∧
    ∀ request controlIdx pushed more,
      (pushControl groups topo request).run state = .ok controlIdx pushed →
      let later := Transition.run (step groups topo) pushed more
      (∀ again final, (pushControl groups topo request).run later = .ok again final → again = controlIdx) ∧
      ∀ setting : Number, setting.isNan = false →
        AppliesAlike groups topo request controlIdx setting later := by
  intro state
  have tracked : Tracked groups topo iogroupList state := (run_tracked methods tracked_new).1
  refine ⟨fun idx operands combiner known => (tracked.signals.combined idx operands combiner known).2,
    fun idx operands combiner known => (tracked.controls.combined idx operands combiner known).2, ?_,
    fun controlIdx setting final => adjustUpTo_ended tracked.controls (Nat.lt_succ_self controlIdx), ?_, ?_⟩
  · intro signalIdx depth deep
    exact ⟨sampleUpTo_depth tracked.signals deep (Nat.lt_succ_self signalIdx),
      sampleUpTo_ended tracked.signals deep⟩
  · intro request signalIdx pushed more done later
    obtain ⟨⟨next, _⟩, known⟩ := (pushSignal_ends request tracked).ok done
    obtain ⟨last, follows⟩ := run_tracked more next
    have kept := follows.signals.existing request signalIdx known
    exact ⟨fun again final repeated => last.pushSignal_again kept repeated,
      fun final read => sample_eq_readSignal agrees last kept read⟩
  · intro request controlIdx pushed more done later
    obtain ⟨⟨next, _⟩, known⟩ := (pushControl_ends request tracked).ok done
    obtain ⟨last, follows⟩ := run_tracked more next
    have kept := follows.controls.existing request controlIdx known
    exact ⟨fun again final repeated => last.pushControl_again kept repeated,
      fun setting number => adjust_eq_writeControl last kept number⟩

theorem issue_error {made : List (GroupCall Group)} {reason : PlatformError Error}
    (thrown : (issue groups made).run state = .error reason final) : ∃ cause, reason = .group cause := by
  obtain ⟨call, _, before, after, same⟩ := forM_error thrown
  exact callGroup_error same

/-- What is not a number is refused by the batch, and the IOGroups are not called. -/
theorem adjust_nan (tracked : Tracked groups topo iogroupList state)
    (pushed : Assoc.lookup request state.1.controls.existing = some (some idx)) (number : setting.isNan = true) :
    (adjust groups idx setting).run state = .error .settingNan state := by
  have known : ∃ entry, state.1.controls.active[idx]? = some entry := by
    rcases tracked.controls.existing request idx pushed with
      ⟨_, _, _, _, _, entry, _⟩ | ⟨_, _, _, _, _, _, _, _, _, entry, _⟩
    · exact ⟨_, entry⟩
    · exact ⟨_, entry⟩
  obtain ⟨entry, found⟩ := known
  have body : (adjustUpTo groups state.1.controls setting (idx + 1) idx).run state =
      .error .settingNan state := by
    rw [adjustUpTo, found]
    simp only [number, if_true]
    rfl
  exact body

theorem not_appliesAlike_nan (tracked : Tracked groups topo iogroupList state)
    (pushed : Assoc.lookup request state.1.controls.existing = some (some idx)) (number : setting.isNan = true) :
    ¬ AppliesAlike groups topo request idx setting state := by
  rintro ⟨iogroup, natives, groupIdxs, _, _, _, batch, _⟩
  have refused : outcome (do adjust groups idx setting; writeBatch groups) state =
      (.error .settingNan, state.2) := by
    rw [outcome, EStateM.run_bind, adjust_nan tracked pushed number]
  rw [refused] at batch
  cases ran : (issue groups (groupIdxs.map (.adjust iogroup · setting) ++
      state.1.iogroupList.map .writeBatch)).run state with
  | ok _ final =>
      rw [outcome, ran] at batch
      exact absurd (congrArg Prod.fst batch) (by simp)
  | error reason final =>
      obtain ⟨cause, rfl⟩ := issue_error ran
      rw [outcome, ran] at batch
      exact absurd (congrArg Prod.fst batch) (by simp)

/-- Two IOGroups for CPUs. -/
def twoGroups : IOGroups Bool Nat Unit where
  isValidSignal _ _ := true
  isValidControl _ _ := true
  signalDomainType _ _ := .cpu
  controlDomainType _ _ := .cpu
  aggFunction _ _ := pure List.sum
  pushSignal _ _ request := pure request.domainIdx.toNat
  pushControl _ _ request := pure request.domainIdx.toNat
  sample _ iogroup groupIdx := pure (groupIdx + if iogroup then 10 else 20)
  readSignal _ iogroup request := pure (request.domainIdx.toNat + if iogroup then 10 else 20)
  perform _ _ := pure ()

/-- A package with one CPU. -/
def singleCpu : PlatformTopo where
  numPackage := 1
  corePerPackage := 1
  threadPerCore := 1
  numaMap := [{0}]
  numAccelerator := 0
  cpuAffinityIdeal _ := ∅

def packagePower : Request := ⟨"POWER", .package, 0⟩

theorem twoGroups_agrees (iogroupList : List Bool) : BatchAgrees twoGroups iogroupList := by
  rintro calls iogroup request groupIdx _ _ ⟨before, rest, _, answer⟩ _
  cases answer
  rfl

/-- The state after a signal of the package has been pushed. -/
def pushedPower : PlatformIOImp Bool Nat × List (GroupCall Bool) :=
  Stateful.leaves (pushSignal twoGroups singleCpu packagePower) (after twoGroups singleCpu [true] [.saveControl])

theorem paths_agree_package :
    BatchAgrees twoGroups [true] ∧
    ∃ signalIdx pushed, (pushSignal twoGroups singleCpu packagePower).run
        (after twoGroups singleCpu [true] [.saveControl]) = .ok signalIdx pushed ∧
      ∃ final, (readBatch twoGroups).run pushed = .ok () final ∧
        (sample twoGroups signalIdx).run final = (readSignal twoGroups singleCpu packagePower).run final := by
  have pushes : Stateful.returns (pushSignal twoGroups singleCpu packagePower)
      (after twoGroups singleCpu [true] [.saveControl]) = true := by decide +kernel
  have reads : Stateful.returns (readBatch twoGroups) pushedPower = true := by decide +kernel
  obtain ⟨signalIdx, pushed, done⟩ := Stateful.ok_of_returns pushes
  have same : pushedPower = pushed := Stateful.leaves_of_ok done
  obtain ⟨_, final, read⟩ := Stateful.ok_of_returns reads
  rw [same] at read
  obtain ⟨_, _, _, _, signals, _⟩ :=
    @paths_agree _ _ _ twoGroups singleCpu [true] (twoGroups_agrees [true]) [.saveControl]
  exact ⟨twoGroups_agrees [true], signalIdx, pushed, done, final, read,
    (signals packagePower signalIdx pushed [] done).2 final read⟩

/-- The state after a signal of the package has been pushed for the IOGroup that is registered. -/
def pushedFirst : PlatformIOImp Bool Nat × List (GroupCall Bool) :=
  after twoGroups singleCpu [true] [.pushSignal packagePower]

/-- The same after another IOGroup has been registered and the batch has been read. -/
def registeredLate : PlatformIOImp Bool Nat × List (GroupCall Bool) :=
  Stateful.leaves (readBatch twoGroups)
    (Stateful.leaves (registerIogroup false : MethodM Bool Nat Unit Unit) pushedFirst)

/-- What is not a number is written directly but refused by the batch; an IOGroup that is registered after a
push has been made answers direct reads in place of the one that was asked before; and no request can be
pushed again after a batch has been read. -/
theorem not_paths_agree :
    (∃ controlIdx pushed, (pushControl twoGroups singleCpu packagePower).run
        (after twoGroups singleCpu [true] [.saveControl]) = .ok controlIdx pushed ∧
      ¬ AppliesAlike twoGroups singleCpu packagePower controlIdx .nan pushed ∧
      outcome (writeControl twoGroups singleCpu packagePower .nan) pushed =
        (.ok (), pushed.2 ++ [.writeControl true ⟨"POWER", .cpu, 0⟩ .nan])) ∧
    (EStateM.run' (pushSignal twoGroups singleCpu packagePower) pushedFirst = some 1 ∧
      EStateM.run' (sample twoGroups 1) registeredLate = some 10 ∧
      EStateM.run' (readSignal twoGroups singleCpu packagePower) registeredLate = some 20) ∧
    EStateM.run' (pushSignal twoGroups singleCpu packagePower)
      (Stateful.leaves (readBatch twoGroups) pushedFirst) = none := by
  refine ⟨?_, by decide +kernel, by decide +kernel⟩
  have pushes : Stateful.returns (pushControl twoGroups singleCpu packagePower)
      (after twoGroups singleCpu [true] [.saveControl]) = true := by decide +kernel
  obtain ⟨controlIdx, pushed, done⟩ := Stateful.ok_of_returns pushes
  have writes : outcome (writeControl twoGroups singleCpu packagePower .nan)
      (Stateful.leaves (pushControl twoGroups singleCpu packagePower)
        (after twoGroups singleCpu [true] [.saveControl])) =
      (.ok (), (Stateful.leaves (pushControl twoGroups singleCpu packagePower)
        (after twoGroups singleCpu [true] [.saveControl])).2 ++
        [.writeControl true ⟨"POWER", .cpu, 0⟩ .nan]) := by decide +kernel
  rw [Stateful.leaves_of_ok done] at writes
  have tracked : Tracked twoGroups singleCpu [true] (after twoGroups singleCpu [true] [.saveControl]) :=
    (run_tracked [.saveControl] tracked_new).1
  obtain ⟨⟨next, _⟩, known⟩ := (pushControl_ends packagePower tracked).ok done
  exact ⟨controlIdx, pushed, done, not_appliesAlike_nan next known rfl, writes⟩

end PlatformIOImp

end Geopm
