import Geopm.PlatformIOImp.Methods

namespace Geopm

/-! `PlatformIOImp`: what the tables of pushed requests say in every state. -/

namespace Kind

open Stateful (leaves Ends ends_of_ok ends_of_error)

variable {Group Combiner Error : Type} {kind : Kind Group Combiner Error} {topo : PlatformTopo}
  {pushed later last : Pushed Group Combiner} {calls more : List (GroupCall Group)} {request other : Request}
  {idx groupIdx depth : Nat} {iogroup : Group} {state after : Pushed Group Combiner × List (GroupCall Group)}

/-- An IOGroup has returned the index when the request was passed on to it. -/
def Returned (kind : Kind Group Combiner Error) (calls : List (GroupCall Group)) (iogroup : Group)
    (request : Request) (groupIdx : Nat) : Prop :=
  ∃ before after, calls = before ++ kind.call iogroup request :: after ∧
    kind.pushGroup before iogroup request = .ok groupIdx

theorem Returned.append (returned : kind.Returned calls iogroup request groupIdx) :
    kind.Returned (calls ++ more) iogroup request groupIdx := by
  obtain ⟨before, after, rfl, answer⟩ := returned
  exact ⟨before, after ++ more, by rw [List.append_assoc, List.cons_append], answer⟩

/-- The entry is for a request that an IOGroup answers itself. -/
def IsNative (kind : Kind Group Combiner Error) (topo : PlatformTopo) (pushed : Pushed Group Combiner)
    (calls : List (GroupCall Group)) (request : Request) (idx : Nat) : Prop :=
  InRange topo request ∧ ∃ iogroup groupIdx, kind.findGroup request.name = some iogroup ∧
    request.domainType = kind.domainType iogroup request.name ∧
    pushed.active[idx]? = some (some iogroup, groupIdx) ∧ kind.Returned calls iogroup request groupIdx

/-- The entry combines those of the domains within. -/
def IsCombined (kind : Kind Group Combiner Error) (topo : PlatformTopo) (pushed : Pushed Group Combiner)
    (calls : List (GroupCall Group)) (request : Request) (idx : Nat) : Prop :=
  InRange topo request ∧ ∃ iogroup nested operands combiner, kind.findGroup request.name = some iogroup ∧
    request.domainType ≠ kind.domainType iogroup request.name ∧
    PlatformTopo.isNestedDomain (kind.domainType iogroup request.name) request.domainType = true ∧
    topo.domainNested (kind.domainType iogroup request.name) request.domainType request.domainIdx =
      .ok nested ∧
    pushed.active[idx]? = some (none, idx) ∧
    Assoc.lookup idx pushed.combined = some (operands, combiner) ∧ kind.combiner request.name = .ok combiner ∧
    List.Forall₂ (fun domainIdx operand => IsNative kind topo pushed calls
      ⟨request.name, kind.domainType iogroup request.name, domainIdx⟩ operand)
      (nested.sort (· ≤ ·)) operands

/-- The tables say what each request has become, and combine smaller indices only. -/
structure Sound (kind : Kind Group Combiner Error) (topo : PlatformTopo)
    (state : Pushed Group Combiner × List (GroupCall Group)) : Prop where
  existing : ∀ request idx, Assoc.lookup request state.1.existing = some (some idx) →
    IsNative kind topo state.1 state.2 request idx ∨ IsCombined kind topo state.1 state.2 request idx
  combined : ∀ idx operands combiner, Assoc.lookup idx state.1.combined = some (operands, combiner) →
    idx < state.1.active.length ∧ ∀ operand ∈ operands, operand < idx
  marks : ∀ idx mark, state.1.active[idx]? = some (none, mark) →
    mark = idx ∧ (Assoc.lookup idx state.1.combined).isSome = true

/-- What has been pushed stays. -/
structure Grows (state after : Pushed Group Combiner × List (GroupCall Group)) : Prop where
  active : state.1.active <+: after.1.active
  existing : ∀ request idx, Assoc.lookup request state.1.existing = some (some idx) →
    Assoc.lookup request after.1.existing = some (some idx)
  combined : ∀ idx < state.1.active.length,
    Assoc.lookup idx after.1.combined = Assoc.lookup idx state.1.combined
  calls : state.2 <+: after.2

theorem Grows.refl {state : Pushed Group Combiner × List (GroupCall Group)} : Grows state state :=
  ⟨List.prefix_rfl, fun _ _ found => found, fun _ _ => rfl, List.prefix_rfl⟩

theorem Grows.trans {middle : Pushed Group Combiner × List (GroupCall Group)} (first : Grows state middle) (second : Grows middle after) : Grows state after where
  active := first.active.trans second.active
  existing request idx found := second.existing request idx (first.existing request idx found)
  combined idx known := by
    rw [second.combined idx (known.trans_le first.active.length_le), first.combined idx known]
  calls := first.calls.trans second.calls

theorem Grows.active_eq {entry : Option Group × Nat} (grows : Grows state after)
    (found : state.1.active[idx]? = some entry) :
    after.1.active[idx]? = some entry := by
  obtain ⟨more, same⟩ := grows.active
  rw [← same, List.getElem?_append_left (List.getElem?_eq_some_iff.mp found).1, found]

theorem IsNative.grows (native : IsNative kind topo state.1 state.2 request idx)
    (grows : Grows state after) : IsNative kind topo after.1 after.2 request idx := by
  obtain ⟨known, iogroup, groupIdx, found, base, entry, returned⟩ := native
  obtain ⟨more, same⟩ := grows.calls
  exact ⟨known, iogroup, groupIdx, found, base, grows.active_eq entry, same ▸ returned.append⟩

theorem IsNative.lt (native : IsNative kind topo state.1 state.2 request idx) :
    idx < state.1.active.length := by
  obtain ⟨_, iogroup, groupIdx, _, _, entry, _⟩ := native
  exact (List.getElem?_eq_some_iff.mp entry).1

theorem IsCombined.grows (combined : IsCombined kind topo state.1 state.2 request idx)
    (grows : Grows state after) : IsCombined kind topo after.1 after.2 request idx := by
  obtain ⟨known, iogroup, nested, operands, combiner, found, base, isNested, domains, entry, operation,
    aggregation, natives⟩ := combined
  refine ⟨known, iogroup, nested, operands, combiner, found, base, isNested, domains,
    grows.active_eq entry, ?_, aggregation, ?_⟩
  · rw [grows.combined idx (List.getElem?_eq_some_iff.mp entry).1]
    exact operation
  · exact natives.imp fun domainIdx operand native => native.grows grows

theorem getElem?_concat {Entry : Type} {entries : List Entry} {entry last : Entry} :
    (entries ++ [last])[idx]? = some entry ↔ entries[idx]? = some entry ∨ idx = entries.length ∧ last = entry := by
  by_cases inside : idx < entries.length
  · rw [List.getElem?_append_left inside]
    exact (or_iff_left fun beyond => inside.ne beyond.1).symm
  · rw [List.getElem?_append_right (not_lt.mp inside), List.getElem?_eq_none (not_lt.mp inside)]
    rcases eq_or_ne idx entries.length with rfl | beyond
    · simp
    · have past : [last].length ≤ idx - entries.length := by
        rw [List.length_singleton]
        omega
      rw [List.getElem?_eq_none past]
      simp [beyond]

/-- A call of an IOGroup changes no table. -/
theorem sound_calls (sound : Sound kind topo (pushed, calls)) (longer : calls <+: more) :
    Sound kind topo (pushed, more) ∧ Grows (pushed, calls) (pushed, more) := by
  have grows : Grows (pushed, calls) (pushed, more) :=
    ⟨List.prefix_rfl, fun _ _ earlier => earlier, fun _ _ => rfl, longer⟩
  refine ⟨⟨?_, sound.combined, sound.marks⟩, grows⟩
  intro other idx entry
  exact (sound.existing other idx entry).imp (·.grows grows) (·.grows grows)

/-- The state after a request has been passed on. -/
theorem sound_addNative (sound : Sound kind topo (pushed, calls)) (known : InRange topo request)
    (found : kind.findGroup request.name = some iogroup)
    (base : request.domainType = kind.domainType iogroup request.name)
    (new : ∀ idx, Assoc.lookup request pushed.existing ≠ some (some idx))
    (answer : kind.pushGroup calls iogroup request = .ok groupIdx)
    (state_eq : state = (pushed.addNative request iogroup groupIdx, calls ++ [kind.call iogroup request])) :
    Sound kind topo state ∧ Grows (pushed, calls) state ∧
      IsNative kind topo state.1 state.2 request pushed.active.length := by
  subst state_eq
  have grows : Grows (pushed, calls)
      (pushed.addNative request iogroup groupIdx, calls ++ [kind.call iogroup request]) := by
    refine ⟨List.prefix_append _ _, ?_, fun _ _ => rfl, List.prefix_append _ _⟩
    intro other idx earlier
    have different : other ≠ request := by
      rintro rfl
      exact new idx earlier
    exact (Assoc.lookup_assign_ne different).trans earlier
  have native : IsNative kind topo (pushed.addNative request iogroup groupIdx)
      (calls ++ [kind.call iogroup request]) request pushed.active.length :=
    ⟨known, iogroup, groupIdx, found, base, getElem?_concat.mpr (.inr ⟨rfl, rfl⟩), calls, [], rfl, answer⟩
  refine ⟨⟨?_, ?_, ?_⟩, grows, native⟩
  · intro other idx entry
    by_cases same : other = request
    · subst same
      rw [Pushed.addNative, Assoc.lookup_assign] at entry
      cases entry
      exact .inl native
    · rw [Pushed.addNative, Assoc.lookup_assign_ne same] at entry
      exact (sound.existing other idx entry).imp (·.grows grows) (·.grows grows)
  · intro idx operands combiner entry
    obtain ⟨bound, smaller⟩ := sound.combined idx operands combiner entry
    exact ⟨bound.trans_le grows.active.length_le, smaller⟩
  · intro idx mark entry
    rcases getElem?_concat.mp entry with earlier | ⟨_, last⟩
    · exact sound.marks idx mark earlier
    · cases last

/-- The state after entries have been combined. -/
theorem sound_addCombined (operands : List Nat) (combiner : Combiner)
    (sound : Sound kind topo (pushed, calls)) (smaller : ∀ operand ∈ operands, operand < pushed.active.length) :
    Sound kind topo (pushed.addCombined operands combiner, calls) ∧
      Grows (pushed, calls) (pushed.addCombined operands combiner, calls) := by
  have grows : Grows (pushed, calls) (pushed.addCombined operands combiner, calls) := by
    refine ⟨List.prefix_append _ _, fun _ _ earlier => earlier, ?_, List.prefix_rfl⟩
    intro idx bound
    exact Assoc.lookup_assign_ne bound.ne
  refine ⟨⟨?_, ?_, ?_⟩, grows⟩
  · intro other idx entry
    exact (sound.existing other idx entry).imp (·.grows grows) (·.grows grows)
  · intro idx others operation entry
    have longer : (pushed.addCombined operands combiner).active.length = pushed.active.length + 1 :=
      List.length_append
    rw [longer]
    by_cases same : idx = pushed.active.length
    · subst same
      rw [Pushed.addCombined, Assoc.lookup_assign] at entry
      cases entry
      exact ⟨Nat.lt_succ_self _, smaller⟩
    · rw [Pushed.addCombined, Assoc.lookup_assign_ne same] at entry
      obtain ⟨bound, others⟩ := sound.combined idx others operation entry
      exact ⟨bound.trans (Nat.lt_succ_self _), others⟩
  · intro idx mark entry
    rcases getElem?_concat.mp entry with earlier | ⟨rfl, last⟩
    · obtain ⟨same, present⟩ := sound.marks idx mark earlier
      refine ⟨same, ?_⟩
      rw [grows.combined idx (List.getElem?_eq_some_iff.mp earlier).1]
      exact present
    · cases last
      refine ⟨rfl, ?_⟩
      rw [Pushed.addCombined, Assoc.lookup_assign]
      rfl

/-- The state after a request has been noted that was not known before. -/
theorem sound_setExisting {result : Option Nat} (sound : Sound kind topo (pushed, calls))
    (new : ∀ idx, Assoc.lookup request pushed.existing ≠ some (some idx))
    (entry : ∀ idx, result = some idx → IsCombined kind topo pushed calls request idx) :
    Sound kind topo (pushed.setExisting request result, calls) ∧
      Grows (pushed, calls) (pushed.setExisting request result, calls) := by
  have grows : Grows (pushed, calls) (pushed.setExisting request result, calls) := by
    refine ⟨List.prefix_rfl, ?_, fun _ _ => rfl, List.prefix_rfl⟩
    intro other idx earlier
    have different : other ≠ request := by
      rintro rfl
      exact new idx earlier
    exact (Assoc.lookup_assign_ne different).trans earlier
  refine ⟨⟨?_, sound.combined, sound.marks⟩, grows⟩
  intro other idx known
  by_cases same : other = request
  · subst same
    rw [Pushed.setExisting, Assoc.lookup_assign] at known
    cases known
    exact .inr ((entry idx rfl).grows grows)
  · rw [Pushed.setExisting, Assoc.lookup_assign_ne same] at known
    exact (sound.existing other idx known).imp (·.grows grows) (·.grows grows)

/-- What a push keeps, with the requests that it may note. -/
structure Keeps (kind : Kind Group Combiner Error) (topo : PlatformTopo) (touched : Request → Prop)
    (state after : Pushed Group Combiner × List (GroupCall Group)) : Prop where
  sound : Sound kind topo after
  grows : Grows state after
  others : ∀ other, ¬ touched other →
    Assoc.lookup other after.1.existing = Assoc.lookup other state.1.existing

variable {touched : Request → Prop}

theorem Keeps.refl (sound : Sound kind topo state) : Keeps kind topo touched state state :=
  ⟨sound, Grows.refl, fun _ _ => rfl⟩

theorem Keeps.trans {middle : Pushed Group Combiner × List (GroupCall Group)}
    (first : Keeps kind topo touched state middle) (second : Keeps kind topo touched middle after) :
    Keeps kind topo touched state after :=
  ⟨second.sound, first.grows.trans second.grows,
    fun other apart => (second.others other apart).trans (first.others other apart)⟩

theorem Sound.native (sound : Sound kind topo state) (found : kind.findGroup request.name = some iogroup)
    (base : request.domainType = kind.domainType iogroup request.name)
    (known : Assoc.lookup request state.1.existing = some (some idx)) :
    IsNative kind topo state.1 state.2 request idx := by
  rcases sound.existing request idx known with native | ⟨_, other, _, _, _, same, apart, _⟩
  · exact native
  · rw [found] at same
    cases same
    exact absurd base apart

theorem pushNative_ends (sound : Sound kind topo state) (known : InRange topo request)
    (found : kind.findGroup request.name = some iogroup)
    (base : request.domainType = kind.domainType iogroup request.name)
    (new : ∀ idx, Assoc.lookup request state.1.existing ≠ some (some idx)) :
    Ends (kind.pushNative iogroup request) state (Keeps kind topo (· = request) state)
      fun idx after => IsNative kind topo after.1 after.2 request idx ∧
        Assoc.lookup request after.1.existing = some (some idx) := by
  obtain ⟨pushed, calls⟩ := state
  cases answer : kind.pushGroup calls iogroup request with
  | error reason =>
      have thrown : (kind.pushNative iogroup request).run (pushed, calls) =
          .error (.group reason) (pushed, calls ++ [kind.call iogroup request]) := by
        simp only [pushNative, EStateM.run, answer]
      obtain ⟨next, grows⟩ := sound_calls sound (List.prefix_append calls [kind.call iogroup request])
      exact ends_of_error thrown ⟨next, grows, fun _ _ => rfl⟩
  | ok groupIdx =>
      have done : (kind.pushNative iogroup request).run (pushed, calls) = .ok pushed.active.length
          (pushed.addNative request iogroup groupIdx, calls ++ [kind.call iogroup request]) := by
        simp only [pushNative, EStateM.run, answer]
      obtain ⟨next, grows, native⟩ := sound_addNative sound known found base new answer rfl
      exact ends_of_ok done ⟨next, grows, fun other apart => Assoc.lookup_assign_ne apart⟩
        ⟨native, Assoc.lookup_assign⟩

theorem push_outside (outside : ¬ InRange topo request) :
    (kind.push topo (depth + 1) request).run state = .error kind.outOfRange state := by
  simp [push, outside]

/-- A request that has been pushed before. -/
theorem push_known (inside : InRange topo request)
    (known : Assoc.lookup request state.1.existing = some (some idx)) :
    (kind.push topo (depth + 1) request).run state = .ok idx state := by
  simp [push, inside, known]

/-- A request that is new. -/
theorem push_new (inside : InRange topo request)
    (new : ∀ idx, Assoc.lookup request state.1.existing ≠ some (some idx))
    (found : kind.findGroup request.name = some iogroup) :
    (kind.push topo (depth + 1) request).run state =
      (if request.domainType = kind.domainType iogroup request.name then kind.pushNative iogroup request
      else kind.pushOther topo (kind.push topo depth) request).run state := by
  unfold push
  rw [if_neg (not_not.mpr inside)]
  cases known : Assoc.lookup request state.1.existing with
  | none => simp only [EStateM.run_bind, EStateM.run_get, known, found]
  | some result =>
      cases result with
      | none => simp only [EStateM.run_bind, EStateM.run_get, known, found]
      | some idx => exact absurd known (new idx)

theorem push_unknown (inside : InRange topo request)
    (new : ∀ idx, Assoc.lookup request state.1.existing ≠ some (some idx))
    (unknown : kind.findGroup request.name = none) :
    (kind.push topo (depth + 1) request).run state = .error (kind.unsupported request) state := by
  unfold push
  rw [if_neg (not_not.mpr inside)]
  cases known : Assoc.lookup request state.1.existing with
  | none => simp only [EStateM.run_bind, EStateM.run_get, known, unknown, Stateful.run_throw]
  | some result =>
      cases result with
      | none => simp only [EStateM.run_bind, EStateM.run_get, known, unknown, Stateful.run_throw]
      | some idx => exact absurd known (new idx)

theorem push_native (request : Request) (depth : Nat) (sound : Sound kind topo state)
    (found : kind.findGroup request.name = some iogroup)
    (base : request.domainType = kind.domainType iogroup request.name) :
    Ends (kind.push topo (depth + 1) request) state (Keeps kind topo (· = request) state)
      fun idx after => Assoc.lookup request after.1.existing = some (some idx) := by
  by_cases inside : InRange topo request
  case neg => exact ends_of_error (push_outside inside) (Keeps.refl sound)
  case pos =>
      by_cases known : ∃ idx, Assoc.lookup request state.1.existing = some (some idx)
      case pos =>
          obtain ⟨idx, known⟩ := known
          exact ends_of_ok (push_known inside known) (Keeps.refl sound) known
      case neg =>
          have new := not_exists.mp known
          have native := (pushNative_ends sound inside found base new).mono (fun _ keeps => keeps)
            fun _ _ _ holds => holds.2
          refine native.of_run_eq ?_
          rw [push_new inside new found, if_pos base]

theorem pushAll_ends {name : String} {base : Domain} (found : kind.findGroup name = some iogroup)
    (native : base = kind.domainType iogroup name) {indices : List Int} (sound : Sound kind topo state) :
    Ends (pushAll (kind.push topo (depth + 1)) name base indices) state
      (Keeps kind topo (·.domainType = base) state) fun operands after =>
        List.Forall₂ (fun domainIdx operand => IsNative kind topo after.1 after.2 ⟨name, base, domainIdx⟩ operand)
          indices operands := by
  induction indices generalizing state with
  | nil => exact ends_of_ok rfl (Keeps.refl sound) .nil
  | cons domainIdx rest ih =>
      have first := push_native ⟨name, base, domainIdx⟩ depth sound found native
      have kept : Ends (kind.push topo (depth + 1) ⟨name, base, domainIdx⟩) state
          (Keeps kind topo (·.domainType = base) state)
          fun idx after => IsNative kind topo after.1 after.2 ⟨name, base, domainIdx⟩ idx := by
        refine first.mono (fun after keeps => ⟨keeps.sound, keeps.grows, fun other apart => ?_⟩)
          fun idx after keeps known => keeps.sound.native found native known
        exact keeps.others other fun same => apart (congrArg Request.domainType same)
      refine kept.bind fun idx middle keeps one => ?_
      have others : Ends (pushAll (kind.push topo (depth + 1)) name base rest) middle
          (Keeps kind topo (·.domainType = base) state) fun operands after =>
            IsNative kind topo after.1 after.2 ⟨name, base, domainIdx⟩ idx ∧
            List.Forall₂ (fun domainIdx operand =>
              IsNative kind topo after.1 after.2 ⟨name, base, domainIdx⟩ operand) rest operands :=
        (ih keeps.sound).mono (fun after later => keeps.trans later)
          fun operands after later natives => ⟨one.grows later.grows, natives⟩
      refine others.bind fun operands after later holds => ?_
      exact ends_of_ok rfl later (.cons holds.1 holds.2)

theorem pushCombined_ends {name : String} {operands : List Nat} (sound : Sound kind topo (pushed, calls))
    (smaller : ∀ operand ∈ operands, operand < pushed.active.length) :
    Ends (kind.pushCombined name operands) (pushed, calls)
      (fun after => Sound kind topo after ∧ Grows (pushed, calls) after ∧
        ∀ other, Assoc.lookup other after.1.existing = Assoc.lookup other pushed.existing)
      fun idx after => ∃ combiner, kind.combiner name = .ok combiner ∧
        after.1.active[idx]? = some (none, idx) ∧
        Assoc.lookup idx after.1.combined = some (operands, combiner) := by
  cases aggregation : kind.combiner name with
  | error reason =>
      have thrown : (kind.pushCombined name operands).run (pushed, calls) = .error reason (pushed, calls) := by
        simp only [pushCombined, EStateM.run, aggregation]
      exact ends_of_error thrown ⟨sound, Grows.refl, fun _ => rfl⟩
  | ok combiner =>
      have done : (kind.pushCombined name operands).run (pushed, calls) =
          .ok pushed.active.length (pushed.addCombined operands combiner, calls) := by
        simp only [pushCombined, EStateM.run, aggregation]
      obtain ⟨next, grows⟩ := sound_addCombined operands combiner sound smaller
      exact ends_of_ok done ⟨next, grows, fun _ => rfl⟩
        ⟨combiner, rfl, getElem?_concat.mpr (.inr ⟨rfl, rfl⟩), Assoc.lookup_assign⟩

theorem mem_of_forall₂ {First Second : Type} {relation : First → Second → Prop} {firsts : List First}
    {seconds : List Second} {second : Second} (all : List.Forall₂ relation firsts seconds)
    (member : second ∈ seconds) : ∃ first ∈ firsts, relation first second := by
  induction all with
  | nil => cases member
  | cons head _ ih =>
      rcases List.mem_cons.mp member with rfl | rest
      · exact ⟨_, List.mem_cons_self, head⟩
      · obtain ⟨first, known, related⟩ := ih rest
        exact ⟨first, List.mem_cons_of_mem _ known, related⟩

theorem pushConvertDomain_ends (depth : Nat) (sound : Sound kind topo state) (known : InRange topo request)
    (found : kind.findGroup request.name = some iogroup)
    (apart : request.domainType ≠ kind.domainType iogroup request.name) :
    Ends (kind.pushConvertDomain topo (kind.push topo (depth + 1)) request) state
      (Keeps kind topo (·.domainType = kind.domainType iogroup request.name) state)
      fun result after => ∀ idx, result = some idx → IsCombined kind topo after.1 after.2 request idx := by
  unfold pushConvertDomain
  rw [found]
  dsimp only
  split
  · rename_i isNested
    cases domains : topo.domainNested (kind.domainType iogroup request.name) request.domainType
        request.domainIdx with
    | error reason => exact ends_of_error rfl (Keeps.refl sound)
    | ok nested =>
        refine (pushAll_ends found rfl sound).bind fun operands middle keeps natives => ?_
        obtain ⟨pushed, calls⟩ := middle
        have smaller : ∀ operand ∈ operands, operand < pushed.active.length := by
          intro operand member
          obtain ⟨domainIdx, _, native⟩ := mem_of_forall₂ natives member
          exact native.lt
        refine ((pushCombined_ends keeps.sound smaller).mono (fun after kept => ⟨kept.1, keeps.grows.trans kept.2.1,
          fun other apart => (kept.2.2 other).trans (keeps.others other apart)⟩)
          fun idx after kept entry => And.intro kept entry).bind ?_
        rintro idx after kept ⟨⟨_, grows, _⟩, combiner, aggregation, mark, operation⟩
        refine ends_of_ok rfl kept ?_
        rintro _ same
        cases same
        exact ⟨known, iogroup, nested, operands, combiner, found, apart, isNested, domains, mark, operation,
          aggregation, natives.imp fun domainIdx operand native => native.grows grows⟩
  · refine ends_of_ok rfl (Keeps.refl sound) ?_
    intro idx absent
    cases absent

theorem pushOther_ends (depth : Nat) (sound : Sound kind topo state) (inside : InRange topo request)
    (new : ∀ idx, Assoc.lookup request state.1.existing ≠ some (some idx))
    (found : kind.findGroup request.name = some iogroup)
    (apart : request.domainType ≠ kind.domainType iogroup request.name) :
    Ends (kind.pushOther topo (kind.push topo (depth + 1)) request) state
      (fun after => Sound kind topo after ∧ Grows state after)
      fun idx after => Assoc.lookup request after.1.existing = some (some idx) := by
  have converted : Ends (kind.pushConvertDomain topo (kind.push topo (depth + 1)) request) state
      (fun after => Sound kind topo after ∧ Grows state after)
      fun result after => (∀ idx, result = some idx → IsCombined kind topo after.1 after.2 request idx) ∧
        ∀ idx, Assoc.lookup request after.1.existing ≠ some (some idx) := by
    refine (pushConvertDomain_ends depth sound inside found apart).mono
      (fun _ keeps => ⟨keeps.sound, keeps.grows⟩) fun result after keeps entry => ⟨entry, ?_⟩
    rw [keeps.others request apart]
    exact new
  refine converted.bind ?_
  rintro result ⟨pushed, calls⟩ ⟨kept, grown⟩ ⟨entry, fresh⟩
  obtain ⟨noted, grows⟩ := sound_setExisting kept fresh entry
  cases result with
  | none => exact ends_of_error rfl ⟨noted, grown.trans grows⟩
  | some idx => exact ends_of_ok rfl ⟨noted, grown.trans grows⟩ Assoc.lookup_assign

/-- A push keeps what the tables say, and notes the index that it returns. -/
theorem push_ends (depth : Nat) (request : Request) (sound : Sound kind topo state) :
    Ends (kind.push topo (depth + 2) request) state
      (fun after => Sound kind topo after ∧ Grows state after)
      fun idx after => Assoc.lookup request after.1.existing = some (some idx) := by
  by_cases inside : InRange topo request
  case neg => exact ends_of_error (push_outside inside) ⟨sound, Grows.refl⟩
  case pos =>
      by_cases known : ∃ idx, Assoc.lookup request state.1.existing = some (some idx)
      case pos =>
          obtain ⟨idx, known⟩ := known
          exact ends_of_ok (push_known inside known) ⟨sound, Grows.refl⟩ known
      case neg =>
          have new := not_exists.mp known
          cases found : kind.findGroup request.name with
          | none => exact ends_of_error (push_unknown inside new found) ⟨sound, Grows.refl⟩
          | some iogroup =>
              by_cases base : request.domainType = kind.domainType iogroup request.name
              case pos =>
                  have native := (pushNative_ends sound inside found base new).mono
                    (fun _ keeps => (And.intro keeps.sound keeps.grows)) fun _ _ _ holds => holds.2
                  refine native.of_run_eq ?_
                  rw [push_new inside new found, if_pos base]
              case neg =>
                  refine (pushOther_ends depth sound inside new found base).of_run_eq ?_
                  rw [push_new inside new found, if_neg base]

theorem push_native_depth (request : Request) (found : kind.findGroup request.name = some iogroup)
    (base : request.domainType = kind.domainType iogroup request.name) :
    kind.push topo (depth + 1) request = kind.push topo 1 request := by
  unfold push
  simp only [found, base, if_true]

/-- A request is converted once at most. -/
theorem push_deeper : kind.push topo (depth + 2) request = kind.push topo 2 request := by
  have same : kind.pushConvertDomain topo (kind.push topo (depth + 1)) request =
      kind.pushConvertDomain topo (kind.push topo 1) request := by
    unfold pushConvertDomain
    cases found : kind.findGroup request.name with
    | none => rfl
    | some iogroup =>
        have natives : ∀ indices : List Int,
            pushAll (kind.push topo (depth + 1)) request.name (kind.domainType iogroup request.name) indices =
              pushAll (kind.push topo 1) request.name (kind.domainType iogroup request.name) indices := by
          intro indices
          induction indices with
          | nil => rfl
          | cons domainIdx rest ih =>
              have native : kind.push topo (depth + 1) ⟨request.name, kind.domainType iogroup request.name, domainIdx⟩ =
                  kind.push topo 1 ⟨request.name, kind.domainType iogroup request.name, domainIdx⟩ :=
                push_native_depth _ found rfl
              rw [pushAll, pushAll, ih, native]
        simp only [natives]
  have others : kind.pushOther topo (kind.push topo (depth + 1)) request =
      kind.pushOther topo (kind.push topo 1) request := by
    rw [pushOther, pushOther, same]
  rw [push, push]
  simp only [others]

end Kind

namespace PlatformIOImp

open Kind (Sound Grows sound_calls)
open Stateful (leaves leaves_bind)

variable {Group Value Error : Type} {groups : IOGroups Group Value Error} {topo : PlatformTopo}
  {iogroupList : List Group} {state middle final : PlatformIOImp Group Value × List (GroupCall Group)}

/-- What the tables of both stacks say. -/
structure Tracked (groups : IOGroups Group Value Error) (topo : PlatformTopo) (iogroupList : List Group)
    (state : PlatformIOImp Group Value × List (GroupCall Group)) : Prop where
  list : state.1.iogroupList = iogroupList
  signals : (signalKind groups iogroupList).Sound topo (state.1.signals, state.2)
  controls : (controlKind groups iogroupList).Sound topo (state.1.controls, state.2)

/-- What has been pushed on either stack stays. -/
structure Follows (state final : PlatformIOImp Group Value × List (GroupCall Group)) : Prop where
  signals : Grows (state.1.signals, state.2) (final.1.signals, final.2)
  controls : Grows (state.1.controls, state.2) (final.1.controls, final.2)

/-- A method that pushes nothing. -/
structure Unpushed (state final : PlatformIOImp Group Value × List (GroupCall Group)) : Prop where
  list : final.1.iogroupList = state.1.iogroupList
  signals : final.1.signals = state.1.signals
  controls : final.1.controls = state.1.controls
  calls : state.2 <+: final.2

theorem Unpushed.refl : Unpushed state state := ⟨rfl, rfl, rfl, List.prefix_rfl⟩

theorem Unpushed.trans (first : Unpushed state middle) (second : Unpushed middle final) :
    Unpushed state final :=
  ⟨second.list.trans first.list, second.signals.trans first.signals,
    second.controls.trans first.controls, first.calls.trans second.calls⟩

theorem Follows.refl : Follows state state := ⟨Grows.refl, Grows.refl⟩

theorem Follows.trans (first : Follows state middle) (second : Follows middle final) :
    Follows state final :=
  ⟨first.signals.trans second.signals, first.controls.trans second.controls⟩

theorem Tracked.unpushed (tracked : Tracked groups topo iogroupList state) (same : Unpushed state final) :
    Tracked groups topo iogroupList final ∧ Follows state final := by
  obtain ⟨signals, moreSignals⟩ := sound_calls tracked.signals same.calls
  obtain ⟨controls, moreControls⟩ := sound_calls tracked.controls same.calls
  refine ⟨⟨same.list.trans tracked.list, ?_, ?_⟩, ⟨?_, ?_⟩⟩
  · rwa [same.signals]
  · rwa [same.controls]
  · rwa [same.signals]
  · rwa [same.controls]

theorem unpushed_callGroup (call : GroupCall Group) :
    Unpushed state (leaves (callGroup groups call) state) := by
  obtain ⟨platform, calls⟩ := state
  cases answer : groups.perform calls call with
  | error reason =>
      have thrown : (callGroup groups call).run (platform, calls) =
          .error (.group reason) (platform, calls ++ [call]) := by
        simp only [callGroup, EStateM.run, answer]
      rw [Stateful.leaves_of_error thrown]
      exact ⟨rfl, rfl, rfl, List.prefix_append _ _⟩
  | ok returned =>
      have done : (callGroup groups call).run (platform, calls) = .ok () (platform, calls ++ [call]) := by
        simp only [callGroup, EStateM.run, answer]
      rw [Stateful.leaves_of_ok done]
      exact ⟨rfl, rfl, rfl, List.prefix_append _ _⟩

theorem unpushed_setActive : Unpushed state (leaves (setActive : MethodM Group Value Error Unit) state) :=
  ⟨rfl, rfl, rfl, List.prefix_rfl⟩

theorem unpushed_forM {Item : Type} {items : List Item} {body : Item → MethodM Group Value Error PUnit}
    (each : ∀ item state, Unpushed state (leaves (body item) state)) :
    Unpushed state (leaves (items.forM body) state) :=
  Objects.leaves_forM (Unpushed state) (fun item _ middle same => same.trans (each item middle)) Unpushed.refl

theorem unpushed_bind {First Second : Type} {first : MethodM Group Value Error First}
    {rest : First → MethodM Group Value Error Second} (one : Unpushed state (leaves first state))
    (other : ∀ value state, Unpushed state (leaves (rest value) state)) :
    Unpushed state (leaves (first >>= rest) state) :=
  leaves_bind (Unpushed state) one fun value middle _ same => same.trans (other value middle)

theorem unpushed_adjustUpTo (controls : Pushed Group Unit) (setting : Number) (depth controlIdx : Nat) :
    Unpushed state (leaves (adjustUpTo groups controls setting depth controlIdx) state) := by
  induction depth generalizing controlIdx state with
  | zero => exact Unpushed.refl
  | succ depth ih =>
      unfold adjustUpTo
      split
      · exact Unpushed.refl
      · split
        · exact Unpushed.refl
        · split
          · split
            · exact unpushed_bind Unpushed.refl fun _ _ => unpushed_setActive
            · exact unpushed_bind (unpushed_forM fun idx _ => ih idx) fun _ _ => unpushed_setActive
          · exact unpushed_bind (unpushed_callGroup _) fun _ _ => unpushed_setActive

theorem unpushed_writeControlUpTo (setting : Number) (depth : Nat) (request : Request) :
    Unpushed state (leaves (writeControlUpTo groups topo iogroupList setting depth request) state) := by
  induction depth generalizing request state with
  | zero => exact Unpushed.refl
  | succ depth ih =>
      unfold writeControlUpTo
      split
      · exact Unpushed.refl
      · split
        · exact Unpushed.refl
        · dsimp only
          split
          · split
            · split
              · exact Unpushed.refl
              · exact unpushed_forM fun idx _ => ih _
            · exact Unpushed.refl
          · exact unpushed_callGroup _

theorem unpushed_listed {made : Group → GroupCall Group} :
    Unpushed state (leaves (do
      let (platform, _) ← get
      platform.iogroupList.forM fun iogroup => callGroup groups (made iogroup)) state) :=
  unpushed_bind Unpushed.refl fun _ _ => unpushed_forM fun _ _ => unpushed_callGroup _

/-- What a push of a signal leaves, and the index that it returns. -/
theorem pushSignal_ends (request : Request) (tracked : Tracked groups topo iogroupList state) :
    Stateful.Ends (pushSignal groups topo request) state
      (fun final => Tracked groups topo iogroupList final ∧ Follows state final)
      fun idx final => Assoc.lookup request final.1.signals.existing = some (some idx) := by
  obtain ⟨platform, calls⟩ := state
  cases active : platform.isActive with
  | true =>
      have thrown : (pushSignal groups topo request).run (platform, calls) =
          .error .signalWhileActive (platform, calls) := by
        simp [pushSignal, active]
      exact Stateful.ends_of_error thrown ⟨tracked, Follows.refl⟩
  | false =>
      have body : (pushSignal groups topo request).run (platform, calls) =
          (onSignals ((signalKind groups platform.iogroupList).push topo 2 request)).run (platform, calls) := by
        simp [pushSignal, active]
      have list : platform.iogroupList = iogroupList := tracked.list
      have ends : Stateful.Ends (onSignals ((signalKind groups iogroupList).push topo 2 request)) (platform, calls)
          (fun final => Tracked groups topo iogroupList final ∧ Follows (platform, calls) final)
          fun idx final => Assoc.lookup request final.1.signals.existing = some (some idx) := by
        refine Objects.ends_within (Kind.push_ends 0 request tracked.signals) ?_ fun _ _ _ known => known
        rintro inner ⟨sound, grows⟩
        obtain ⟨controls, more⟩ := sound_calls tracked.controls grows.calls
        exact ⟨⟨list, sound, controls⟩, grows, more⟩
      exact ends.of_run_eq (list ▸ body)

/-- What a push of a control leaves, and the index that it returns. -/
theorem pushControl_ends (request : Request) (tracked : Tracked groups topo iogroupList state) :
    Stateful.Ends (pushControl groups topo request) state
      (fun final => Tracked groups topo iogroupList final ∧ Follows state final)
      fun idx final => Assoc.lookup request final.1.controls.existing = some (some idx) := by
  obtain ⟨platform, calls⟩ := state
  cases active : platform.isActive with
  | true =>
      have thrown : (pushControl groups topo request).run (platform, calls) =
          .error .controlWhileActive (platform, calls) := by
        simp [pushControl, active]
      exact Stateful.ends_of_error thrown ⟨tracked, Follows.refl⟩
  | false =>
      cases saved : platform.doRestore with
      | false =>
          have thrown : (pushControl groups topo request).run (platform, calls) =
              .error .controlBeforeSave (platform, calls) := by
            simp [pushControl, active, saved]
          exact Stateful.ends_of_error thrown ⟨tracked, Follows.refl⟩
      | true =>
          have body : (pushControl groups topo request).run (platform, calls) =
              (onControls ((controlKind groups platform.iogroupList).push topo 2 request)).run
                (platform, calls) := by
            simp [pushControl, active, saved]
          have list : platform.iogroupList = iogroupList := tracked.list
          have ends : Stateful.Ends (onControls ((controlKind groups iogroupList).push topo 2 request))
              (platform, calls)
              (fun final => Tracked groups topo iogroupList final ∧ Follows (platform, calls) final)
              fun idx final => Assoc.lookup request final.1.controls.existing = some (some idx) := by
            refine Objects.ends_within (Kind.push_ends 0 request tracked.controls) ?_ fun _ _ _ known => known
            rintro inner ⟨sound, grows⟩
            obtain ⟨signals, more⟩ := sound_calls tracked.signals grows.calls
            exact ⟨⟨list, signals, sound⟩, more, grows⟩
          exact ends.of_run_eq (list ▸ body)

theorem leaves_unit {Result : Type} (computation : MethodM Group Value Error Result) :
    leaves ((fun _ => ()) <$> computation) state = leaves computation state := by
  unfold leaves
  rw [Stateful.run_map]
  cases computation.run state <;> rfl

/-- A method keeps what the tables say. -/
theorem step_tracked (method : Method) (tracked : Tracked groups topo iogroupList state) :
    Tracked groups topo iogroupList (step groups topo state method) ∧
      Follows state (step groups topo state method) := by
  cases method with
  | pushSignal request =>
      rw [step, Method.body, leaves_unit]
      exact (pushSignal_ends request tracked).leaves
  | pushControl request =>
      rw [step, Method.body, leaves_unit]
      exact (pushControl_ends request tracked).leaves
  | readBatch =>
      refine tracked.unpushed (unpushed_bind Unpushed.refl fun _ _ => ?_)
      exact unpushed_bind (unpushed_forM fun _ _ => unpushed_callGroup _) fun _ _ => unpushed_setActive
  | writeBatch => exact tracked.unpushed unpushed_listed
  | sample signalIdx =>
      rw [step, Method.body, leaves_unit]
      refine tracked.unpushed (unpushed_bind Unpushed.refl fun read _ => ?_)
      dsimp only
      split <;> exact Unpushed.refl
  | adjust controlIdx setting =>
      exact tracked.unpushed (unpushed_bind Unpushed.refl fun _ _ => unpushed_adjustUpTo _ _ _ _)
  | readSignal request =>
      rw [step, Method.body, leaves_unit]
      refine tracked.unpushed (unpushed_bind Unpushed.refl fun read _ => ?_)
      dsimp only
      split <;> exact Unpushed.refl
  | writeControl request setting =>
      exact tracked.unpushed (unpushed_bind Unpushed.refl fun _ _ => unpushed_writeControlUpTo _ _ _)
  | saveControl =>
      have saved : Unpushed state ({ state.1 with doRestore := true }, state.2) :=
        ⟨rfl, rfl, rfl, List.prefix_rfl⟩
      exact tracked.unpushed (unpushed_bind saved fun _ _ => unpushed_listed)
  | restoreControl =>
      refine tracked.unpushed (unpushed_bind Unpushed.refl fun read _ => ?_)
      dsimp only
      split
      · exact unpushed_forM fun _ _ => unpushed_callGroup _
      · exact Unpushed.refl

theorem tracked_new : Tracked groups topo iogroupList (new iogroupList, []) := by
  constructor
  · rfl
  · constructor <;> simp [new, Assoc.lookup]
  · constructor <;> simp [new, Assoc.lookup]

/-- A run of methods keeps what the tables say. -/
theorem run_tracked (methods : List Method) (tracked : Tracked groups topo iogroupList state) :
    Tracked groups topo iogroupList (Transition.run (step groups topo) state methods) ∧
      Follows state (Transition.run (step groups topo) state methods) := by
  induction methods generalizing state with
  | nil => exact ⟨tracked, Follows.refl⟩
  | cons method rest ih =>
      obtain ⟨next, first⟩ := step_tracked method tracked
      obtain ⟨last, others⟩ := ih next
      exact ⟨last, first.trans others⟩

end PlatformIOImp

end Geopm
