import Geopm.Library.Assoc
import Geopm.Library.Number
import Geopm.Library.Stateful
import Geopm.PlatformTopo

namespace Geopm

/-! `PlatformIOImp`: pushing signals and controls.

Both are pushed in the same way.  A request for the domain in which the IOGroup has the signal or
control is passed on to the IOGroup; a request for a domain around it becomes an entry that combines
those of the domains within.
-/

-- A `std::set<int>` is walked in the order of the integers.
instance intLeTrans : IsTrans Int (fun left right => left ≤ right) :=
  ⟨fun _ _ _ => Int.le_trans⟩

instance intLeAntisymm : Std.Antisymm (fun left right : Int => left ≤ right) :=
  ⟨fun _ _ => Int.le_antisymm⟩

instance intLeTotal : Std.Total (fun left right : Int => left ≤ right) :=
  ⟨Int.le_total⟩

/-- The arguments of `push_signal`, `push_control` and `read_signal`. -/
structure Request where
  name : String
  domainType : Domain
  domainIdx : Int
deriving Repr, DecidableEq

inductive PlatformError (Error : Type) where
  /-- "PlatformIOImp::push_signal(): pushing signals after read_batch() or adjust()." -/
  | signalWhileActive
  /-- "PlatformIOImp::push_control(): pushing controls after read_batch() or adjust()." -/
  | controlWhileActive
  /-- "PlatformIOImp::push_control(): pushing controls before calling save_control()." -/
  | controlBeforeSave
  /-- "PlatformIOImp::" .. "(): domain_idx is out of range" -/
  | domainIdxOutOfRange (method : String)
  /-- "PlatformIOImp::push_signal(): no support for signal name " .. " and domain type " -/
  | noSupport (signalName : String) (domainType : Domain)
  /-- "PlatformIOImp::" .. "(): signal name " .. " not found" -/
  | signalNotFound (method signalName : String)
  /-- "PlatformIOImp::" .. "(): control name " .. " not found" -/
  | controlNotFound (method controlName : String)
  /-- "PlatformIOImp::agg_function(): unknown how to aggregate " -/
  | unknownAggregation (signalName : String)
  /-- "PlatformIOImp::sample(): signal_idx out of range" -/
  | signalIdxOutOfRange
  /-- "PlatformIOImp::sample(): read_batch() not called prior to call to sample()" -/
  | notRead
  /-- "PlatformIOImp::adjust(): control_idx out of range" -/
  | controlIdxOutOfRange
  /-- "PlatformIOImp::adjust(): setting is NAN" -/
  | settingNan
  /-- "PlatformIOImp::" .. "(): domain " .. " is not valid for " -/
  | domainNotValid (method : String) (domainType : Domain) (name : String)
  /-- "PlatformIOImp::register_iogroup(): IOGroup cannot be registered after a call to save_control()" -/
  | registeredAfterSave
  /-- `std::out_of_range` of `m_combined_signal` and `m_combined_control` -/
  | notCombined
  /-- A recursion that is deeper than the bound of the model. -/
  | unended
  | group (reason : Error)
  | topo (reason : TopoError)
deriving Repr, DecidableEq

/-- A call of a method of an `IOGroup` that may change it. -/
inductive GroupCall (Group : Type) where
  | pushSignal (group : Group) (request : Request)
  | pushControl (group : Group) (request : Request)
  | readBatch (group : Group)
  | writeBatch (group : Group)
  | adjust (group : Group) (controlIdx : Nat) (setting : Number)
  | writeControl (group : Group) (request : Request) (setting : Number)
  | saveControl (group : Group)
  | restoreControl (group : Group)
deriving Repr, DecidableEq

/-- What has been pushed of one kind: `m_active_signal`, `m_existing_signal` and `m_combined_signal`, or
the same for controls.  Where nothing could be pushed, an index is none. -/
structure Pushed (Group Combiner : Type) where
  active : List (Option Group × Nat)
  existing : List (Request × Option Nat)
  combined : List (Nat × List Nat × Combiner)

namespace Pushed

variable {Group Combiner : Type}

/-- An entry for a request that the IOGroup answers itself. -/
def addNative (pushed : Pushed Group Combiner) (request : Request) (iogroup : Group) (groupIdx : Nat) :
    Pushed Group Combiner :=
  { pushed with
    active := pushed.active ++ [(some iogroup, groupIdx)]
    existing := Assoc.assign request (some pushed.active.length) pushed.existing }

/-- An entry that combines others. -/
def addCombined (pushed : Pushed Group Combiner) (operands : List Nat) (combiner : Combiner) :
    Pushed Group Combiner :=
  { pushed with
    active := pushed.active ++ [(none, pushed.active.length)]
    combined := Assoc.assign pushed.active.length (operands, combiner) pushed.combined }

def setExisting (pushed : Pushed Group Combiner) (request : Request) (result : Option Nat) :
    Pushed Group Combiner :=
  { pushed with existing := Assoc.assign request result pushed.existing }

end Pushed

/-- What differs between signals and controls. -/
structure Kind (Group Combiner Error : Type) where
  findGroup : String → Option Group
  domainType : Group → String → Domain
  combiner : String → Except (PlatformError Error) Combiner
  pushGroup : List (GroupCall Group) → Group → Request → Except Error Nat
  call : Group → Request → GroupCall Group
  outOfRange : PlatformError Error
  notFound : String → PlatformError Error
  unsupported : Request → PlatformError Error

namespace Kind

variable {Group Combiner Error : Type}

/-- The tables, and the calls that have been made. -/
abbrev PushM (Group Combiner Error : Type) :=
  EStateM (PlatformError Error) (Pushed Group Combiner × List (GroupCall Group))

variable (kind : Kind Group Combiner Error) (topo : PlatformTopo)

/-- A request that the IOGroup answers itself. -/
def pushNative (iogroup : Group) (request : Request) : PushM Group Combiner Error Nat :=
  fun (pushed, calls) =>
    match kind.pushGroup calls iogroup request with
    | .error reason => .error (.group reason) (pushed, calls ++ [kind.call iogroup request])
    | .ok groupIdx =>
        .ok pushed.active.length
          (pushed.addNative request iogroup groupIdx, calls ++ [kind.call iogroup request])

/-- `push_combined_signal`, and the end of `push_control_convert_domain`. -/
def pushCombined (name : String) (operands : List Nat) : PushM Group Combiner Error Nat :=
  fun (pushed, calls) =>
    match kind.combiner name with
    | .error reason => .error reason (pushed, calls)
    | .ok combiner => .ok pushed.active.length (pushed.addCombined operands combiner, calls)

/-- The loop over the domains within. -/
def pushAll (push : Request → PushM Group Combiner Error Nat) (name : String) (domainType : Domain) :
    List Int → PushM Group Combiner Error (List Nat)
  | [] => pure []
  | domainIdx :: rest => do
      let idx ← push ⟨name, domainType, domainIdx⟩
      let others ← pushAll push name domainType rest
      pure (idx :: others)

/-- `push_signal_convert_domain` and `push_control_convert_domain`. -/
def pushConvertDomain (push : Request → PushM Group Combiner Error Nat) (request : Request) :
    PushM Group Combiner Error (Option Nat) :=
  match kind.findGroup request.name with
  | none => throw (kind.notFound request.name)
  | some iogroup =>
      let baseDomainType := kind.domainType iogroup request.name
      if PlatformTopo.isNestedDomain baseDomainType request.domainType then
        match topo.domainNested baseDomainType request.domainType request.domainIdx with
        | .error reason => throw (.topo reason)
        | .ok baseDomainIdx => do
            let operands ← pushAll push request.name baseDomainType (baseDomainIdx.sort (· ≤ ·))
            let idx ← kind.pushCombined request.name operands
            pure (some idx)
      else pure none

/-- A request that is converted, and noted with what has become of it. -/
def pushOther (push : Request → PushM Group Combiner Error Nat) (request : Request) :
    PushM Group Combiner Error Nat := do
  let result ← kind.pushConvertDomain topo push request
  modify fun (pushed, calls) => (pushed.setExisting request result, calls)
  match result with
  | none => throw (kind.unsupported request)
  | some idx => pure idx

/-- The domain index is one of the platform. -/
def InRange (request : Request) : Prop :=
  0 ≤ request.domainIdx ∧ request.domainIdx < topo.numDomain request.domainType

instance (request : Request) : Decidable (InRange topo request) := inferInstanceAs (Decidable (_ ∧ _))

/-- `push_signal` and `push_control` after their checks of what has been called before, where a request
is converted as often as the first argument says. -/
def push : Nat → Request → PushM Group Combiner Error Nat
  | 0, _ => throw .unended
  | depth + 1, request =>
      if ¬ InRange topo request then throw kind.outOfRange
      else do
        let (pushed, _) ← get
        match Assoc.lookup request pushed.existing with
        | some (some idx) => pure idx
        | _ =>
            match kind.findGroup request.name with
            | none => throw (kind.unsupported request)
            | some iogroup =>
                if request.domainType = kind.domainType iogroup request.name then
                  kind.pushNative iogroup request
                else kind.pushOther topo (push depth) request

end Kind

end Geopm
