import Geopm.Library.Objects
import Geopm.Library.Run
import Geopm.PlatformIOImp.Push

namespace Geopm

/-! `PlatformIOImp`: its methods for batch and direct access. -/

/-- The `IOGroup` plugins, whose answers depend on the calls that have been made so far. -/
structure IOGroups (Group Value Error : Type) where
  isValidSignal : Group → String → Bool
  isValidControl : Group → String → Bool
  signalDomainType : Group → String → Domain
  controlDomainType : Group → String → Domain
  aggFunction : Group → String → Except Error (List Value → Value)
  pushSignal : List (GroupCall Group) → Group → Request → Except Error Nat
  pushControl : List (GroupCall Group) → Group → Request → Except Error Nat
  sample : List (GroupCall Group) → Group → Nat → Except Error Value
  readSignal : List (GroupCall Group) → Group → Request → Except Error Value
  /-- Whether any other call returns. -/
  perform : List (GroupCall Group) → GroupCall Group → Except Error Unit

/-- The members of `PlatformIOImp`. -/
structure PlatformIOImp (Group Value : Type) where
  isActive : Bool
  iogroupList : List Group
  signals : Pushed Group (List Value → Value)
  controls : Pushed Group Unit
  doRestore : Bool

namespace PlatformIOImp

variable {Group Value Error : Type}

/-- The object, and the calls that it has made. -/
abbrev MethodM (Group Value Error : Type) :=
  EStateM (PlatformError Error) (PlatformIOImp Group Value × List (GroupCall Group))

/-- The constructor. -/
def new (iogroupList : List Group) : PlatformIOImp Group Value where
  isActive := false
  iogroupList := iogroupList
  signals := ⟨[], [], []⟩
  controls := ⟨[], [], []⟩
  doRestore := false

def registerIogroup (iogroup : Group) : MethodM Group Value Error Unit := do
  let (platform, _) ← get
  if platform.doRestore then throw .registeredAfterSave
  else modify fun (platform, calls) =>
    ({ platform with iogroupList := platform.iogroupList ++ [iogroup] }, calls)

variable (groups : IOGroups Group Value Error) (topo : PlatformTopo)

def findSignalIogroup (iogroupList : List Group) (signalName : String) : Option Group :=
  iogroupList.reverse.find? (groups.isValidSignal · signalName)

def findControlIogroup (iogroupList : List Group) (controlName : String) : Option Group :=
  iogroupList.reverse.find? (groups.isValidControl · controlName)

def aggFunction (iogroupList : List Group) (signalName : String) :
    Except (PlatformError Error) (List Value → Value) :=
  match findSignalIogroup groups iogroupList signalName with
  | none => throw (.unknownAggregation signalName)
  | some iogroup => (groups.aggFunction iogroup signalName).mapError .group

def signalKind (iogroupList : List Group) : Kind Group (List Value → Value) Error where
  findGroup := findSignalIogroup groups iogroupList
  domainType := groups.signalDomainType
  combiner := aggFunction groups iogroupList
  pushGroup := groups.pushSignal
  call := .pushSignal
  outOfRange := .domainIdxOutOfRange "push_signal"
  notFound := .signalNotFound "signal_domain_type"
  unsupported request := .noSupport request.name request.domainType

def controlKind (iogroupList : List Group) : Kind Group Unit Error where
  findGroup := findControlIogroup groups iogroupList
  domainType := groups.controlDomainType
  combiner _ := pure ()
  pushGroup := groups.pushControl
  call := .pushControl
  outOfRange := .domainIdxOutOfRange "push_control"
  notFound := .controlNotFound "control_domain_type"
  unsupported request := .controlNotFound "push_control" request.name

/-- A push on one of the two stacks.  A request that has been converted is for the domain in which the
IOGroup has it, so two levels are enough. -/
def onSignals (computation : Kind.PushM Group (List Value → Value) Error Nat) :
    MethodM Group Value Error Nat :=
  Objects.within (fun state => (state.1.signals, state.2))
    (fun state inner => ({ state.1 with signals := inner.1 }, inner.2)) id computation

def onControls (computation : Kind.PushM Group Unit Error Nat) : MethodM Group Value Error Nat :=
  Objects.within (fun state => (state.1.controls, state.2))
    (fun state inner => ({ state.1 with controls := inner.1 }, inner.2)) id computation

def pushSignal (request : Request) : MethodM Group Value Error Nat := do
  let (platform, _) ← get
  if platform.isActive then throw .signalWhileActive
  else onSignals ((signalKind groups platform.iogroupList).push topo 2 request)

def pushControl (request : Request) : MethodM Group Value Error Nat := do
  let (platform, _) ← get
  if platform.isActive then throw .controlWhileActive
  else if !platform.doRestore then throw .controlBeforeSave
  else onControls ((controlKind groups platform.iogroupList).push topo 2 request)

/-- A call of a method of an IOGroup. -/
def callGroup (call : GroupCall Group) : MethodM Group Value Error Unit :=
  fun (platform, calls) =>
    match groups.perform calls call with
    | .error reason => .error (.group reason) (platform, calls ++ [call])
    | .ok () => .ok () (platform, calls ++ [call])

def setActive : MethodM Group Value Error Unit :=
  modify fun (platform, calls) => ({ platform with isActive := true }, calls)

def readBatch : MethodM Group Value Error Unit := do
  let (platform, _) ← get
  platform.iogroupList.forM fun iogroup => callGroup groups (.readBatch iogroup)
  setActive

def writeBatch : MethodM Group Value Error Unit := do
  let (platform, _) ← get
  platform.iogroupList.forM fun iogroup => callGroup groups (.writeBatch iogroup)

/-- `sample`, with its recursion through `sample_combined` as deep as the bound says. -/
def sampleUpTo (platform : PlatformIOImp Group Value) (calls : List (GroupCall Group)) :
    Nat → Nat → Except (PlatformError Error) Value
  | 0, _ => throw .unended
  | depth + 1, signalIdx =>
      match platform.signals.active[signalIdx]? with
      | none => throw .signalIdxOutOfRange
      | some groupIdxPair =>
          if !platform.isActive then throw .notRead
          else
            match groupIdxPair.1 with
            | some iogroup => (groups.sample calls iogroup groupIdxPair.2).mapError .group
            | none =>
                match Assoc.lookup groupIdxPair.2 platform.signals.combined with
                | none => throw .notCombined
                | some (operandIdx, combiner) => do
                    let operands ← operandIdx.mapM (sampleUpTo platform calls depth)
                    pure (combiner operands)

/-- `sample`. -/
def sample (signalIdx : Nat) : MethodM Group Value Error Value := do
  let (platform, calls) ← get
  match sampleUpTo groups platform calls (signalIdx + 1) signalIdx with
  | .error reason => throw reason
  | .ok value => pure value

/-- `adjust`, with its recursion as deep as the bound says. -/
def adjustUpTo (controls : Pushed Group Unit) (setting : Number) :
    Nat → Nat → MethodM Group Value Error Unit
  | 0, _ => throw .unended
  | depth + 1, controlIdx =>
      match controls.active[controlIdx]? with
      | none => throw .controlIdxOutOfRange
      | some groupIdxPair =>
          if setting.isNan then throw .settingNan
          else do
            match groupIdxPair.1 with
            | none =>
                match Assoc.lookup controlIdx controls.combined with
                | none => throw .notCombined
                | some (subControls, _) => subControls.forM (adjustUpTo controls setting depth)
            | some iogroup => callGroup groups (.adjust iogroup groupIdxPair.2 setting)
            setActive

/-- `adjust`. -/
def adjust (controlIdx : Nat) (setting : Number) : MethodM Group Value Error Unit := do
  let (platform, _) ← get
  adjustUpTo groups platform.controls setting (controlIdx + 1) controlIdx

/-- `read_signal` and `read_signal_convert_domain`. -/
def readSignalUpTo (iogroupList : List Group) (calls : List (GroupCall Group)) :
    Nat → Request → Except (PlatformError Error) Value
  | 0, _ => throw .unended
  | depth + 1, request =>
      if ¬ Kind.InRange topo request then throw (.domainIdxOutOfRange "read_signal")
      else
        match findSignalIogroup groups iogroupList request.name with
        | none => throw (.signalNotFound "read_signal" request.name)
        | some iogroup =>
            let baseDomainType := groups.signalDomainType iogroup request.name
            if baseDomainType ≠ request.domainType then
              if PlatformTopo.isNestedDomain baseDomainType request.domainType then
                match topo.domainNested baseDomainType request.domainType request.domainIdx with
                | .error reason => throw (.topo reason)
                | .ok baseDomainIdx => do
                    let values ← (baseDomainIdx.sort (· ≤ ·)).mapM fun domainIdx =>
                      readSignalUpTo iogroupList calls depth ⟨request.name, baseDomainType, domainIdx⟩
                    let combiner ← aggFunction groups iogroupList request.name
                    pure (combiner values)
              else throw (.domainNotValid "read_signal" request.domainType request.name)
            else (groups.readSignal calls iogroup request).mapError .group

/-- `read_signal`. -/
def readSignal (request : Request) : MethodM Group Value Error Value := do
  let (platform, calls) ← get
  match readSignalUpTo groups topo platform.iogroupList calls 2 request with
  | .error reason => throw reason
  | .ok value => pure value

/-- `write_control` and `write_control_convert_domain`. -/
def writeControlUpTo (iogroupList : List Group) (setting : Number) :
    Nat → Request → MethodM Group Value Error Unit
  | 0, _ => throw .unended
  | depth + 1, request =>
      if ¬ Kind.InRange topo request then throw (.domainIdxOutOfRange "write_control")
      else
        match findControlIogroup groups iogroupList request.name with
        | none => throw (.controlNotFound "write_control" request.name)
        | some iogroup =>
            let baseDomainType := groups.controlDomainType iogroup request.name
            if baseDomainType ≠ request.domainType then
              if PlatformTopo.isNestedDomain baseDomainType request.domainType then
                match topo.domainNested baseDomainType request.domainType request.domainIdx with
                | .error reason => throw (.topo reason)
                | .ok baseDomainIdx =>
                    (baseDomainIdx.sort (· ≤ ·)).forM fun domainIdx =>
                      writeControlUpTo iogroupList setting depth ⟨request.name, baseDomainType, domainIdx⟩
              else throw (.domainNotValid "write_control" request.domainType request.name)
            else callGroup groups (.writeControl iogroup request setting)

/-- `write_control`. -/
def writeControl (request : Request) (setting : Number) : MethodM Group Value Error Unit := do
  let (platform, _) ← get
  writeControlUpTo groups topo platform.iogroupList setting 2 request

def saveControl : MethodM Group Value Error Unit := do
  modify fun (platform, calls) => ({ platform with doRestore := true }, calls)
  let (platform, _) ← get
  platform.iogroupList.forM fun iogroup => callGroup groups (.saveControl iogroup)

def restoreControl : MethodM Group Value Error Unit := do
  let (platform, _) ← get
  if platform.doRestore then
    platform.iogroupList.forM fun iogroup => callGroup groups (.restoreControl iogroup)
  else pure ()

/-- A call of a method, after the IOGroups have been registered. -/
inductive Method where
  | pushSignal (request : Request)
  | pushControl (request : Request)
  | readBatch
  | writeBatch
  | sample (signalIdx : Nat)
  | adjust (controlIdx : Nat) (setting : Number)
  | readSignal (request : Request)
  | writeControl (request : Request) (setting : Number)
  | saveControl
  | restoreControl
deriving Repr, DecidableEq

/-- The method, without what it returns. -/
def Method.body : Method → MethodM Group Value Error Unit
  | .pushSignal request => (fun _ => ()) <$> PlatformIOImp.pushSignal groups topo request
  | .pushControl request => (fun _ => ()) <$> PlatformIOImp.pushControl groups topo request
  | .readBatch => PlatformIOImp.readBatch groups
  | .writeBatch => PlatformIOImp.writeBatch groups
  | .sample signalIdx => (fun _ => ()) <$> PlatformIOImp.sample groups signalIdx
  | .adjust controlIdx setting => PlatformIOImp.adjust groups controlIdx setting
  | .readSignal request => (fun _ => ()) <$> PlatformIOImp.readSignal groups topo request
  | .writeControl request setting => PlatformIOImp.writeControl groups topo request setting
  | .saveControl => PlatformIOImp.saveControl groups
  | .restoreControl => PlatformIOImp.restoreControl groups

/-- What a method leaves, whether it returns or throws. -/
def step (state : PlatformIOImp Group Value × List (GroupCall Group)) (method : Method) :
    PlatformIOImp Group Value × List (GroupCall Group) :=
  Stateful.leaves (method.body groups topo) state

/-- What a run of methods leaves. -/
def after (iogroupList : List Group) (methods : List Method) :
    PlatformIOImp Group Value × List (GroupCall Group) :=
  Transition.run (step groups topo) (new iogroupList, []) methods

end PlatformIOImp

end Geopm
