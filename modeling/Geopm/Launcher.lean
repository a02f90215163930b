import Mathlib.Algebra.Order.Ring.Int
import Mathlib.Data.Finset.Prod
import Mathlib.Data.List.Basic
import Mathlib.Data.Nat.ModEq

namespace Geopm

/-! `geopmpy.launcher`: the CPUs that the ranks on a node and the controller are pinned to. -/

/-- The values of `--geopm-ctl`. -/
inductive Ctl where
  | process
  | pthread
  | application
deriving Repr, DecidableEq

inductive AffinityError where
  /-- "Cannot oversubscribe hardware threads; requested threads per core: {}, hardware threads per core: {}." -/
  | oversubscribed (requested hardware : Nat)
  /-- "Cores cannot be shared between MPI ranks" -/
  | coresShared
  /-- "Hyperthreads needed to satisfy ranks/threads configuration, but forbidden by --geopm-hyperthreads-disable." -/
  | hyperthreadsForbidden
  /-- "Requested more application threads per node than the number of Linux logical CPUs" -/
  | tooManyThreads
  /-- `ZeroDivisionError` -/
  | noSocket
  /-- `UnboundLocalError` of `rank`, where no rank was assigned -/
  | rankUnbound
deriving Repr, DecidableEq

structure Launcher where
  numAppMask : Nat
  cpuPerRank : Nat
  numSocket : Nat
  corePerSocket : Nat
  threadPerCore : Nat
  numLinuxCpu : Nat
  allowHtPinning : Bool
  ctl : Ctl

namespace Launcher

def corePerNode (launcher : Launcher) : Nat := launcher.corePerSocket * launcher.numSocket

def appCpuPerNode (launcher : Launcher) : Nat := launcher.numAppMask * launcher.cpuPerRank

def rankPerSocket (launcher : Launcher) : Nat := launcher.numAppMask / launcher.numSocket

/-- The loop for `app_thread_per_core`, with a bound on its passes. -/
def threadsWithin (launcher : Launcher) : Nat → Nat → Nat
  | 0, appThreadPerCore => appThreadPerCore
  | passes + 1, appThreadPerCore =>
      if appThreadPerCore * launcher.corePerNode < launcher.appCpuPerNode then
        launcher.threadsWithin passes (appThreadPerCore + 1)
      else appThreadPerCore

def appThreadPerCore (launcher : Launcher) : Nat :=
  launcher.threadsWithin launcher.appCpuPerNode 1

def appCorePerRank (launcher : Launcher) : Nat :=
  if 0 < launcher.cpuPerRank % launcher.appThreadPerCore then
    launcher.cpuPerRank / launcher.appThreadPerCore + 1
  else launcher.cpuPerRank / launcher.appThreadPerCore

/-- `cpu_range`: the hyperthreads of the cores from the given one down. -/
def cpuRange (launcher : Launcher) (coreIndex : Int) : Finset Int :=
  let baseCores := (Finset.range launcher.appCorePerRank).image fun step : Nat => coreIndex - step
  (Finset.range launcher.appThreadPerCore).biUnion fun ht =>
    baseCores.image fun core => core + (ht * launcher.corePerNode : Nat)

/-- The loop over ranks, of which the highest is first. -/
def assignRanks (launcher : Launcher) (isGeopmctl : Bool) :
    Nat → Int × List (Finset Int) → Int × List (Finset Int)
  | 0, state => state
  | rank + 1, (coreIndex, result) =>
      launcher.assignRanks isGeopmctl rank
        (coreIndex - launcher.appCorePerRank,
          if isGeopmctl then result else launcher.cpuRange coreIndex :: result)

/-- The loop over sockets. After each but the last, the next starts at its highest core. -/
def assignSockets (launcher : Launcher) (isGeopmctl : Bool) :
    Nat → Int → Int × List (Finset Int) → Int × List (Finset Int)
  | 0, _, state => state
  | socket + 1, socketBoundary, state =>
      let (coreIndex, result) := launcher.assignRanks isGeopmctl launcher.rankPerSocket state
      launcher.assignSockets isGeopmctl socket (socketBoundary - launcher.corePerSocket)
        (if socket = 0 then coreIndex else socketBoundary - 1, result)

/-- The core index that is left and the sets of the ranks. -/
def assign (launcher : Launcher) (isGeopmctl : Bool) : Int × List (Finset Int) :=
  if launcher.numAppMask % launcher.numSocket = 0 then
    launcher.assignSockets isGeopmctl launcher.numSocket
      (launcher.corePerSocket * ((launcher.numSocket : Int) - 1)) ((launcher.corePerNode : Int) - 1, [])
  else
    launcher.assignRanks isGeopmctl launcher.numAppMask ((launcher.corePerNode : Int) - 1, [])

/-- The CPU of the controller, by the core index that is left. -/
def geopmCtlCpu (launcher : Launcher) (coreIndex : Int) : Int :=
  if coreIndex ≤ 0 then
    if launcher.allowHtPinning ∧
        launcher.corePerNode * launcher.appThreadPerCore < launcher.numLinuxCpu then
      (launcher.corePerNode * launcher.appThreadPerCore : Nat)
    else 0
  else 1

/-- `affinity_list`. -/
def affinityList (launcher : Launcher) (isGeopmctl : Bool) : Except AffinityError (List (Finset Int)) :=
  if launcher.numSocket = 0 then .error .noSocket
  else if launcher.threadPerCore < launcher.appThreadPerCore then
    .error (.oversubscribed launcher.appThreadPerCore launcher.threadPerCore)
  else if launcher.corePerNode < launcher.numAppMask then .error .coresShared
  else if ¬ launcher.allowHtPinning ∧ 1 < launcher.appThreadPerCore then .error .hyperthreadsForbidden
  else if launcher.numLinuxCpu < launcher.appCpuPerNode then .error .tooManyThreads
  else if launcher.corePerNode < launcher.appCorePerRank * launcher.numAppMask then .error .coresShared
  else if launcher.numAppMask = 0 then .error .rankUnbound
  else
    let (coreIndex, result) := launcher.assign isGeopmctl
    .ok (if launcher.ctl = .process ∨ isGeopmctl then {launcher.geopmCtlCpu coreIndex} :: result
      else result)

end Launcher

end Geopm
