import Geopm.Library.Assoc
import Geopm.PlatformTopo

namespace Geopm

/-! `PlatformTopoImp`: the topology that the output of `lscpu -x` tells. -/

abbrev Text := List Char

inductive LscpuError where
  /-- "PlatformTopoImp: parsing lscpu output, key not found: " -/
  | keyNotFound (key : Text)
  /-- "PlatformTopoImp: parsing lscpu output, value not recorded: " -/
  | valueNotRecorded
  /-- "PlatformTopoImp: parsing lscpu output, inconsistent values or unable to determine online CPUs" -/
  | inconsistent
  /-- `std::invalid_argument` of `std::stoul` -/
  | invalidDigit
  /-- No exception of the source: the cores are divided by no sockets. -/
  | noSocket
  /-- No exception of the source: a number of sockets, cores or threads is less than zero. -/
  | negative
deriving Repr, DecidableEq

namespace Lscpu

/-- `fgets`: a line with its end, as far as there is room for it, and what is left. -/
def fgets : Nat → Text → Text × Text
  | 0, text => ([], text)
  | _ + 1, [] => ([], [])
  | room + 1, letter :: rest =>
      if letter = '\n' then ([letter], rest)
      else
        let (line, left) := fgets room rest
        (letter :: line, left)

/-- The loop until the end of the file, with a bound on its passes. -/
def linesWithin : Nat → Text → List Text
  | 0, _ => []
  | passes + 1, text =>
      if text.isEmpty then []
      else
        let (line, left) := fgets 1023 text
        line :: linesWithin passes left

/-- The key and the value of a line. Blanks before the value are trimmed, and then the last letter,
which is the end of the line. -/
def parseLine (line : Text) : Option (Text × Text) :=
  match line.idxOf? ':' with
  | none => none
  | some colonPos =>
      let key := line.take colonPos
      let value := line.drop (colonPos + 1)
      let trimmed :=
        match value.findIdx? fun letter => letter ≠ ' ' ∧ letter ≠ '\t' with
        | some wsPos =>
            if wsPos ≠ 0 ∧ wsPos < value.length - 1 then
              (value.drop wsPos).take (value.length - wsPos - 1)
            else value
        | none => value
      if key.isEmpty then none else some (key, trimmed)

/-- `lscpu`. The first line of a key counts. -/
def lscpu (output : Text) : List (Text × Text) :=
  (linesWithin output.length output).filterMap parseLine

/-- The digits that a number starts with. -/
def leadingDigits (text : Text) : Nat := Nat.ofDigitChars 10 (text.takeWhile Char.isDigit) 0

/-- `atoi`. -/
def atoi (text : Text) : Int :=
  match text.dropWhile Char.isWhitespace with
  | '-' :: digits => -leadingDigits digits
  | '+' :: digits => leadingDigits digits
  | digits => leadingDigits digits

/-- `std::stoul` of a single hexadecimal digit. -/
def hexDigit (letter : Char) : Except LscpuError Nat :=
  if '0' ≤ letter ∧ letter ≤ '9' then .ok (letter.toNat - '0'.toNat)
  else if 'a' ≤ letter ∧ letter ≤ 'f' then .ok (letter.toNat - 'a'.toNat + 10)
  else if 'A' ≤ letter ∧ letter ≤ 'F' then .ok (letter.toNat - 'A'.toNat + 10)
  else .error .invalidDigit

/-- A mask without its prefix, the last digit first. -/
def maskDigits (mask : Text) : Text :=
  (if mask.take 2 = ['0', 'x'] then mask.drop 2 else mask).reverse

/-- The bits of a mask, whose digits start at the given bit. -/
def maskBits : Nat → Text → Except LscpuError (Finset Nat)
  | _, [] => .ok ∅
  | cpuIdx, letter :: rest => do
      let digit ← hexDigit letter
      let others ← maskBits (cpuIdx + 4) rest
      .ok ((((Finset.range 4).filter fun bitIdx => digit.testBit bitIdx).image (cpuIdx + ·)) ∪ others)

/-- A value that has to be there. -/
def required (lscpuMap : List (Text × Text)) (key : Text) : Except LscpuError Text :=
  match Assoc.lookup key lscpuMap with
  | none => .error (.keyNotFound key)
  | some value => if value.isEmpty then .error .valueNotRecorded else .ok value

def natural (number : Int) : Except LscpuError Nat :=
  if number < 0 then .error .negative else .ok number.toNat

/-- `parse_lscpu`: the number of packages, of cores in one and of threads on a core. -/
def parseLscpu (lscpuMap : List (Text × Text)) : Except LscpuError (Nat × Nat × Nat) := do
  let cpus ← required lscpuMap "CPU(s)".toList
  let threads ← required lscpuMap "Thread(s) per core".toList
  let cores ← required lscpuMap "Core(s) per socket".toList
  let sockets ← required lscpuMap "Socket(s)".toList
  let _ ← required lscpuMap "NUMA node(s)".toList
  let online ← required lscpuMap "On-line CPU(s) mask".toList
  let numPackage ← natural (atoi sockets)
  let corePerSocket ← natural (atoi cores)
  let numCore := corePerSocket * numPackage
  if numPackage = 0 then .error .noSocket
  let corePerPackage := numCore / numPackage
  let threadPerCore ← natural (atoi threads)
  let totalCoresExpectedOnline := numPackage * corePerPackage * threadPerCore
  if (totalCoresExpectedOnline : Int) ≠ atoi cpus then
    let onlineCpus ← maskBits 0 (maskDigits online)
    if totalCoresExpectedOnline ≠ onlineCpus.card then .error .inconsistent
  .ok (numPackage, corePerPackage, threadPerCore)

def numaKey (nodeIdx : Nat) : Text :=
  "NUMA node".toList ++ Nat.toDigits 10 nodeIdx ++ " CPU(s)".toList

/-- The loop of `parse_lscpu_numa`, with a bound on its passes. -/
def numaWithin (lscpuMap : List (Text × Text)) :
    Nat → Nat → List (Finset Nat) → Except LscpuError (List (Finset Nat))
  | 0, _, numaMap => .ok numaMap
  | passes + 1, nodeIdx, numaMap =>
      match Assoc.lookup (numaKey nodeIdx) lscpuMap with
      | none => .ok numaMap
      | some hexMask => do
          let cpus ← maskBits 0 (maskDigits hexMask)
          numaWithin lscpuMap passes (nodeIdx + 1) (numaMap ++ [cpus])

/-- `parse_lscpu_numa`, which adds to the nodes that are known. -/
def parseLscpuNuma (lscpuMap : List (Text × Text)) (numaMap : List (Finset Nat)) :
    Except LscpuError (List (Finset Nat)) :=
  numaWithin lscpuMap (lscpuMap.length + 1) 0 numaMap

end Lscpu

namespace PlatformTopo

open Lscpu

/-- The body of both constructors that read the output. -/
def readLscpu (output : Text) (topo : PlatformTopo) : Except LscpuError PlatformTopo := do
  let lscpuMap := lscpu output
  let (numPackage, corePerPackage, threadPerCore) ← parseLscpu lscpuMap
  let numaMap ← parseLscpuNuma lscpuMap topo.numaMap
  .ok { topo with numPackage, corePerPackage, threadPerCore, numaMap }

/-- The constructors, by what they are given. -/
inductive Constructor where
  | nothing
  | cacheFileName
  | acceleratorTopo
deriving Repr, DecidableEq

/-- The object that a constructor makes where the platform has the given accelerators. All delegate to
the last. -/
def new (output : Text) (numAccelerator : Nat) (cpuAffinityIdeal : Nat → Finset Nat) :
    Constructor → Except LscpuError PlatformTopo
  | .acceleratorTopo => readLscpu output ⟨0, 0, 0, [], numAccelerator, cpuAffinityIdeal⟩
  | .nothing | .cacheFileName => do
      let topo ← readLscpu output ⟨0, 0, 0, [], numAccelerator, cpuAffinityIdeal⟩
      readLscpu output topo

end PlatformTopo

end Geopm
