import Mathlib.Data.Rat.Defs
import Mathlib.Data.Rat.Floor
import Mathlib.Algebra.Order.Ring.Rat
import Mathlib.Tactic.Ring

namespace Geopm

/-- `geopm_time_s`, which wraps a `timespec`. -/
structure Time where
  tvSec : Int
  tvNsec : Int
deriving Repr, DecidableEq

/-- `geopm_time_diff` without the rounding of `double`. -/
def timeDiff (start stop : Time) : Rat :=
  ((stop.tvSec - start.tvSec : Int) : Rat) +
    ((stop.tvNsec - start.tvNsec : Int) : Rat) * (1 / 1000000000)

theorem timeDiff_sub (zero start stop : Time) :
    timeDiff zero stop - timeDiff zero start = timeDiff start stop := by
  simp only [timeDiff]
  push_cast
  ring

/-- `event_e`. -/
inductive Event where
  | regionEntry
  | regionExit
  | epochCount
  | hint
  | profile
  | report
  | claimCpu
  | releaseCpu
  | nameMap
  | shortRegion
deriving Repr, DecidableEq

/-- `record_s`. -/
structure Record where
  time : Rat
  process : Int
  event : Event
  signal : Nat
deriving Repr, DecidableEq

/-- `short_region_s`. -/
structure ShortRegion where
  hash : Nat
  numComplete : Nat
  totalTime : Rat
deriving Repr, DecidableEq

/-- `GEOPM_REGION_HASH_INVALID`. -/
def regionHashInvalid : Nat := 0

/-- The conversion of a `double` to an integer type. -/
def truncate (value : Rat) : Int := value.num.tdiv value.den

@[simp] theorem truncate_intCast (value : Int) : truncate value = value := by
  simp [truncate]

theorem truncate_eq_floor {value : Rat} (nonnegative : 0 ≤ value) : truncate value = ⌊value⌋ := by
  rw [truncate, Rat.floor_def', Int.tdiv_eq_ediv_of_nonneg (Rat.num_nonneg.mpr nonnegative)]

end Geopm
