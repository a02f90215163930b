import Geopm.Library.Number
import Geopm.Library.Terminated
import Mathlib.Data.List.TakeWhile

namespace Geopm

/-! The two regions of shared memory between an `EndpointImp` and an `EndpointUserImp`. -/

namespace Endpoint

inductive EndpointError where
  /-- "cannot use shmem before calling open()" -/
  | notOpen
  /-- "size of policy does not match expected." -/
  | policySize
  /-- "output sample vector is incorrect size." -/
  | outputSize
  /-- "Data read from shmem does not match number of samples." -/
  | numSample
  /-- "Data read from shmem does not fit in policy vector." -/
  | doesNotFit
  /-- "size of sample does not match expected." -/
  | sampleSize
  /-- "Agent name is too long for endpoint storage: " and the name. -/
  | agentTooLong (name : List Char)
  /-- "Profile name is too long for endpoint storage: " and the name. -/
  | profileTooLong (name : List Char)
  /-- "SharedMemoryImp: Could not open shared memory with key " and the key. -/
  | noMemory
  /-- The exception of `Agent::num_policy` for an agent that is not known. -/
  | unknownAgent (name : List Char)
  /-- The exception of `read_file`. -/
  | noFile (path : List Char)
  /-- No exception of the source: memory outside an array is accessed. -/
  | outOfBounds
  /-- No exception of the source: there is no such object. -/
  | noObject
deriving Repr, DecidableEq

/-- The end of a string. -/
def nul : Char := Char.ofNat 0

/-- `GEOPM_ENDPOINT_AGENT_NAME_MAX` -/
def agentNameMax : Nat := 256

/-- `GEOPM_ENDPOINT_PROFILE_NAME_MAX` -/
def profileNameMax : Nat := 256

/-- `GEOPM_ENDPOINT_HOSTLIST_PATH_MAX` -/
def hostlistPathMax : Nat := 512

/-- How many values fit in the region of a policy, and in that of a sample. -/
def policyMax : Nat := 509

def sampleMax : Nat := 381

/-- `std::copy` to the start of an array. -/
def copyTo (values array : List Number) : List Number := values ++ array.drop values.length

/-- The string in an array of characters. -/
def cString (buffer : List Char) : List Char := Terminated.upTo nul buffer

/-- `strncpy` of a string with less than all of the array, the last character of which is zero. -/
def copyName (name : List Char) (size : Nat) : List Char :=
  (cString name).take (size - 1) ++ List.replicate (size - ((cString name).take (size - 1)).length) nul

/-- `geopm_endpoint_policy_shmem_s` -/
structure PolicyShmem where
  timestamp : ℚ
  count : Nat
  values : List Number
deriving Repr, DecidableEq

/-- `geopm_endpoint_sample_shmem_s` -/
structure SampleShmem where
  timestamp : ℚ
  agent : List Char
  profileName : List Char
  hostlistPath : List Char
  count : Nat
  values : List Number
deriving Repr, DecidableEq

namespace PolicyShmem

/-- `{}` -/
def zero : PolicyShmem := ⟨0, 0, List.replicate policyMax (.value 0)⟩

/-- What `write_policy` does under the lock. -/
def write (policy : List Number) (now : ℚ) (data : PolicyShmem) : Except EndpointError PolicyShmem :=
  if data.values.length < policy.length then .error .outOfBounds
  else .ok { timestamp := now, count := policy.length, values := copyTo policy data.values }

/-- What `read_policy` does under the lock for a vector of some size: the policy and its age. -/
def read (size : Nat) (now : ℚ) (data : PolicyShmem) : Except EndpointError (List Number × ℚ) :=
  if size < data.count then .error .doesNotFit
  else .ok (copyTo (data.values.take data.count) (List.replicate size .nan), now - data.timestamp)

end PolicyShmem

namespace SampleShmem

/-- `{}` -/
def zero : SampleShmem where
  timestamp := 0
  agent := List.replicate agentNameMax nul
  profileName := List.replicate profileNameMax nul
  hostlistPath := List.replicate hostlistPathMax nul
  count := 0
  values := List.replicate sampleMax (.value 0)

/-- What `write_sample` does under the lock. -/
def write (sample : List Number) (now : ℚ) (data : SampleShmem) : Except EndpointError SampleShmem :=
  if data.values.length < sample.length then .error .outOfBounds
  else .ok { data with timestamp := now, count := sample.length, values := copyTo sample data.values }

/-- What `read_sample` does under the lock. It copies before it compares. -/
def read (size : Nat) (now : ℚ) (data : SampleShmem) : Except EndpointError (List Number × ℚ) :=
  if size < data.count then .error .outOfBounds
  else if size ≠ data.count then .error .numSample
  else .ok (data.values.take data.count, now - data.timestamp)

/-- What the constructor of `EndpointUserImp` does under the lock. -/
def register (agentName profileName hostlistPath : List Char) (data : SampleShmem) :
    Except EndpointError SampleShmem :=
  if agentNameMax ≤ agentName.length then .error (.agentTooLong agentName)
  else if profileNameMax ≤ profileName.length then .error (.profileTooLong profileName)
  else .ok { data with
    agent := copyName agentName agentNameMax
    profileName := copyName profileName profileNameMax
    hostlistPath := copyName hostlistPath hostlistPathMax }

/-- What its destructor does: the first character of each string is zero. -/
def detach (data : SampleShmem) : SampleShmem :=
  { data with
    agent := nul :: data.agent.drop 1
    profileName := nul :: data.profileName.drop 1
    hostlistPath := nul :: data.hostlistPath.drop 1 }

end SampleShmem

/-! What the regions hold: the last values that were written, and who is registered. -/

/-- A message with the time when it was written. -/
structure Message where
  values : List Number
  timestamp : ℚ
deriving Repr, DecidableEq

/-- What a user has told of itself. -/
structure Registration where
  agent : List Char
  profileName : List Char
  hostlistPath : List Char
deriving Repr, DecidableEq

/-- No values have been written. -/
def Message.none : Message := ⟨[], 0⟩

/-- Nobody is registered. -/
def Registration.none : Registration := ⟨[], [], []⟩

/-- An array holds the values that were copied to its start. -/
structure Holds (message : Message) (timestamp : ℚ) (count size : Nat) (array : List Number) : Prop where
  timestamp : timestamp = message.timestamp
  count : count = message.values.length
  values : array.take message.values.length = message.values
  length : array.length = size

variable {message : Message} {timestamp now : ℚ} {count size : Nat} {values array : List Number}
  {name buffer : List Char}

theorem length_copyTo (fits : values.length ≤ array.length) : (copyTo values array).length = array.length := by
  rw [copyTo, List.length_append, List.length_drop, Nat.add_sub_cancel' fits]

theorem Holds.copyTo (holds : Holds message timestamp count size array) (fits : values.length ≤ array.length) :
    Holds ⟨values, now⟩ now values.length size (copyTo values array) where
  timestamp := rfl
  count := rfl
  values := List.take_left
  length := (length_copyTo fits).trans holds.length

theorem Holds.fits (holds : Holds message timestamp count size array) : message.values.length ≤ size := by
  have taken := congrArg List.length holds.values
  rw [List.length_take, holds.length] at taken
  exact min_eq_left_iff.mp taken

theorem holds_zero : Holds .none 0 0 size (List.replicate size (.value 0)) where
  timestamp := rfl
  count := rfl
  values := rfl
  length := List.length_replicate

/-- No character of a string is the end of one. -/
theorem free_cString : nul ∉ cString buffer := by
  intro member
  have before := List.mem_takeWhile_imp member
  simp at before

theorem cString_replicate : cString (List.replicate size nul) = [] := by
  cases size with
  | zero => rfl
  | succ size => simp [cString, Terminated.upTo, List.replicate_succ]

/-- A string that is copied with a zero behind it. -/
theorem cString_copyName (some_size : 0 < size) : cString (copyName name size) = (cString name).take (size - 1) := by
  have short : ((cString name).take (size - 1)).length < size := by
    rw [List.length_take]
    omega
  obtain ⟨padding, room⟩ : ∃ padding, size - ((cString name).take (size - 1)).length = padding + 1 :=
    ⟨size - ((cString name).take (size - 1)).length - 1, by omega⟩
  rw [copyName, room, List.replicate_succ, cString]
  exact Terminated.upTo_append fun member => free_cString (List.mem_of_mem_take member)

end Endpoint

end Geopm
