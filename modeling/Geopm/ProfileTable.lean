import Geopm.Library.Window
import Geopm.Library.Terminated
import Geopm.Library.Packing
import Mathlib.Data.Finset.Lattice.Lemmas
import Mathlib.Data.List.Sort
import Mathlib.Data.List.TakeWhile

namespace Geopm

/-! `ProfileTable`: the names of regions, which reach the controller through the
buffer that both sides share. -/

/-- The characters of a `std::string`. -/
abbrev Name := List UInt8

/-- The shared memory, by the offset of each byte. -/
abbrev Buffer := Nat → UInt8

inductive TableError where
  /-- "ProfileTableImp: table size too small" -/
  | tooSmall
  /-- "ProfileTableImp::insert(): table overflowed." -/
  | overflowed
  /-- "ProfileTableImp::key(): CRC 32 hashed to zero!" -/
  | hashedToZero
  /-- "ProfileTableImp::key(): String hash collision" -/
  | hashCollision
  /-- "ProfileTableImp::name_set(): buffer missing null termination" -/
  | missingNull
  /-- No exception of the source: the buffer is accessed outside its bounds. -/
  | outOfBounds
deriving Repr, DecidableEq

/-- The part of a string before its first null character. -/
def cStr (name : Name) : Name := Terminated.upTo 0 name

/-- What `strncpy` writes of a string. -/
def strncpy (name : Name) (count : Nat) : List UInt8 :=
  (cStr name).take count ++ List.replicate (count - (cStr name).length) 0

/-- `strnlen`. -/
def strnlen (buffer : Buffer) (ptr count : Nat) : Nat :=
  (Terminated.upTo 0 (Window.read buffer ptr count)).length

/-- The value of up to eight bytes, the first of them the lowest. -/
def wordOf (bytes : List UInt8) : Nat := bytes.foldr (fun byte rest => byte.toNat + 2 ^ 8 * rest) 0

/-- `geopm_crc32_str`, over the processor's checksum of a word. -/
def crc32Str (crc32U64 : Nat → Nat → Nat) (key : Name) : Nat :=
  ((cStr key).toChunks 8).foldl (fun result word => crc32U64 result (wordOf word)) 0

/-- `ProfileTableImp` without its messages. -/
structure ProfileTable where
  bufferSize : Nat
  /-- in the order of the names -/
  keyMap : List (Name × Nat)
  keySet : List Nat
  /-- the entries of the map from the iterator on -/
  keyMapLast : List (Name × Nat)
deriving Repr, DecidableEq

namespace ProfileTable

/-- `sizeof(struct table_s)`. -/
def sizeofTable : Nat := 64

/-- `sizeof(struct geopm_prof_message_s)`. -/
def sizeofMessage : Nat := 40

/-- The constructor. -/
def new (size : Nat) : Except TableError ProfileTable :=
  if size < sizeofTable + 4 * sizeofMessage then .error .tooSmall
  else .ok { bufferSize := size, keyMap := [], keySet := [], keyMapLast := [] }

/-- Insert an entry of a new name. -/
def insertEntry (entry : Name × Nat) (keyMap : List (Name × Nat)) : List (Name × Nat) :=
  keyMap.orderedInsert (fun left right => left.1 ≤ right.1) entry

/-- `key`. -/
def key (crc32U64 : Nat → Nat → Nat) (table : ProfileTable) (name : Name) :
    Except TableError (Nat × ProfileTable) :=
  match table.keyMap.lookup name with
  | some result => .ok (result, table)
  | none =>
      let result := crc32Str crc32U64 name
      if result = 0 then .error .hashedToZero
      else if result ∈ table.keySet then .error .hashCollision
      else
        let keyMap := insertEntry (name, result) table.keyMap
        .ok (result, { table with keyMap, keySet := result :: table.keySet, keyMapLast := keyMap })

/-- The loop of `name_fill`: the entries that remain, the position and the room
behind it. -/
def fillLoop : List (Name × Nat) → Nat → Nat → Buffer → List (Name × Nat) × Nat × Nat × Buffer
  | [], bufferPtr, bufferRemain, buffer => ([], bufferPtr, bufferRemain, buffer)
  | entry :: rest, bufferPtr, bufferRemain, buffer =>
      if entry.1.length < bufferRemain then
        fillLoop rest (bufferPtr + (entry.1.length + 1)) (bufferRemain - (entry.1.length + 1))
          (Window.put buffer bufferPtr (strncpy entry.1 bufferRemain))
      else (entry :: rest, bufferPtr, bufferRemain, buffer)

/-- `name_fill`. -/
def nameFill (table : ProfileTable) (buffer : Buffer) (headerOffset : Nat) :
    Except TableError (Bool × ProfileTable × Buffer) :=
  if table.bufferSize ≤ headerOffset then .error .outOfBounds
  else
    let (last, bufferPtr, bufferRemain, buffer) :=
      fillLoop table.keyMapLast headerOffset (table.bufferSize - headerOffset - 1) buffer
    let buffer := Window.put buffer bufferPtr (List.replicate bufferRemain 0)
    if last = [] ∧ bufferRemain ≠ 0 then
      -- done, with the last character set
      .ok (true, { table with keyMapLast := table.keyMap },
        Window.put buffer (bufferPtr + bufferRemain) [1])
    else
      .ok (false, { table with keyMapLast := last },
        Window.put buffer (bufferPtr + bufferRemain) [0])

/-- The loop of `name_set`. Each name takes room, so there are no more names
than there is room. -/
def setLoop (buffer : Buffer) : Nat → Nat → Nat → Finset Name → Except TableError (Finset Name)
  | 0, _, _, names => .ok names
  | fuel + 1, bufferPtr, bufferRemain, names =>
      if bufferRemain = 0 then .ok names
      else
        let nameLen := strnlen buffer bufferPtr bufferRemain
        if nameLen = bufferRemain then .error .missingNull
        else if nameLen ≠ 0 then
          setLoop buffer fuel (bufferPtr + (nameLen + 1)) (bufferRemain - (nameLen + 1))
            (insert (Window.read buffer bufferPtr nameLen : Name) names)
        else .ok names

/-- `name_set`. -/
def nameSet (table : ProfileTable) (buffer : Buffer) (headerOffset : Nat) (names : Finset Name) :
    Except TableError (Bool × Finset Name) :=
  if table.bufferSize ≤ headerOffset then .error .outOfBounds
  else
    let result := buffer (table.bufferSize - 1) = 1
    let bufferRemain := table.bufferSize - headerOffset - 1
    (setLoop buffer bufferRemain headerOffset bufferRemain names).map fun names => (result, names)

/-- The names that are registered, in the order of the map. -/
def names (table : ProfileTable) : List Name := table.keyMap.map Prod.fst

/-- A name that `name_fill` can send through an empty buffer. -/
structure Sendable (size : Nat) (name : Name) : Prop where
  free : (0 : UInt8) ∉ name
  nonempty : name ≠ []
  short : name.length + 1 < size

instance (size : Nat) (name : Name) : Decidable (Sendable size name) :=
  decidable_of_iff ((0 : UInt8) ∉ name ∧ name ≠ [] ∧ name.length + 1 < size)
    ⟨fun ⟨free, nonempty, short⟩ => ⟨free, nonempty, short⟩,
      fun ⟨free, nonempty, short⟩ => ⟨free, nonempty, short⟩⟩

/-- The room that a name takes with its terminator. -/
def room (name : Name) : Nat := name.length + 1

/-- The names that the next calls of `name_fill` send first. -/
def remaining (table : ProfileTable) : List Name := table.keyMapLast.map Prod.fst

section

variable {name : Name} {size count bufferPtr bufferRemain headerOffset : Nat} {buffer : Buffer}
  {entries : List (Name × Nat)} {table : ProfileTable}

theorem cStr_of_free (free : (0 : UInt8) ∉ name) : cStr name = name := by
  rw [cStr, Terminated.upTo, List.takeWhile_eq_self_iff]
  intro byte member
  have different : byte ≠ 0 := fun same => free (same ▸ member)
  simpa using different

theorem strncpy_of_free (free : (0 : UInt8) ∉ name) (short : name.length < count) :
    strncpy name count = name ++ List.replicate (count - name.length) 0 := by
  rw [strncpy, cStr_of_free free, List.take_of_length_le short.le]

theorem length_strncpy (name : Name) (count : Nat) : (strncpy name count).length = count := by
  simp only [strncpy, List.length_append, List.length_take, List.length_replicate]
  omega

/-- A string that is shorter than the count is copied with its terminator. -/
theorem take_strncpy (free : (0 : UInt8) ∉ name) (short : name.length < count) :
    (strncpy name count).take (name.length + 1) = name ++ [0] := by
  obtain ⟨more, rfl⟩ : ∃ more, count = name.length + (more + 1) := ⟨count - name.length - 1, by omega⟩
  rw [strncpy_of_free free short, Nat.add_sub_cancel_left, List.replicate_succ, List.append_cons,
    List.take_left' (by simp)]

theorem length_encode (names : List Name) :
    (Terminated.encode 0 names).length = (names.map room).sum :=
  Terminated.length_encode

/-- The loop writes the names that fit, each with its terminator. -/
theorem fillLoop_spec (free : ∀ name ∈ entries.map Prod.fst, (0 : UInt8) ∉ name) :
    ∃ last after, fillLoop entries bufferPtr bufferRemain buffer =
        (last, bufferPtr + (Terminated.encode 0
          (Packing.fitting room bufferRemain (entries.map Prod.fst))).length,
          Packing.spare room bufferRemain (entries.map Prod.fst), after) ∧
      last.map Prod.fst = Packing.excess room bufferRemain (entries.map Prod.fst) ∧
      Window.read after bufferPtr (Terminated.encode 0
          (Packing.fitting room bufferRemain (entries.map Prod.fst))).length =
        Terminated.encode 0 (Packing.fitting room bufferRemain (entries.map Prod.fst)) ∧
      ∀ cell, cell < bufferPtr ∨ bufferPtr + bufferRemain ≤ cell → after cell = buffer cell := by
  induction entries generalizing bufferPtr bufferRemain buffer with
  | nil => exact ⟨[], buffer, rfl, rfl, rfl, fun _ _ => rfl⟩
  | cons entry rest ih =>
      obtain ⟨name, hash⟩ := entry
      have others := fun other member => free other (List.mem_cons_of_mem _ member)
      simp only [fillLoop, List.map_cons, Packing.fitting, Packing.excess, Packing.spare]
      by_cases fits : name.length < bufferRemain
      · have short : room name ≤ bufferRemain := fits
        have written := length_strncpy name bufferRemain
        obtain ⟨last, after, looped, excess, read, outside⟩ := @ih (bufferPtr + (name.length + 1))
          (bufferRemain - (name.length + 1))
          (Window.put buffer bufferPtr (strncpy name bufferRemain)) others
        simp only [if_pos fits, if_pos short, Terminated.encode_cons]
        refine ⟨last, after, ?_, excess, ?_, ?_⟩
        · rw [looped]
          simp only [List.length_append, List.length_cons, room]
          congr 2
          omega
        · rw [List.length_append, List.length_cons, ← Nat.add_assoc, Nat.add_right_comm,
            Window.read_add]
          have kept : Window.read after bufferPtr (name.length + 1) = name ++ [0] := by
            rw [Window.read_congr fun index inside => outside (bufferPtr + index) (by omega),
              Window.read_put_take (by omega), take_strncpy (free name (by simp)) fits]
          rw [kept, List.append_assoc]
          exact congrArg _ (congrArg _ read)
        · intro cell apart
          rw [outside cell (by omega)]
          apply Window.put_outside
          omega
      · have long : ¬ room name ≤ bufferRemain := fits
        simp only [if_neg fits, if_neg long]
        exact ⟨_, buffer, rfl, rfl, rfl, fun _ _ => rfl⟩

/-- What a call of `name_fill` leaves in the buffer and in the table. -/
structure Filled (table next : ProfileTable) (headerOffset : Nat) (buffer after : Buffer) : Prop where
  bufferSize : next.bufferSize = table.bufferSize
  keyMap : next.keyMap = table.keyMap
  remaining : next.remaining = Packing.advance room (table.bufferSize - headerOffset - 1)
    table.names table.remaining
  written : Window.read after headerOffset (table.bufferSize - headerOffset - 1) =
    Terminated.encode 0
        (Packing.fitting room (table.bufferSize - headerOffset - 1) table.remaining) ++
      List.replicate
        (Packing.spare room (table.bufferSize - headerOffset - 1) table.remaining) 0
  marked : after (table.bufferSize - 1) =
    if Packing.Finishes room (table.bufferSize - headerOffset - 1) table.remaining then 1 else 0
  header : ∀ cell, cell < headerOffset → after cell = buffer cell

/-- The end of `name_fill` pads the names with zeros and sets the last character. -/
theorem read_padded (filled : Buffer) (length padding : Nat) (last : UInt8) :
    Window.read (Window.put (Window.put filled (headerOffset + length) (List.replicate padding 0))
        (headerOffset + length + padding) [last]) headerOffset (length + padding) =
      Window.read filled headerOffset length ++ List.replicate padding 0 := by
  rw [Window.read_put_disjoint (by simp; omega), Window.read_add,
    Window.read_put_disjoint (by simp)]
  congr 1
  have padded := @Window.read_put _ filled (headerOffset + length) (List.replicate padding 0)
  rwa [List.length_replicate] at padded

theorem put_padded_below (filled : Buffer) (length padding : Nat) (last : UInt8) {cell : Nat}
    (below : cell < headerOffset) :
    Window.put (Window.put filled (headerOffset + length) (List.replicate padding 0))
      (headerOffset + length + padding) [last] cell = filled cell := by
  rw [Window.put_outside (by omega), Window.put_outside (by omega)]

theorem nameFill_spec (inside : headerOffset < table.bufferSize)
    (free : ∀ name ∈ table.remaining, (0 : UInt8) ∉ name) :
    ∃ next after, table.nameFill buffer headerOffset = .ok
        (decide (Packing.Finishes room (table.bufferSize - headerOffset - 1) table.remaining),
          next, after) ∧
      Filled table next headerOffset buffer after := by
  obtain ⟨last, filled, looped, excess, read, outside⟩ := @fillLoop_spec headerOffset
    (table.bufferSize - headerOffset - 1) buffer table.keyMapLast free
  change last.map Prod.fst = Packing.excess room _ table.remaining at excess
  have total := @Packing.spare_add _ room (table.bufferSize - headerOffset - 1) table.remaining
  rw [← length_encode] at total
  have final : table.bufferSize - 1 = headerOffset + (Terminated.encode 0 (Packing.fitting room
      (table.bufferSize - headerOffset - 1) table.remaining)).length +
      Packing.spare room (table.bufferSize - headerOffset - 1) table.remaining := by omega
  rw [Nat.add_comm] at total
  have padded := @read_padded headerOffset filled (Terminated.encode 0 (Packing.fitting room
    (table.bufferSize - headerOffset - 1) table.remaining)).length
    (Packing.spare room (table.bufferSize - headerOffset - 1) table.remaining)
  have written := fun last => (padded last).trans (congrArg (· ++ _) read)
  rw [total] at written
  have finished : last = [] ↔ Packing.excess room (table.bufferSize - headerOffset - 1)
      table.remaining = [] := by rw [← excess, List.map_eq_nil_iff]
  rw [nameFill, if_neg (by omega), looped]
  by_cases finishes : Packing.Finishes room (table.bufferSize - headerOffset - 1) table.remaining
  · refine ⟨{ table with keyMapLast := table.keyMap }, _, ?_, rfl, rfl, ?_, written 1, ?_, ?_⟩
    · rw [decide_eq_true finishes]
      exact if_pos ⟨finished.mpr finishes.1, finishes.2⟩
    · rw [Packing.advance, if_pos finishes]
      rfl
    · rw [if_pos finishes, final]
      exact Window.put_singleton 1
    · intro cell below
      rw [put_padded_below filled _ _ 1 below, outside cell (.inl below)]
  · refine ⟨{ table with keyMapLast := last }, _, ?_, rfl, rfl, ?_, written 0, ?_, ?_⟩
    · rw [decide_eq_false finishes]
      exact if_neg fun both => finishes ⟨finished.mp both.1, both.2⟩
    · rw [Packing.advance, if_neg finishes]
      exact excess
    · rw [if_neg finishes, final]
      exact Window.put_singleton 0
    · intro cell below
      rw [put_padded_below filled _ _ 0 below, outside cell (.inl below)]

theorem length_upTo_le (values : List UInt8) : (Terminated.upTo 0 values).length ≤ values.length :=
  (List.takeWhile_prefix _).length_le

/-- The loop inserts the names that are decoded from the bytes. -/
theorem setLoop_eq {fuel : Nat} {names : Finset Name} :
    setLoop buffer fuel bufferPtr bufferRemain names =
      match Terminated.decodeWithin 0 fuel (Window.read buffer bufferPtr bufferRemain) with
      | none => .error .missingNull
      | some items => .ok (items.toFinset ∪ names) := by
  induction fuel generalizing bufferPtr bufferRemain names with
  | zero => simp [setLoop, Terminated.decodeWithin]
  | succ fuel ih =>
      have empty : Window.read buffer bufferPtr bufferRemain = [] ↔ bufferRemain = 0 := by
        rw [← List.length_eq_zero_iff, Window.length_read]
      have nameLen : strnlen buffer bufferPtr bufferRemain =
          (Terminated.upTo 0 (Window.read buffer bufferPtr bufferRemain)).length := rfl
      have bound := length_upTo_le (Window.read buffer bufferPtr bufferRemain)
      have taken : Window.read buffer bufferPtr (strnlen buffer bufferPtr bufferRemain) =
          Terminated.upTo 0 (Window.read buffer bufferPtr bufferRemain) := by
        rw [← Window.take_read (Window.length_read ▸ bound)]
        exact (List.prefix_iff_eq_take.mp (List.takeWhile_prefix _)).symm
      rw [Window.length_read] at bound
      rw [nameLen] at taken
      simp only [setLoop, Terminated.decodeWithin, Window.length_read, empty, nameLen, taken]
      by_cases done : bufferRemain = 0
      · rw [if_pos done, if_pos done]
        simp
      by_cases missing : (Terminated.upTo 0 (Window.read buffer bufferPtr bufferRemain)).length =
          bufferRemain
      · rw [if_neg done, if_pos missing, if_neg done, if_pos missing]
      by_cases last : Terminated.upTo 0 (Window.read buffer bufferPtr bufferRemain) = []
      · rw [if_neg done, if_neg missing, if_neg done, if_neg missing, if_pos last, last]
        simp
      · have counted := mt List.length_eq_zero_iff.mp last
        rw [if_neg done, if_neg missing, if_pos counted, if_neg done, if_neg missing,
          if_neg last, ih, Window.drop_read (by omega)]
        cases Terminated.decodeWithin 0 fuel (Window.read buffer _ _) with
        | none => rfl
        | some items => simp

/-- A buffer that holds names from the offset on. -/
theorem nameSet_spec {items : List Name} {padding : Nat} {names : Finset Name}
    (sized : table.bufferSize = size) (inside : headerOffset < size)
    (free : ∀ name ∈ items, (0 : UInt8) ∉ name)
    (written : Window.read buffer headerOffset (size - headerOffset - 1) =
      Terminated.encode 0 items ++ List.replicate padding 0) :
    table.nameSet buffer headerOffset names = .ok (decide (buffer (size - 1) = 1),
      (items.takeWhile (· ≠ [])).toFinset ∪ names) := by
  have bytes := congrArg List.length written
  rw [Window.length_read, List.length_append, List.length_replicate] at bytes
  rw [nameSet, sized, if_neg (by omega)]
  simp only [setLoop_eq, written, Terminated.decodeWithin_encode free bytes.symm.le, Except.map]

/-- A call of `key` that returns has the name registered, and the next
`name_fill` starts with the first name. -/
theorem key_ok {crc32U64 : Nat → Nat → Nat} {result : Nat} {next : ProfileTable}
    (done : table.key crc32U64 name = .ok (result, next)) :
    next.bufferSize = table.bufferSize ∧
      (table.keyMapLast = table.keyMap → next.keyMapLast = next.keyMap) ∧
      ∀ other, other ∈ next.names ↔ other = name ∨ other ∈ table.names := by
  rw [key] at done
  cases found : table.keyMap.lookup name with
  | some hash =>
      simp only [found, Except.ok.injEq, Prod.mk.injEq] at done
      obtain ⟨_, rfl⟩ := done
      refine ⟨rfl, id, fun other => ⟨.inr, ?_⟩⟩
      rintro (rfl | known)
      · obtain ⟨before, after, same, _⟩ := List.lookup_eq_some_iff.mp found
        rw [names, same]
        simp
      · exact known
  | none =>
      simp only [found] at done
      split at done
      · simp at done
      · split at done
        · simp at done
        · simp only [Except.ok.injEq, Prod.mk.injEq] at done
          obtain ⟨_, rfl⟩ := done
          refine ⟨rfl, fun _ => rfl, fun other => ?_⟩
          have entries := (List.perm_orderedInsert (fun left right : Name × Nat => left.1 ≤ right.1)
            (name, crc32Str crc32U64 name) table.keyMap).map Prod.fst
          exact entries.mem_iff.trans List.mem_cons

end

/-- A new table on which `key` has returned for each of the names. -/
def register (crc32U64 : Nat → Nat → Nat) (size : Nat) (names : List Name) :
    Except TableError ProfileTable := do
  names.foldlM (fun table name => (table.key crc32U64 name).map Prod.snd) (← new size)

/-- A table before the first call of `name_fill`. -/
structure Registered (table : ProfileTable) (size : Nat) (registered : List Name) : Prop where
  bufferSize : table.bufferSize = size
  large : sizeofTable + 4 * sizeofMessage ≤ size
  first : table.keyMapLast = table.keyMap
  names : ∀ name, name ∈ table.names ↔ name ∈ registered

theorem Registered.key {table next : ProfileTable} {size result : Nat} {registered : List Name}
    {name : Name} {crc32U64 : Nat → Nat → Nat} (before : table.Registered size registered)
    (done : table.key crc32U64 name = .ok (result, next)) :
    next.Registered size (registered ++ [name]) := by
  obtain ⟨bufferSize, first, names⟩ := key_ok done
  refine ⟨bufferSize.trans before.bufferSize, before.large, first before.first, fun other => ?_⟩
  rw [names, before.names, List.mem_append, List.mem_singleton, Or.comm]

theorem registered_of_register {crc32U64 : Nat → Nat → Nat} {size : Nat} {names : List Name}
    {table : ProfileTable} (done : register crc32U64 size names = .ok table) :
    table.Registered size names := by
  have loop : ∀ (names before : List Name) (start : ProfileTable),
      start.Registered size before →
      names.foldlM (fun table name => (table.key crc32U64 name).map Prod.snd) start = .ok table →
      table.Registered size (before ++ names) := by
    intro names
    induction names with
    | nil =>
        intro before start registered done
        obtain rfl := Except.ok.inj done
        rwa [List.append_nil]
    | cons name rest ih =>
        intro before start registered done
        rw [List.foldlM_cons] at done
        cases keyed : start.key crc32U64 name with
        | error reason => simp [keyed, Except.map, Bind.bind, Except.bind] at done
        | ok pair =>
            obtain ⟨result, next⟩ := pair
            simp only [keyed, Except.map, Bind.bind, Except.bind] at done
            rw [List.append_cons]
            exact ih _ _ (registered.key keyed) done
  rw [register, new] at done
  split at done
  · simp [Bind.bind, Except.bind] at done
  · exact loop names [] _ ⟨rfl, by omega, rfl, fun _ => Iff.rfl⟩ done

end ProfileTable

end Geopm
