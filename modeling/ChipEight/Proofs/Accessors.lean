import ChipEight.Proofs.Blocks
import ChipEight.Proofs.Effect

/-!
# Memory as an array

Memory is an array of 4096 bytes that five accessors read and write, each with its own
arithmetic of addresses. The laws of an array are what ties them to one another: what was
written is what is read, all else is what it was, and a block, a word and a byte are read
alike (`Memory.isArray`).

A block write is given integers, and these need not be bytes. What it can come to is said once,
in `Memory.WriteOutcome`: the bounds decide first, then the values, and only then is anything
written.
-/

namespace ChipEight

namespace Memory

variable {m m' : Memory} {address : Int} {values : List Int} {bytes : List UInt8}

/-! ## Integers and bytes -/

/-- Bytes as integers. -/
def integers (bytes : List UInt8) : List Int := bytes.map fun byte => (byte.toNat : Int)

theorem length_integers (bytes : List UInt8) : (integers bytes).length = bytes.length :=
  List.length_map _

theorem toByte?_eq_some_iff {value : Int} {byte : UInt8} :
    toByte? value = some byte ↔ (byte.toNat : Int) = value := by
  have hbyte := byte.toNat_lt
  rw [toByte?]
  by_cases hrange : 0 ≤ value ∧ value < 256
  · obtain ⟨number, rfl⟩ := Int.eq_ofNat_of_zero_le hrange.1
    rw [if_pos hrange, Option.some.injEq, ← UInt8.toNat_inj, UInt8.toNat_ofNat', Int.toNat_natCast,
      Nat.mod_eq_of_lt (by omega)]
    omega
  · rw [if_neg hrange]
    exact ⟨fun h => (nomatch h), fun h => by omega⟩

/-- Integers are bytes when each of them is. -/
theorem mapM_toByte?_eq_some_iff :
    values.mapM toByte? = some bytes ↔ integers bytes = values := by
  induction values generalizing bytes with
  | nil =>
    rw [List.mapM_nil, integers, List.map_eq_nil_iff]
    exact ⟨fun h => (Option.some.inj h).symm, fun h => congrArg some h.symm⟩
  | cons value rest ih =>
    rw [List.mapM_cons]
    constructor
    · intro h
      obtain ⟨byte, hbyte, hbytes⟩ := Option.bind_eq_some_iff.mp h
      obtain ⟨more, hmore, hcons⟩ := Option.bind_eq_some_iff.mp hbytes
      obtain rfl := Option.some.inj hcons
      rw [integers, List.map_cons, toByte?_eq_some_iff.mp hbyte]
      exact congrArg (value :: ·) (ih.mp hmore)
    · intro h
      obtain ⟨byte, more, rfl, hbyte, hmore⟩ := List.map_eq_cons_iff.mp h
      exact Option.bind_eq_some_iff.mpr ⟨byte, toByte?_eq_some_iff.mpr hbyte,
        Option.bind_eq_some_iff.mpr ⟨more, ih.mpr hmore, rfl⟩⟩

/-- The integers that are bytes are those from 0 to 255. -/
theorem exists_integers_eq_iff :
    (∃ bytes, integers bytes = values) ↔ ∀ value ∈ values, 0 ≤ value ∧ value < 256 := by
  constructor
  · rintro ⟨bytes, rfl⟩ value hvalue
    obtain ⟨byte, -, rfl⟩ := List.mem_map.mp hvalue
    have hbyte := byte.toNat_lt
    omega
  · intro h
    refine ⟨values.map fun value => UInt8.ofNat value.toNat, ?_⟩
    rw [integers, List.map_map]
    refine (List.map_congr_left fun value hvalue => ?_).trans (List.map_id values)
    obtain ⟨hlow, hhigh⟩ := h value hvalue
    exact toByte?_eq_some_iff.mp (if_pos ⟨hlow, hhigh⟩)

/-! ## Block writes -/

/-- What a block write can come to, and the memory that it leaves behind. -/
inductive WriteOutcome (m : Memory) (address : Int) (values : List Int) :
    EStateM.Result Error Memory Unit → Prop
  /-- the block does not lie in memory -/
  | outOfBounds (hbounds : ¬ InBounds address values.length) :
    WriteOutcome m address values (.error (.fault (.memoryAccess address values.length)) m)
  /-- the block lies in memory, but not all of its values are bytes -/
  | notBytes (hbounds : InBounds address values.length)
    (hvalues : ¬ ∀ value ∈ values, 0 ≤ value ∧ value < 256) :
    WriteOutcome m address values (.error (.misuse .notAByte) m)
  /-- the bytes are stored -/
  | writes {bytes : List UInt8} (hbounds : InBounds address values.length)
    (hbytes : integers bytes = values) :
    WriteOutcome m address values (.ok () (m.store address.toNat bytes))

theorem writeBlockInPlace_outcome (m : Memory) (address : Int) (values : List Int) :
    WriteOutcome m address values (writeBlockInPlace address values m) := by
  rw [writeBlockInPlace]
  by_cases hbounds : InBounds address values.length
  · rw [checkBounds_of_inBounds hbounds]
    rcases hvalues : values.mapM toByte? with _ | bytes
    · refine .notBytes hbounds fun hrange => ?_
      obtain ⟨bytes, hbytes⟩ := exists_integers_eq_iff.mpr hrange
      rw [mapM_toByte?_eq_some_iff.mpr hbytes] at hvalues
      cases hvalues
    · exact .writes hbounds (mapM_toByte?_eq_some_iff.mp hvalues)
  · rw [checkBounds_of_not_inBounds hbounds]
    exact .outOfBounds hbounds

/-- Whether integers can be written from an address on: the block lies in memory, and all of them
are bytes. -/
def Writable (address : Int) (values : List Int) : Prop :=
  0 ≤ address ∧ address + values.length ≤ 4096 ∧ ∀ value ∈ values, 0 ≤ value ∧ value < 256

/-- The memory `m'` is `m` with integers written from an address on: the block is read back, the
bytes outside of it are what they were, and the block stands in the place of as many bytes. -/
structure Written (m m' : Memory) (address : Int) (values : List Int) : Prop where
  read : ∃ bytes, m'.readBlock address values.length = .ok bytes ∧ integers bytes = values ∧
    m'.bytes.toList = m.bytes.toList.take address.toNat ++ bytes ++
      m.bytes.toList.drop (address.toNat + values.length)
  outside : ∀ place : Int, place < address ∨ address + values.length ≤ place →
    m'.readByte place = m.readByte place
  length : m'.bytes.toList.length = 4096

/-- A block that was stored is read back. -/
theorem bytesAt_store (m : Memory) {start : Nat} (h : start + bytes.length ≤ 4096) :
    (m.store start bytes).bytesAt start bytes.length = bytes := by
  refine List.ext_getElem (length_bytesAt _ _ _) fun k hk hk' => ?_
  have hinside : start ≤ start + k ∧ start + k < start + bytes.length := by omega
  simp only [bytesAt, List.getElem_map, List.getElem_range]
  rw [byteAt_store m h, if_pos hinside, Nat.add_sub_cancel_left, List.getElem?_eq_getElem hk',
    Option.getD_some]

/-- A byte outside of a block that was stored is what it was. -/
theorem readByte_store_of_outside (m : Memory) {start : Nat} (h : start + bytes.length ≤ 4096)
    {place : Int} (hplace : place < start ∨ start + bytes.length ≤ place) :
    (m.store start bytes).readByte place = m.readByte place := by
  by_cases hbounds : InBounds place 1
  · have hlow := hbounds.1
    have houtside : ¬ (start ≤ place.toNat ∧ place.toNat < start + bytes.length) := by omega
    rw [readByte_of_inBounds hbounds, readByte_of_inBounds hbounds, byteAt_store m h,
      if_neg houtside]
  · rw [readByte_of_not_inBounds hbounds, readByte_of_not_inBounds hbounds]

/-- Bytes can be written wherever they lie in memory. -/
theorem writable_of_integers (hbounds : InBounds address values.length)
    (hbytes : integers bytes = values) : Writable address values :=
  ⟨hbounds.1, hbounds.2, exists_integers_eq_iff.mp ⟨bytes, hbytes⟩⟩

theorem written_of_writeBlock (h : m.writeBlock address values = .ok m') :
    m.Written m' address values := by
  have hout := m.writeBlockInPlace_outcome address values
  rw [writeBlock, resulting] at h
  generalize writeBlockInPlace address values m = result at hout h
  cases hout with
  | outOfBounds _ | notBytes _ _ => cases h
  | @writes bytes hbounds hbytes =>
    obtain rfl := Except.ok.inj h
    subst hbytes
    obtain ⟨hlow, hhigh⟩ := hbounds
    -- the bounds have been tested, so the address is a natural number from here on
    obtain ⟨start, rfl⟩ := Int.eq_ofNat_of_zero_le hlow
    simp only [size, length_integers] at hhigh
    have hfits : start + bytes.length ≤ 4096 := by omega
    rw [Int.toNat_natCast]
    refine ⟨⟨bytes, ?_, rfl, ?_⟩, fun place hplace => ?_, length_toList _⟩
    · rw [length_integers, readBlock_eq_bytesAt hfits, bytesAt_store m hfits]
    · rw [length_integers, Int.toNat_natCast, toList_store m hfits]
    · rw [length_integers] at hplace
      exact readByte_store_of_outside m hfits hplace

theorem writeBlock_eq_ok_iff :
    (∃ m', m.writeBlock address values = .ok m') ↔ Writable address values := by
  have hout := m.writeBlockInPlace_outcome address values
  rw [writeBlock, resulting]
  generalize writeBlockInPlace address values m = result at hout ⊢
  cases hout with
  | outOfBounds hbounds =>
    constructor
    · rintro ⟨_, h⟩
      cases h
    · intro h
      exact absurd ⟨h.1, h.2.1⟩ hbounds
  | notBytes _ hvalues =>
    constructor
    · rintro ⟨_, h⟩
      cases h
    · intro h
      exact absurd h.2.2 hvalues
  | writes hbounds hbytes =>
    exact ⟨fun _ => writable_of_integers hbounds hbytes, fun _ => ⟨_, rfl⟩⟩

/-- The bounds decide before the values do. -/
theorem writeBlock_of_not_inBounds (h : ¬ InBounds address values.length) :
    m.writeBlock address values = .error (.fault (.memoryAccess address values.length)) := by
  have hout := m.writeBlockInPlace_outcome address values
  rw [writeBlock, resulting]
  generalize writeBlockInPlace address values m = result at hout ⊢
  cases hout with
  | outOfBounds _ => rfl
  | notBytes hbounds _ | writes hbounds _ => exact absurd hbounds h

theorem writeBlock_of_not_bytes (h : InBounds address values.length)
    (hvalues : ¬ ∀ value ∈ values, 0 ≤ value ∧ value < 256) :
    m.writeBlock address values = .error (.misuse .notAByte) := by
  have hout := m.writeBlockInPlace_outcome address values
  rw [writeBlock, resulting]
  generalize writeBlockInPlace address values m = result at hout ⊢
  cases hout with
  | outOfBounds hbounds => exact absurd h hbounds
  | notBytes _ _ => rfl
  | writes _ hbytes => exact absurd (exists_integers_eq_iff.mp ⟨_, hbytes⟩) hvalues

/-- Nothing is written unless all of it is. -/
theorem after_writeBlockInPlace (h : ¬ Writable address values) :
    after (writeBlockInPlace address values) m = m := by
  have hout := m.writeBlockInPlace_outcome address values
  rw [after]
  generalize writeBlockInPlace address values m = result at hout ⊢
  cases hout with
  | outOfBounds _ | notBytes _ _ => rfl
  | writes hbounds hbytes => exact absurd (writable_of_integers hbounds hbytes) h

/-! ## The laws of an array -/

/-- The two bytes of a word are read one by one. -/
theorem readWord_eq_readByte (m : Memory) (hlow : 0 ≤ address) (hhigh : address ≤ 4094) :
    ∃ high low, m.readByte address = .ok high ∧ m.readByte (address + 1) = .ok low ∧
      m.readWord address = .ok (256 * high.toNat + low.toNat) := by
  have hword : InBounds address 2 := ⟨hlow, by simp only [size]; omega⟩
  have hfirst : InBounds address 1 := ⟨hlow, by simp only [size]; omega⟩
  have hsecond : InBounds (address + 1) 1 := ⟨by omega, by simp only [size]; omega⟩
  have hnext : (address + 1).toNat = address.toNat + 1 := by omega
  refine ⟨_, _, readByte_of_inBounds hfirst, readByte_of_inBounds hsecond, ?_⟩
  rw [readWord_of_inBounds hword, wordAt, hnext, Nat.mul_comm]

/-- A byte is written like a block of one byte, whose value is the remainder. -/
theorem writeByte_eq_writeBlock (m : Memory) (address value : Int) :
    (m.writeByte address value).mapError .fault = m.writeBlock address [value % 256] := by
  have hrange : 0 ≤ value % 256 ∧ value % 256 < 256 := by omega
  have hbyte : toByte? (value % 256) = some (UInt8.ofNat (value % 256).toNat) := if_pos hrange
  have hblock : [value % 256].mapM toByte? = some [UInt8.ofNat (value % 256).toNat] :=
    mapM_toByte?_eq_some_iff.mpr (congrArg ([·]) (toByte?_eq_some_iff.mp hbyte))
  by_cases hbounds : InBounds address 1
  · have hcheck : checkBounds address [value % 256].length = .ok () :=
      checkBounds_of_inBounds hbounds
    rw [writeByte, checkBounds_of_inBounds hbounds, writeBlock, resulting, writeBlockInPlace,
      hcheck, hblock]
    rfl
  · have hcheck : checkBounds address [value % 256].length = .error (.memoryAccess address 1) :=
      checkBounds_of_not_inBounds hbounds
    rw [writeByte, checkBounds_of_not_inBounds hbounds, writeBlock, resulting,
      writeBlockInPlace, hcheck]
    rfl

/-- What it takes for a memory to be an array under its accessors. -/
structure IsArray (m : Memory) : Prop where
  /-- a block is written exactly when it lies in memory and its values are bytes -/
  writes_iff : ∀ address values,
    (∃ m', m.writeBlock address values = .ok m') ↔ Writable address values
  /-- what was written is read back, and nothing else has changed -/
  written : ∀ address values m', m.writeBlock address values = .ok m' →
    m.Written m' address values
  /-- a block that does not lie in memory is a fault, whatever its values are -/
  outOfBounds : ∀ (address : Int) (values : List Int),
    ¬ (0 ≤ address ∧ address + values.length ≤ 4096) →
    m.writeBlock address values = .error (.fault (.memoryAccess address values.length))
  /-- for a block in memory it is a misuse if a value is no byte -/
  notBytes : ∀ (address : Int) (values : List Int), 0 ≤ address →
    address + values.length ≤ 4096 → ¬ (∀ value ∈ values, 0 ≤ value ∧ value < 256) →
    m.writeBlock address values = .error (.misuse .notAByte)
  /-- a block that cannot be written leaves memory as it is -/
  unchanged : ∀ address values, ¬ Writable address values →
    after (writeBlockInPlace address values) m = m
  /-- a block is read byte by byte -/
  readBlock : ∀ address length : Int, 0 ≤ length → 0 ≤ address → address + length ≤ 4096 →
    ∃ bytes, m.readBlock address length = .ok bytes ∧ (bytes.length : Int) = length ∧
      ∀ (i : Nat) (hi : i < bytes.length), m.readByte (address + i) = .ok bytes[i]
  /-- a word is read from its two bytes, the first one the more significant -/
  readWord : ∀ address : Int, 0 ≤ address → address ≤ 4094 →
    ∃ high low, m.readByte address = .ok high ∧ m.readByte (address + 1) = .ok low ∧
      m.readWord address = .ok (256 * high.toNat + low.toNat)
  /-- a word that does not lie in memory is a fault -/
  noWord : ∀ address : Int, ¬ (0 ≤ address ∧ address ≤ 4094) →
    m.readWord address = .error (.memoryAccess address 2)
  /-- a byte is written like a block of one byte -/
  writeByte : ∀ address value : Int,
    (m.writeByte address value).mapError .fault = m.writeBlock address [value % 256]

/-- **Memory is an array.** For any memory, any address and any values, a block write succeeds
exactly when the block lies in memory and the values are bytes. Then the block is read back, all
other bytes are what they were, and memory has kept its size; otherwise the write is refused and
memory is what it was. Blocks and words are read as their bytes are, and a byte is written as a
block of one. -/
theorem isArray (m : Memory) : m.IsArray where
  writes_iff := fun _ _ => writeBlock_eq_ok_iff
  written := fun _ _ _ => written_of_writeBlock
  outOfBounds := fun _ _ => writeBlock_of_not_inBounds
  notBytes := fun _ _ hlow hhigh => writeBlock_of_not_bytes ⟨hlow, hhigh⟩
  unchanged := fun _ _ => after_writeBlockInPlace
  readBlock := by
    intro address length hlength hlow hhigh
    rcases m.readsExactly_of_nonneg address hlength with hfault | ⟨bytes, hread, hcount, hbytes, -⟩
    · cases hfault.symm.trans (readBlock_of_inBounds ⟨hlow, hhigh⟩)
    · exact ⟨bytes, hread, hcount, hbytes⟩
  readWord := fun _ hlow hhigh => m.readWord_eq_readByte hlow hhigh
  noWord := by
    intro address hrange
    refine readWord_of_not_inBounds fun hbounds => hrange ⟨hbounds.1, ?_⟩
    have hhigh := hbounds.2
    simp only [size] at hhigh
    omega
  writeByte := m.writeByte_eq_writeBlock

end Memory

end ChipEight
