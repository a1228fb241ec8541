import ChipEight.Memory

/-!
# Memory as a list of bytes

Every access to memory is decided by one test of bounds, so each accessor has one
equation: the test, what it gives, and the fault. What a write does is said on
the list of all bytes: it replaces a part of the list by a part of the same
length (`Memory.toList_store`), so that memory never grows or shrinks.
-/

namespace ChipEight

namespace Memory

variable {m : Memory} {address length : Int}

/-! ## The accessors, by the test of bounds -/

theorem checkBounds_of_inBounds (h : InBounds address length) :
    checkBounds address length = .ok () := by
  rw [checkBounds, if_pos h]

theorem checkBounds_of_not_inBounds (h : ¬ InBounds address length) :
    checkBounds address length = .error (.memoryAccess address length) := by
  rw [checkBounds, if_neg h]

/-- The number that the two bytes at an address make, the first one the more
significant. -/
def wordAt (m : Memory) (address : Nat) : Nat :=
  (m.byteAt address).toNat * 256 + (m.byteAt (address + 1)).toNat

theorem wordAt_lt (m : Memory) (address : Nat) : m.wordAt address < 0x10000 := by
  have h₁ := (m.byteAt address).toNat_lt
  have h₂ := (m.byteAt (address + 1)).toNat_lt
  rw [wordAt]
  omega

theorem readWord_of_inBounds (h : InBounds address 2) :
    m.readWord address = .ok (m.wordAt address.toNat) := by
  rw [readWord, checkBounds_of_inBounds h]
  rfl

theorem readWord_of_not_inBounds (h : ¬ InBounds address 2) :
    m.readWord address = .error (.memoryAccess address 2) := by
  rw [readWord, checkBounds_of_not_inBounds h]
  rfl

theorem readByte_of_inBounds (h : InBounds address 1) :
    m.readByte address = .ok (m.byteAt address.toNat) := by
  rw [readByte, checkBounds_of_inBounds h]
  rfl

theorem readByte_of_not_inBounds (h : ¬ InBounds address 1) :
    m.readByte address = .error (.memoryAccess address 1) := by
  rw [readByte, checkBounds_of_not_inBounds h]
  rfl

theorem readBlock_of_inBounds (h : InBounds address length) :
    m.readBlock address length = .ok (m.slice address.toNat (blockEnd address length)) := by
  rw [readBlock, checkBounds_of_inBounds h]
  rfl

theorem readBlock_of_not_inBounds (h : ¬ InBounds address length) :
    m.readBlock address length = .error (.memoryAccess address length) := by
  rw [readBlock, checkBounds_of_not_inBounds h]
  rfl

/-- The bytes at an address and at the following ones. -/
def bytesAt (m : Memory) (start length : Nat) : List UInt8 :=
  (List.range length).map fun k => m.byteAt (start + k)

theorem length_bytesAt (m : Memory) (start length : Nat) :
    (m.bytesAt start length).length = length := by
  rw [bytesAt, List.length_map, List.length_range]

/-- A slice of memory holds the bytes at its addresses. -/
theorem slice_eq_bytesAt (m : Memory) {start stop : Nat} (h : stop ≤ 4096) :
    m.slice start stop = m.bytesAt start (stop - start) := by
  refine List.ext_getElem ?_ fun k _ hk => ?_
  · rw [length_bytesAt]
    simp [slice]
    omega
  · rw [length_bytesAt] at hk
    have hbyte : m.byteAt (start + k) = m.bytes[start + k] := by
      rw [byteAt, Vector.getElem?_eq_getElem (by omega), Option.getD_some]
    simp [slice, bytesAt, hbyte]

/-- A block in bounds is read byte by byte. -/
theorem readBlock_eq_bytesAt {start length : Nat} (h : start + length ≤ 4096) :
    m.readBlock start length = .ok (m.bytesAt start length) := by
  have hbounds : InBounds start length := ⟨by omega, by simp only [size]; omega⟩
  have hend : blockEnd start length = start + length := by
    rw [blockEnd, if_neg (by omega)]
    omega
  rw [readBlock_of_inBounds hbounds, hend, Int.toNat_natCast, slice_eq_bytesAt m h,
    Nat.add_sub_cancel_left]

/-- A block that was read lies in memory, and was read byte by byte. -/
theorem of_readBlock_eq_ok {length : Nat} {bytes : List UInt8}
    (h : m.readBlock address length = .ok bytes) :
    ∃ start : Nat, address = start ∧ start + length ≤ 4096 ∧ bytes = m.bytesAt start length := by
  by_cases hbounds : InBounds address length
  · obtain ⟨hlow, hhigh⟩ := hbounds
    simp only [size] at hhigh
    obtain ⟨start, rfl⟩ := Int.eq_ofNat_of_zero_le hlow
    have hfits : start + length ≤ 4096 := by omega
    exact ⟨start, rfl, hfits, Except.ok.inj (h.symm.trans (readBlock_eq_bytesAt hfits))⟩
  · rw [readBlock_of_not_inBounds hbounds] at h
    cases h

theorem writeBytes_of_inBounds {values : List UInt8} (h : InBounds address values.length) :
    m.writeBytes address values = .ok (m.store address.toNat values) := by
  rw [writeBytes, checkBounds_of_inBounds h]
  rfl

theorem writeBytes_of_not_inBounds {values : List UInt8}
    (h : ¬ InBounds address values.length) :
    m.writeBytes address values = .error (.memoryAccess address values.length) := by
  rw [writeBytes, checkBounds_of_not_inBounds h]
  rfl

/-! ## Blocks keep their length -/

@[simp] theorem length_toList (m : Memory) : m.bytes.toList.length = 4096 :=
  Vector.length_toList

/-- A block that was read is as long as was asked. -/
theorem length_readBlock {bytes : List UInt8} (hlength : 0 ≤ length)
    (h : m.readBlock address length = .ok bytes) : (bytes.length : Int) = length := by
  obtain ⟨count, rfl⟩ := Int.eq_ofNat_of_zero_le hlength
  obtain ⟨start, -, -, rfl⟩ := of_readBlock_eq_ok h
  rw [length_bytesAt]

/-- Storing a block replaces a part of the bytes by a part of the same length. -/
theorem toList_store (m : Memory) {start : Nat} {values : List UInt8}
    (h : start + values.length ≤ 4096) :
    (m.store start values).bytes.toList =
      m.bytes.toList.take start ++ values ++ m.bytes.toList.drop (start + values.length) := by
  -- the first byte is stored before the rest, so it moves over to the part in front of it
  induction values generalizing m start with
  | nil => simp [store]
  | cons value rest ih =>
    rw [List.length_cons] at h
    have hlt : start < m.bytes.toList.length := by
      rw [length_toList]
      omega
    have hstop : start + 1 + rest.length = start + (value :: rest).length := by
      rw [List.length_cons]
      omega
    rw [store, ih _ (by omega), Vector.toList_setIfInBounds, List.drop_set_of_lt (by omega),
      List.take_succ_eq_append_getElem (by rw [List.length_set]; exact hlt),
      List.take_set_of_le (Nat.le_refl start), List.getElem_set_self, hstop]
    simp only [List.append_assoc, List.cons_append, List.nil_append]

/-- What a write in bounds makes of the bytes. -/
theorem toList_of_writeBytes {m' : Memory} {values : List UInt8}
    (h : m.writeBytes address values = .ok m') :
    m'.bytes.toList = m.bytes.toList.take address.toNat ++ values ++
      m.bytes.toList.drop (address.toNat + values.length) := by
  by_cases hbounds : InBounds address values.length
  · rw [writeBytes_of_inBounds hbounds] at h
    obtain rfl := Except.ok.inj h
    obtain ⟨hlow, hhigh⟩ := hbounds
    simp only [size] at hhigh
    exact toList_store m (by omega)
  · rw [writeBytes_of_not_inBounds hbounds] at h
    cases h

/-- The bytes after a block was stored: those of the block where it lies, and the
old ones elsewhere. -/
theorem byteAt_store (m : Memory) {start : Nat} {values : List UInt8}
    (h : start + values.length ≤ 4096) (address : Nat) :
    (m.store start values).byteAt address =
      if start ≤ address ∧ address < start + values.length then
        values[address - start]?.getD 0
      else m.byteAt address := by
  have hlength := m.length_toList
  simp only [byteAt, ← Vector.getElem?_toList, toList_store m h]
  by_cases hbefore : address < start
  · rw [if_neg (by omega), List.append_assoc, List.getElem?_append_left (by simp; omega),
      List.getElem?_take_of_lt hbefore]
  by_cases hinside : address < start + values.length
  · rw [if_pos (by omega), List.append_assoc, List.getElem?_append_right (by simp; omega),
      List.getElem?_append_left (by simp; omega), List.length_take, hlength,
      Nat.min_eq_left (by omega)]
  · rw [if_neg (by omega), List.getElem?_append_right (by simp; omega), List.getElem?_drop]
    congr 2
    simp
    omega

/-- The bytes after a write in bounds. -/
theorem byteAt_of_writeBytes {m' : Memory} {values : List UInt8}
    (h : m.writeBytes address values = .ok m') :
    ∃ start : Nat, address = start ∧ start + values.length ≤ 4096 ∧ ∀ place, m'.byteAt place =
      if start ≤ place ∧ place < start + values.length then values[place - start]?.getD 0
      else m.byteAt place := by
  by_cases hbounds : InBounds address values.length
  · rw [writeBytes_of_inBounds hbounds] at h
    obtain rfl := Except.ok.inj h
    obtain ⟨hlow, hhigh⟩ := hbounds
    simp only [size] at hhigh
    have hfits : address.toNat + values.length ≤ 4096 := by omega
    exact ⟨address.toNat, by omega, hfits, m.byteAt_store hfits⟩
  · rw [writeBytes_of_not_inBounds hbounds] at h
    cases h

/-- The word at the start of a block that was stored. -/
theorem wordAt_store (m : Memory) {start : Nat} {high low : UInt8} {rest : List UInt8}
    (h : start + (high :: low :: rest).length ≤ 4096) :
    (m.store start (high :: low :: rest)).wordAt start = high.toNat * 256 + low.toNat := by
  simp only [List.length_cons] at h
  rw [wordAt, byteAt_store m (by simp only [List.length_cons]; omega),
    byteAt_store m (by simp only [List.length_cons]; omega),
    if_pos (by simp only [List.length_cons]; omega),
    if_pos (by simp only [List.length_cons]; omega), Nat.sub_self, Nat.add_sub_cancel_left]
  rfl

/-- A program image that fits is loaded. -/
theorem load_of_le (m : Memory) {program : List UInt8} (h : program.length ≤ programLimit) :
    m.load program = .ok (m.store programStart program) := by
  rw [load, resulting, loadInPlace, if_neg (Nat.not_lt.mpr h)]
  rfl

end Memory

end ChipEight
