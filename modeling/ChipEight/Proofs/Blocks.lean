import ChipEight.Proofs.Memory

/-!
# Reading blocks

A block read is decided by one test of bounds, and the test is made of two inequalities for
any address and any length. For a length that is not negative they say that the block lies
in memory. The read is then exact (`Memory.ReadsExactly`): it faults, or it gives the bytes
that were asked for, all of them and no others.

A negative length passes the test as well, wherever the block would start, as long as its end
is not above the end of memory. The read does not fault then, and it cannot give what was
asked for, since there is no block of such a length. It gives nothing, unless the end is below
zero. There the end counts from the end of memory, and what is given are the bytes up to it.
So a block read is exact except in these cases (`Memory.readBlock_exact_iff`).
-/

namespace ChipEight

namespace Memory

variable {m : Memory} {address length : Int}

/-- A block read faults with its address and its length, or it gives as many bytes as were
asked for, each of them the one that is read at its address, and all of them lie in memory. -/
def ReadsExactly (m : Memory) (address length : Int) : Prop :=
  m.readBlock address length = .error (.memoryAccess address length) ∨
    ∃ bytes, m.readBlock address length = .ok bytes ∧ (bytes.length : Int) = length ∧
      (∀ (i : Nat) (hi : i < bytes.length), m.readByte (address + i) = .ok bytes[i]) ∧
      0 ≤ address ∧ address + length ≤ 4096

/-- A block of bytes in memory holds what is read at their addresses. -/
theorem readByte_bytesAt {start count : Nat} (h : start + count ≤ 4096) (i : Nat)
    (hi : i < (m.bytesAt start count).length) :
    m.readByte (start + i : Int) = .ok (m.bytesAt start count)[i] := by
  rw [length_bytesAt] at hi
  have hbounds : InBounds (start + i : Int) 1 := ⟨by omega, by simp only [size]; omega⟩
  have hplace : (start + i : Int).toNat = start + i := by omega
  rw [readByte_of_inBounds hbounds, hplace]
  simp only [bytesAt, List.getElem_map, List.getElem_range]

/-- A read of a length that is not negative is exact. -/
theorem readsExactly_of_nonneg (m : Memory) (address : Int) (hlength : 0 ≤ length) :
    m.ReadsExactly address length := by
  obtain ⟨count, rfl⟩ := Int.eq_ofNat_of_zero_le hlength
  by_cases hbounds : InBounds address count
  · obtain ⟨hlow, hhigh⟩ := hbounds
    obtain ⟨start, rfl⟩ := Int.eq_ofNat_of_zero_le hlow
    simp only [size] at hhigh
    have hfits : start + count ≤ 4096 := by omega
    refine .inr ⟨_, readBlock_eq_bytesAt hfits, ?_, readByte_bytesAt hfits, hlow, hhigh⟩
    rw [length_bytesAt]
  · exact .inl (readBlock_of_not_inBounds hbounds)

/-- What is given for a negative length that passes the test. -/
theorem readBlock_of_neg (m : Memory) (hbounds : InBounds address length) (hlength : length < 0) :
    m.readBlock address length =
      .ok (if 0 ≤ address + length then [] else m.bytesAt address.toNat (4096 + length).toNat) := by
  obtain ⟨hlow, hhigh⟩ := hbounds
  simp only [size] at hhigh
  have hstop : blockEnd address length ≤ 4096 := by
    simp only [blockEnd, size]
    split
    · omega
    · omega
  rw [readBlock_of_inBounds ⟨hlow, hhigh⟩, slice_eq_bytesAt m hstop]
  refine congrArg Except.ok ?_
  by_cases hend : 0 ≤ address + length
  · have hnone : blockEnd address length - address.toNat = 0 := by
      rw [blockEnd, if_neg (by omega)]
      omega
    rw [if_pos hend, hnone]
    rfl
  · have hcount : blockEnd address length - address.toNat = (4096 + length).toNat := by
      simp only [blockEnd, size]
      rw [if_pos (by omega)]
      omega
    rw [if_neg hend, hcount]

/-- A read of a negative length that passes the test is not exact. -/
theorem not_readsExactly_of_neg (m : Memory) (hbounds : InBounds address length)
    (hlength : length < 0) : ¬ m.ReadsExactly address length := by
  have hread := m.readBlock_of_neg hbounds hlength
  rintro (hfault | ⟨bytes, -, hcount, -⟩)
  · cases hfault.symm.trans hread
  · omega

/-- **When a block read is exact.** For any address and any length a block read faults just when
the address is negative or the end is above the end of memory. It is exact except for the
negative lengths for which it does not fault. For these it gives nothing, or, when the end is
below zero, the bytes from the address up to that end, counted from the end of memory. -/
theorem readBlock_exact_iff (m : Memory) (address length : Int) :
    (m.readBlock address length = .error (.memoryAccess address length) ↔
      ¬ (0 ≤ address ∧ address + length ≤ 4096)) ∧
    (m.ReadsExactly address length ↔
      ¬ (length < 0 ∧ 0 ≤ address ∧ address + length ≤ 4096)) ∧
    (length < 0 → 0 ≤ address → address + length ≤ 4096 →
      m.readBlock address length =
        .ok (if 0 ≤ address + length then []
          else m.bytesAt address.toNat (4096 + length).toNat)) := by
  refine ⟨⟨fun hfault hbounds => ?_, readBlock_of_not_inBounds⟩, ⟨?_, fun hrange => ?_⟩,
    fun hlength hlow hhigh => m.readBlock_of_neg ⟨hlow, hhigh⟩ hlength⟩
  · cases hfault.symm.trans (readBlock_of_inBounds hbounds)
  · rintro hexact ⟨hlength, hbounds⟩
    exact m.not_readsExactly_of_neg hbounds hlength hexact
  · by_cases hlength : 0 ≤ length
    · exact m.readsExactly_of_nonneg address hlength
    · exact .inl (readBlock_of_not_inBounds fun hbounds => hrange ⟨by omega, hbounds⟩)

/-- All of memory but its last byte is given for a length of minus one, and no fault is raised
for an address behind the end of memory. -/
theorem readBlock_negative_length :
    (∃ bytes, blank.readBlock 0 (-1) = .ok bytes ∧ bytes.length = 4095) ∧
    ¬ blank.ReadsExactly 0 (-1) ∧
    blank.readBlock 5000 (-1000) = .ok [] ∧ ¬ blank.ReadsExactly 5000 (-1000) := by
  have hstart : InBounds 0 (-1) := by decide
  have hbehind : InBounds 5000 (-1000) := by decide
  refine ⟨⟨_, blank.readBlock_of_neg hstart (by decide), ?_⟩,
    blank.not_readsExactly_of_neg hstart (by decide),
    blank.readBlock_of_neg hbehind (by decide),
    blank.not_readsExactly_of_neg hbehind (by decide)⟩
  exact length_bytesAt _ _ _

end Memory

end ChipEight
