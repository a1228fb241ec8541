import Mathlib.Data.Nat.Bitwise
import ChipEight.Proofs.Calls
import ChipEight.Proofs.Refusal

/-!
# Shifts

An instruction of arithmetic leaves a result in a register and a flag in the flag register
(`Registers.Results`). Where the two are the same register only one of them stays.

A shift writes the flag first and then reads the register once more, so its result is that
of the register itself only where this is another register than the flag register. On the
flag register the bit that was put there is shifted out again, and zero is what stays. So
the law of shifts, that the old value is what is shifted, holds under a condition
(`Processor.Reachable.step_shift_iff`).
-/

namespace ChipEight

namespace Registers

variable {r r' : Registers} {x : Fin 16} {result flagged : Nat}

/-- A result is left in a register and a flag in the flag register, and all other byte
registers are as they were. Where the result goes to the flag register, it stays. -/
structure Results (r r' : Registers) (x : Fin 16) (result flagged : Nat) : Prop where
  result : (r'.v.get x).toNat = result
  flagged : x ≠ flag → (r'.v.get flag).toNat = flagged
  others : ∀ k, k ≠ x → k ≠ flag → r'.v.get k = r.v.get k

/-- The registers after a shift: the bit that is moved out is put into the flag register,
and then the register is read once more and shifted. -/
def shifted (r : Registers) (x : Fin 16) (bit shift : UInt8 → UInt8) : Registers :=
  let r := r.setV flag (bit (r.v.get x))
  r.setV x (shift (r.v.get x))

/-- A shift that would shift the flag to zero leaves zero in the flag register. -/
theorem results_shifted (r : Registers) (x : Fin 16) (bit shift : UInt8 → UInt8)
    (hlost : ∀ value, shift (bit value) = 0) :
    r.Results (r.shifted x bit shift) x
      (if x = flag then 0 else (shift (r.v.get x)).toNat) (bit (r.v.get x)).toNat := by
  have hget (k : Fin 16) : (r.shifted x bit shift).v.get k =
      if x = k then shift (if flag = x then bit (r.v.get x) else r.v.get x)
      else if flag = k then bit (r.v.get x) else r.v.get k := by
    simp only [shifted, setV, get_fill]
  refine ⟨?_, fun hx => ?_, fun k hk hflag => ?_⟩
  · rw [hget, if_pos rfl]
    by_cases hx : x = flag
    · rw [if_pos hx.symm, hlost, if_pos hx]
      rfl
    · rw [if_neg (Ne.symm hx), if_neg hx]
  · rw [hget, if_neg hx, if_pos rfl]
  · rw [hget, if_neg (Ne.symm hk), if_neg (Ne.symm hflag)]

/-- Where zero is left in place of a result for the flag register, the result is as it should
be for all other registers, and where it is zero. -/
theorem Results.result_iff (h : r.Results r' x (if x = flag then 0 else result) flagged) :
    r.Results r' x result flagged ↔ x ≠ flag ∨ result = 0 := by
  have hleft := h.result
  by_cases hx : x = flag
  · rw [if_pos hx] at hleft h
    constructor
    · intro hresults
      exact .inr (hresults.result.symm.trans hleft)
    · rintro (hne | rfl)
      · exact absurd hx hne
      · exact h
  · rw [if_neg hx] at h
    exact ⟨fun _ => .inl hx, fun _ => h⟩

end Registers

/-! ## The two directions -/

theorem Opcode.admits_shiftRight_iff {w : Nat} (hw : w < 0x10000) :
    shiftRight.Admits w ↔ w / 0x1000 = 0x8 ∧ w % 0x10 = 0x6 :=
  admits_iff_hasForm hw

theorem Opcode.admits_shiftLeft_iff {w : Nat} (hw : w < 0x10000) :
    shiftLeft.Admits w ↔ w / 0x1000 = 0x8 ∧ w % 0x10 = 0xE :=
  admits_iff_hasForm hw

section Bytes

variable (value : UInt8)

theorem toNat_shiftRight_one : (value >>> 1).toNat = value.toNat / 2 := by
  rw [UInt8.toNat_shiftRight]
  rfl

theorem toNat_shiftLeft_one : (value <<< 1).toNat = 2 * value.toNat % 256 := by
  rw [UInt8.toNat_shiftLeft, Nat.mul_comm]
  show value.toNat <<< 1 % 256 = _
  rw [Nat.shiftLeft_eq]

theorem toNat_and_lowBit : (value &&& 1).toNat = value.toNat % 2 := by
  rw [UInt8.toNat_and]
  exact Nat.and_one_is_mod _

theorem toNat_and_highBit : (value &&& 0x80).toNat = value.toNat &&& 0x80 := UInt8.toNat_and _ _

/-- The bit that a shift to the right moves out is lost when it is shifted. -/
theorem lowBit_shiftRight : (value &&& 1) >>> 1 = 0 := by
  refine UInt8.toNat_inj.mp ?_
  rw [toNat_shiftRight_one, toNat_and_lowBit]
  show value.toNat % 2 / 2 = 0
  omega

/-- The bit that a shift to the left moves out is lost when it is shifted. -/
theorem highBit_shiftLeft : (value &&& 0x80) <<< 1 = 0 := by
  refine UInt8.toNat_inj.mp ?_
  have hbit : value.toNat &&& 0x80 = (value.toNat.testBit 7).toNat * 2 ^ 7 := Nat.and_two_pow _ 7
  rw [toNat_shiftLeft_one, toNat_and_highBit, hbit]
  show 2 * ((value.toNat.testBit 7).toNat * 2 ^ 7) % 256 = 0
  omega

end Bytes

theorem Registers.results_shiftedRight (r : Registers) (x : Fin 16) :
    r.Results (r.shifted x (· &&& 1) (· >>> 1)) x
      (if x = flag then 0 else (r.v.get x).toNat / 2) ((r.v.get x).toNat % 2) := by
  have h := r.results_shifted x (· &&& 1) (· >>> 1) lowBit_shiftRight
  rwa [toNat_shiftRight_one, toNat_and_lowBit] at h

theorem Registers.results_shiftedLeft (r : Registers) (x : Fin 16) :
    r.Results (r.shifted x (· &&& 0x80) (· <<< 1)) x
      (if x = flag then 0 else 2 * (r.v.get x).toNat % 256) ((r.v.get x).toNat &&& 0x80) := by
  have h := r.results_shifted x (· &&& 0x80) (· <<< 1) highBit_shiftLeft
  rwa [toNat_shiftLeft_one, toNat_and_highBit] at h

namespace Processor

variable {p : Processor}

/-- Executing a shift leaves its result and its flag, or zero in the flag register. -/
theorem step_of_shift {op : Opcode} {x : Fin 16} {bit shift : UInt8 → UInt8} {result flagged : Nat}
    (hup : p.machine.upcoming = .ok (some ⟨p.machine.word, op⟩))
    (heffect : Instruction.effect ⟨p.machine.word, op⟩ p.draws.next p.machine =
      .ok (p.machine.withRegisters (p.machine.registers.shifted x bit shift).next))
    (hresults : p.machine.registers.Results (p.machine.registers.shifted x bit shift) x
      (if x = Registers.flag then 0 else result) flagged) :
    ∃ q, step p = .ok (some ⟨p.machine.word, op⟩) q ∧
      (p.machine.registers.Results q.machine.registers x result flagged ↔
        x ≠ Registers.flag ∨ result = 0) ∧
      (x = Registers.flag → p.machine.registers.Results q.machine.registers x 0 flagged) := by
  obtain ⟨hstep, hmachine⟩ := step_of_effect hup heffect
  have hleft : p.machine.registers.Results (p.act .step).machine.registers x
      (if x = Registers.flag then 0 else result) flagged := by
    rw [hmachine]
    exact ⟨hresults.result, hresults.flagged, hresults.others⟩
  refine ⟨_, hstep, hleft.result_iff, fun hx => ?_⟩
  rwa [if_pos hx] at hleft

/-- **When a shift leaves the old value shifted.** A processor that can be reached is at a
shift. It is executed, and the other operand is not looked at. Half of the old value is left
and the low bit is the flag, or twice the old value in a byte and the high bit in its place,
in any register but the flag register. There zero is what stays, whatever was in it, and so
the law of the other registers holds there just when zero is the right result. -/
theorem Reachable.step_shift_iff (h : Reachable p) (hpc : p.machine.registers.pc ≤ 4094)
    (hword : p.machine.word / 0x1000 = 0x8) :
    let r := p.machine.registers
    let x := wordDigit p.machine.word 2
    let old := (r.v.get x).toNat
    (p.machine.word % 0x10 = 0x6 → ∃ q, step p = .ok (some ⟨p.machine.word, .shiftRight⟩) q ∧
      (r.Results q.machine.registers x (old / 2) (old % 2) ↔
        x ≠ Registers.flag ∨ old / 2 = 0) ∧
      (x = Registers.flag → r.Results q.machine.registers x 0 (old % 2))) ∧
    (p.machine.word % 0x10 = 0xE → ∃ q, step p = .ok (some ⟨p.machine.word, .shiftLeft⟩) q ∧
      (r.Results q.machine.registers x (2 * old % 256) (old &&& 0x80) ↔
        x ≠ Registers.flag ∨ 2 * old % 256 = 0) ∧
      (x = Registers.flag → r.Results q.machine.registers x 0 (old &&& 0x80))) := by
  intro r x old
  have hlow := h.bounded.registers.pc_nonneg
  have hne : p.machine.word ≠ 0 := by omega
  constructor
  · intro hdigit
    have hadmits := (Opcode.admits_shiftRight_iff p.machine.word_lt).mpr ⟨hword, hdigit⟩
    exact step_of_shift (Machine.upcoming_of_admits hlow hpc hne hadmits) rfl
      (r.results_shiftedRight x)
  · intro hdigit
    have hadmits := (Opcode.admits_shiftLeft_iff p.machine.word_lt).mpr ⟨hword, hdigit⟩
    exact step_of_shift (Machine.upcoming_of_admits hlow hpc hne hadmits) rfl
      (r.results_shiftedLeft x)

/-- A shift to the left of `0x81` leaves two and the high bit. -/
theorem step_shift_left :
    let machine : Machine :=
      { Machine.initial with
        memory := Machine.initial.memory.store Memory.programStart [0x61, 0x81, 0x81, 0x2E] }
    let p : Processor := act (.ofMachine machine (.ofSource fun _ => 0) (.new false)) .step
    Reachable p ∧ ∃ q, step p = .ok (some ⟨0x812E, .shiftLeft⟩) q ∧
      (q.machine.registers.v.get 1).toNat = 0x02 ∧
      (q.machine.registers.v.get Registers.flag).toNat = 0x80 := by
  intro machine p
  have hreachable : Reachable p := .act (.start (Machine.ofProgram_of_le (by decide)) _ _) .step
  -- the facts are computed together, for the machine is the same in all of them
  obtain ⟨hpc, hword, hold⟩ : p.machine.registers.pc ≤ 4094 ∧ p.machine.word = 0x812E ∧
      p.machine.registers.v.get 1 = 0x81 := by
    decide +kernel
  obtain ⟨-, hleft⟩ := hreachable.step_shift_iff hpc (by rw [hword])
  rw [hword] at hleft
  obtain ⟨q, hstep, hresults, -⟩ := hleft rfl
  have hshifted := hresults.mpr (.inl (by decide))
  have hone : wordDigit (0x812E : Nat) 2 = 1 := rfl
  rw [hone, hold] at hshifted
  exact ⟨hreachable, q, hstep, hshifted.result, hshifted.flagged (by decide)⟩

/-- In the flag register neither half of two nor twice three is left. -/
theorem step_shift_flag_lost :
    let machine : Machine :=
      { Machine.initial with
        memory := Machine.initial.memory.store Memory.programStart
          [0x6F, 0x02, 0x8F, 0x06, 0x6F, 0x03, 0x8F, 0x0E] }
    let right : Processor := act (.ofMachine machine (.ofSource fun _ => 0) (.new false)) .step
    let left : Processor := right.actAll [.step, .step]
    (Reachable right ∧ right.machine.registers.v.get Registers.flag = 2 ∧
      ∃ q, step right = .ok (some ⟨0x8F06, .shiftRight⟩) q ∧
        ¬ right.machine.registers.Results q.machine.registers Registers.flag (2 / 2) (2 % 2)) ∧
    (Reachable left ∧ left.machine.registers.v.get Registers.flag = 3 ∧
      ∃ q, step left = .ok (some ⟨0x8F0E, .shiftLeft⟩) q ∧
        ¬ left.machine.registers.Results q.machine.registers Registers.flag
          (2 * 3 % 256) (3 &&& 0x80)) := by
  intro machine right left
  have hload : Machine.ofProgram [0x6F, 0x02, 0x8F, 0x06, 0x6F, 0x03, 0x8F, 0x0E] = .ok machine :=
    Machine.ofProgram_of_le (by decide)
  have hright : Reachable right := (Reachable.start hload _ _).act .step
  have hleft : Reachable left := hright.actAll [.step, .step]
  obtain ⟨htwo, hdone, hlost⟩ : right.machine.registers.v.get Registers.flag = 2 ∧
      right.completedBy .step = some ⟨0x8F06, .shiftRight⟩ ∧
      ((right.act .step).machine.registers.v.get Registers.flag).toNat = 0 := by
    decide +kernel
  obtain ⟨hthree, hdone', hlost'⟩ : left.machine.registers.v.get Registers.flag = 3 ∧
      left.completedBy .step = some ⟨0x8F0E, .shiftLeft⟩ ∧
      ((left.act .step).machine.registers.v.get Registers.flag).toNat = 0 := by
    decide +kernel
  refine ⟨⟨hright, htwo, _, step_of_completedBy hdone, fun hresults => ?_⟩,
    hleft, hthree, _, step_of_completedBy hdone', fun hresults => ?_⟩
  · exact absurd (hresults.result.symm.trans hlost) (by decide)
  · exact absurd (hresults.result.symm.trans hlost') (by decide)

end Processor

end ChipEight
