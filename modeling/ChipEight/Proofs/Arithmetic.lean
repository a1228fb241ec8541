import ChipEight.Proofs.Grammar
import ChipEight.Proofs.Shifts

/-!
# Arithmetic and logic

What the instructions that compute from two operands leave in the byte registers, said by
arithmetic on the old values of the operands (`Instruction.Computes`). Both operands are
read before anything is written, so it makes no difference whether they are the same
register, or the flag register.

What is written last stays where the result and the flag go to the same register. That is
the result (`Registers.Results`) of sums and of the difference `Vy - Vx`, and it is the flag
(`Registers.Flags`) of the difference `Vx - Vy`. Without a flag the result is all that is
written (`Registers.Leaves`).
-/

namespace ChipEight

namespace Registers

variable {r r' : Registers} {x : Fin 16} {result flagged : Nat}

/-- A result is left in a register, and all other byte registers are as they were. -/
structure Leaves (r r' : Registers) (x : Fin 16) (result : Nat) : Prop where
  result : (r'.v.get x).toNat = result
  others : ∀ k, k ≠ x → r'.v.get k = r.v.get k

/-- A result is left in a register and a flag in the flag register, and all other byte
registers are as they were. Where the result goes to the flag register, the flag stays. -/
structure Flags (r r' : Registers) (x : Fin 16) (result flagged : Nat) : Prop where
  flagged : (r'.v.get flag).toNat = flagged
  result : x ≠ flag → (r'.v.get x).toNat = result
  others : ∀ k, k ≠ x → k ≠ flag → r'.v.get k = r.v.get k

theorem leaves_setV (r : Registers) (x : Fin 16) {value : UInt8} (hresult : value.toNat = result) :
    r.Leaves (r.setV x value).next x result := by
  have hget (k : Fin 16) : (r.setV x value).next.v.get k = if x = k then value else r.v.get k :=
    get_fill _ _ _ _
  refine ⟨?_, fun k hk => ?_⟩
  · rw [hget, if_pos rfl, hresult]
  · rw [hget, if_neg (Ne.symm hk)]

/-- The flag is written before the result. -/
theorem results_setV (r : Registers) (x : Fin 16) {value bit : UInt8}
    (hresult : value.toNat = result) (hflagged : bit.toNat = flagged) :
    r.Results ((r.setV flag bit).setV x value).next x result flagged := by
  have hget (k : Fin 16) : ((r.setV flag bit).setV x value).next.v.get k =
      if x = k then value else if flag = k then bit else r.v.get k := by
    simp only [next, setV, get_fill]
  refine ⟨?_, fun hx => ?_, fun k hk hflag => ?_⟩
  · rw [hget, if_pos rfl, hresult]
  · rw [hget, if_neg hx, if_pos rfl, hflagged]
  · rw [hget, if_neg (Ne.symm hk), if_neg (Ne.symm hflag)]

/-- The flag is written after the result. -/
theorem flags_setV (r : Registers) (x : Fin 16) {value bit : UInt8}
    (hresult : value.toNat = result) (hflagged : bit.toNat = flagged) :
    r.Flags ((r.setV x value).setV flag bit).next x result flagged := by
  have hget (k : Fin 16) : ((r.setV x value).setV flag bit).next.v.get k =
      if flag = k then bit else if x = k then value else r.v.get k := by
    simp only [next, setV, get_fill]
  refine ⟨?_, fun hx => ?_, fun k hk hflag => ?_⟩
  · rw [hget, if_pos rfl, hflagged]
  · rw [hget, if_neg (Ne.symm hx), if_pos rfl, hresult]
  · rw [hget, if_neg (Ne.symm hflag), if_neg (Ne.symm hk)]

end Registers

/-! ## Bytes as numbers -/

section Bytes

variable (a b : UInt8)

theorem toNat_sub_byte : (a - b).toNat = (((a.toNat : Int) - b.toNat) % 256).toNat := by
  have ha := a.toNat_lt
  have hb := b.toNat_lt
  rw [UInt8.toNat_sub]
  omega

theorem toNat_fitsFlag : (if a.toNat + b.toNat > 0xFF then 0 else 1 : UInt8).toNat =
    if a.toNat + b.toNat ≤ 255 then 1 else 0 := by
  by_cases h : a.toNat + b.toNat ≤ 255
  · rw [if_neg (by omega), if_pos h]
    rfl
  · rw [if_pos (by omega), if_neg h]
    rfl

theorem toNat_noBorrowFlag : (if a ≥ b then 1 else 0 : UInt8).toNat =
    if a.toNat ≥ b.toNat then 1 else 0 := by
  by_cases h : a.toNat ≥ b.toNat
  · rw [if_pos (UInt8.le_iff_toNat_le.mpr h), if_pos h]
    rfl
  · rw [if_neg (fun hle => h (UInt8.le_iff_toNat_le.mp hle)), if_neg h]
    rfl

end Bytes

/-! ## Instructions -/

/-- The opcodes that compute from the old values of two operands. -/
def Opcode.computing : List Opcode := [addByte, loadReg, or, and, xor, add, sub, subFrom]

namespace Instruction

/-- What an instruction computes from the old values `a` of `Vx` and `b` of `Vy`, and what of
it stays. -/
def Computes (ins : Instruction) (r r' : Registers) : Prop :=
  let a := (r.v.get ins.x).toNat
  let b := (r.v.get ins.y).toNat
  match ins.opcode with
  | .addByte => r.Leaves r' ins.x ((a + ins.kk.toNat) % 256)
  | .loadReg => r.Leaves r' ins.x b
  | .or => r.Leaves r' ins.x (a ||| b)
  | .and => r.Leaves r' ins.x (a &&& b)
  | .xor => r.Leaves r' ins.x (a ^^^ b)
  | .add => r.Results r' ins.x ((a + b) % 256) (if a + b ≤ 255 then 1 else 0)
  | .sub => r.Flags r' ins.x (((a : Int) - b) % 256).toNat (if a ≥ b then 1 else 0)
  | .subFrom => r.Results r' ins.x (((b : Int) - a) % 256).toNat (if b ≥ a then 1 else 0)
  | _ => False

/-- An instruction of arithmetic or logic is never refused. It changes byte registers and goes
on with the next instruction, and does nothing else. -/
theorem effect_computes {ins : Instruction} (hop : ins.opcode ∈ Opcode.computing) (byte : UInt8)
    (m : Machine) : ∃ v : Vector UInt8 16,
      let r' := { m.registers with v }.next
      ins.effect byte m = .ok (m.withRegisters r') ∧ ins.Computes m.registers r' := by
  obtain ⟨word, opcode⟩ := ins
  simp only [Opcode.computing, List.mem_cons, List.not_mem_nil, or_false] at hop
  rcases hop with rfl | rfl | rfl | rfl | rfl | rfl | rfl | rfl
  · exact ⟨_, rfl, Registers.leaves_setV _ _ (UInt8.toNat_add _ _)⟩
  · exact ⟨_, rfl, Registers.leaves_setV _ _ rfl⟩
  · exact ⟨_, rfl, Registers.leaves_setV _ _ (UInt8.toNat_or _ _)⟩
  · exact ⟨_, rfl, Registers.leaves_setV _ _ (UInt8.toNat_and _ _)⟩
  · exact ⟨_, rfl, Registers.leaves_setV _ _ (UInt8.toNat_xor _ _)⟩
  · exact ⟨_, rfl, Registers.results_setV _ _ (UInt8.toNat_add _ _) (toNat_fitsFlag _ _)⟩
  · exact ⟨_, rfl, Registers.flags_setV _ _ (toNat_sub_byte _ _) (toNat_noBorrowFlag _ _)⟩
  · exact ⟨_, rfl, Registers.results_setV _ _ (toNat_sub_byte _ _) (toNat_noBorrowFlag _ _)⟩

end Instruction

namespace Processor

variable {p : Processor}

/-- **Arithmetic and logic.** A processor that can be reached is at an instruction of
arithmetic or logic. It is executed and leaves in the byte registers what it computes from
their old values, whichever registers its operands are. Beside the byte registers it changes
the program counter only, which goes on to the next instruction. -/
theorem Reachable.step_computes (h : Reachable p) (hpc : p.machine.registers.pc ≤ 4094)
    {op : Opcode} (hop : op ∈ Opcode.computing) (hform : op.HasForm p.machine.word) :
    let ins : Instruction := ⟨p.machine.word, op⟩
    ∃ q, step p = .ok (some ins) q ∧ ins.Computes p.machine.registers q.machine.registers ∧
      q.machine = p.machine.withRegisters
        { p.machine.registers with v := q.machine.registers.v }.next := by
  intro ins
  have hne : op ≠ .sys := by
    rintro rfl
    exact absurd hop (by decide)
  have hup := Machine.upcoming_of_hasForm h.bounded.registers.pc_nonneg hpc hne hform
  have hins : ins.opcode ∈ Opcode.computing := hop
  obtain ⟨v, heffect, hcomputes⟩ := Instruction.effect_computes hins p.draws.next p.machine
  obtain ⟨hstep, hmachine⟩ := step_of_effect hup heffect
  refine ⟨_, hstep, ?_, ?_⟩
  · rw [hmachine]
    exact hcomputes
  · rw [hmachine]
    rfl

/-- The difference `VF - V1` of 200 and 100 leaves its flag in `VF`, not 100. Then the
difference `VF - V1` of 1 and 100 is left in `V1`, and its flag is taken from the old `VF`. -/
theorem step_computes_on_flag :
    let machine : Machine :=
      { Machine.initial with
        memory := Machine.initial.memory.store Memory.programStart
          [0x61, 0x64, 0x6F, 0xC8, 0x8F, 0x15, 0x81, 0xF7] }
    let p : Processor :=
      actAll (.ofMachine machine (.ofSource fun _ => 0) (.new false)) [.step, .step]
    Reachable p ∧
    (∃ q, step p = .ok (some ⟨0x8F15, .sub⟩) q ∧
      (q.machine.registers.v.get Registers.flag).toNat = 1) ∧
    ∃ q, step (p.act .step) = .ok (some ⟨0x81F7, .subFrom⟩) q ∧
      (q.machine.registers.v.get 1).toNat = 157 ∧
      (q.machine.registers.v.get Registers.flag).toNat = 0 := by
  intro machine p
  have hreachable : Reachable p :=
    (Reachable.start (Machine.ofProgram_of_le (by decide)) _ _).actAll [.step, .step]
  -- the facts are computed together, for the machine is the same in all of them
  obtain ⟨hpc, hword, ha, hb, hpc', hword', ha', hb'⟩ :
      p.machine.registers.pc ≤ 4094 ∧ p.machine.word = 0x8F15 ∧
      p.machine.registers.v.get 15 = 200 ∧ p.machine.registers.v.get 1 = 100 ∧
      (p.act .step).machine.registers.pc ≤ 4094 ∧ (p.act .step).machine.word = 0x81F7 ∧
      (p.act .step).machine.registers.v.get 1 = 100 ∧
      (p.act .step).machine.registers.v.get 15 = 1 := by
    decide +kernel
  have hform : Opcode.sub.HasForm p.machine.word := by simp [hword, Opcode.HasForm]
  have hform' : Opcode.subFrom.HasForm (p.act .step).machine.word := by
    simp [hword', Opcode.HasForm]
  obtain ⟨q, hstep, hsub, -⟩ := hreachable.step_computes hpc (by decide) hform
  obtain ⟨q', hstep', hsubFrom, -⟩ := (hreachable.act .step).step_computes hpc' (by decide) hform'
  rw [hword] at hstep hsub
  rw [hword'] at hstep' hsubFrom
  -- the digits of the words are the operands
  obtain ⟨hflag, -, -⟩ : p.machine.registers.Flags q.machine.registers 15 _
      (if (p.machine.registers.v.get 15).toNat ≥ (p.machine.registers.v.get 1).toNat then 1
        else 0) := hsub
  obtain ⟨hresult, hflag', -⟩ : (p.act .step).machine.registers.Results q'.machine.registers 1
      ((((p.act .step).machine.registers.v.get 15).toNat -
        ((p.act .step).machine.registers.v.get 1).toNat : Int) % 256).toNat
      (if ((p.act .step).machine.registers.v.get 15).toNat ≥
        ((p.act .step).machine.registers.v.get 1).toNat then 1 else 0) := hsubFrom
  rw [ha, hb] at hflag
  rw [ha', hb'] at hresult hflag'
  exact ⟨hreachable, ⟨q, hstep, hflag⟩, q', hstep', hresult, hflag' (by decide)⟩

end Processor

end ChipEight
