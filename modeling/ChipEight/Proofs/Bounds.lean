import ChipEight.Proofs.Action
import ChipEight.Proofs.Memory

/-!
# The machine stays in range

The numbers of a machine that are not bounded by their types are the address
register, the program counter, the slots of the call stack and the register that
a wait is for. `Machine.Bounded` bounds them. The bounds hang together: a slot is
at most `0xFFE` because a word could be fetched where the call was, a return
leaves the program counter at most two behind a slot, a jump with an offset
leaves it at most a byte above twelve bits, and every other instruction moves it
by at most four from where a word could be fetched.
-/

namespace ChipEight

/-- The address register, the program counter and the slots are in range. -/
structure Registers.Bounded (r : Registers) : Prop where
  i_nonneg : 0 ≤ r.i
  i_le : r.i ≤ 0xFFFF
  pc_nonneg : 0 ≤ r.pc
  pc_le : r.pc ≤ 0x10FE
  slot_le : ∀ k : Fin 16, (r.stack.slots.get k).toNat ≤ 0xFFE

/-- All numbers of a machine are in range that its types do not bound. -/
structure Machine.Bounded (m : Machine) : Prop where
  registers : m.registers.Bounded
  register_nonneg : 0 ≤ m.keypad.register
  register_le : m.keypad.register ≤ 15

/-! ## Changes of the registers -/

namespace Registers.Bounded

variable {r r' : Registers} {address : UInt16}

theorem initial : Registers.initial.Bounded := by
  have hslot (k : Fin 16) : ((Vector.replicate 16 (0 : UInt16)).get k).toNat ≤ 0xFFE := by
    rw [get_eq_getElem]
    simp
  exact ⟨by decide, by decide, by decide, by decide, hslot⟩

theorem withV (h : r.Bounded) (v : Vector UInt8 16) : Registers.Bounded { r with v } :=
  ⟨h.i_nonneg, h.i_le, h.pc_nonneg, h.pc_le, h.slot_le⟩

theorem setV (h : r.Bounded) (k : Fin 16) (value : UInt8) : (r.setV k value).Bounded :=
  h.withV _

theorem loadV (h : r.Bounded) (bytes : List UInt8) : (r.loadV bytes).Bounded := by
  rw [Registers.loadV]
  exact h.withV _

theorem withIndex (h : r.Bounded) {i : Int} (hnonneg : 0 ≤ i) (hle : i ≤ 0xFFFF) :
    Registers.Bounded { r with i } :=
  ⟨hnonneg, hle, h.pc_nonneg, h.pc_le, h.slot_le⟩

theorem goto (h : r.Bounded) {pc : Int} (hnonneg : 0 ≤ pc) (hle : pc ≤ 0x10FE) :
    (r.goto pc).Bounded :=
  ⟨h.i_nonneg, h.i_le, hnonneg, hle, h.slot_le⟩

theorem next (h : r.Bounded) (hpc : r.pc ≤ 4094) : r.next.Bounded :=
  h.goto (by have := h.pc_nonneg; omega) (by omega)

theorem skip (h : r.Bounded) (hpc : r.pc ≤ 4094) (skipped : Bool) : (r.skip skipped).Bounded := by
  have := h.pc_nonneg
  refine h.goto ?_ ?_ <;> split <;> omega

theorem withTimers (h : r.Bounded) (delay sound : UInt8) :
    Registers.Bounded { r with delay, sound } :=
  ⟨h.i_nonneg, h.i_le, h.pc_nonneg, h.pc_le, h.slot_le⟩

theorem decrementTimers (h : r.Bounded) : r.decrementTimers.Bounded := by
  rw [Registers.decrementTimers]
  exact h.withTimers _ _

theorem push (h : r.Bounded) (haddress : address.toNat ≤ 0xFFE) (hpush : r.push address = .ok r') :
    r'.Bounded := by
  obtain ⟨k, -, hslots, -, hr'⟩ := of_push_eq_ok hpush
  rw [hr']
  have hslot (j : Fin 16) : (r'.stack.slots.get j).toNat ≤ 0xFFE := by
    rw [hslots, get_fill]
    split
    · exact haddress
    · exact h.slot_le j
  exact ⟨h.i_nonneg, h.i_le, h.pc_nonneg, h.pc_le, hslot⟩

theorem pop (h : r.Bounded) (hpop : r.pop = .ok (address, r')) :
    r'.Bounded ∧ address.toNat ≤ 0xFFE := by
  obtain ⟨k, -, haddress, hslots, -, hr'⟩ := of_pop_eq_ok hpop
  constructor
  · rw [hr']
    have hslot (j : Fin 16) : (r'.stack.slots.get j).toNat ≤ 0xFFE := by
      rw [hslots]
      exact h.slot_le j
    exact ⟨h.i_nonneg, h.i_le, h.pc_nonneg, h.pc_le, hslot⟩
  · rw [haddress]
    exact h.slot_le k

end Registers.Bounded

/-! ## Instructions -/

theorem Instruction.nnn_le (ins : Instruction) : ins.nnn ≤ 0xFFF := by
  rw [nnn]
  omega

namespace Machine.Bounded

variable {m m' : Machine}

theorem withRegisters (h : m.Bounded) {r : Registers} (hr : r.Bounded) :
    (m.withRegisters r).Bounded :=
  ⟨hr, h.register_nonneg, h.register_le⟩

theorem drawn (h : m.Bounded) {x y : Fin 16} (rows : List UInt8) : (m.drawn x y rows).Bounded := by
  refine ⟨?_, h.register_nonneg, h.register_le⟩
  simp only [Machine.drawn]
  split
  · exact (h.registers.setV _ _).setV _ _
  · exact h.registers.setV _ _

/-- An instruction that was fetched keeps the machine in range. -/
theorem effect (h : m.Bounded) (hpc : m.registers.pc ≤ 4094) {ins : Instruction} {byte : UInt8}
    (heffect : ins.effect byte m = .ok m') : m'.Bounded := by
  have hr := h.registers
  have hnnn := ins.nnn_le
  obtain ⟨word, opcode⟩ := ins
  cases opcode
  case loadByte | addByte | loadReg | or | and | xor | random | readDelay =>
    obtain rfl := Except.ok.inj heffect
    exact h.withRegisters ((hr.setV _ _).next hpc)
  case add | sub | shiftRight | subFrom | shiftLeft =>
    obtain rfl := Except.ok.inj heffect
    exact h.withRegisters (((hr.setV _ _).setV _ _).next hpc)
  case skipEqByte | skipNeByte | skipEqReg | skipNeReg =>
    obtain rfl := Except.ok.inj heffect
    exact h.withRegisters (hr.skip hpc _)
  case skipKeyDown | skipKeyUp =>
    obtain ⟨down, -, rfl⟩ := of_map_eq_ok heffect
    exact h.withRegisters (hr.skip hpc _)
  case setDelay | setSound =>
    obtain rfl := Except.ok.inj heffect
    exact h.withRegisters ((hr.withTimers _ _).next hpc)
  case sys =>
    obtain rfl := Except.ok.inj heffect
    exact h.withRegisters (hr.next hpc)
  case clear =>
    obtain rfl := Except.ok.inj heffect
    exact ⟨hr.next hpc, h.register_nonneg, h.register_le⟩
  case jump =>
    obtain rfl := Except.ok.inj heffect
    exact h.withRegisters (hr.goto (by omega) (by omega))
  case jumpOffset =>
    obtain rfl := Except.ok.inj heffect
    have hbyte := (m.registers.v.get Registers.offset).toNat_lt
    exact h.withRegisters (hr.goto (by omega) (by omega))
  case loadIndex =>
    obtain rfl := Except.ok.inj heffect
    exact h.withRegisters ((hr.withIndex (by omega) (by omega)).next hpc)
  case addIndex =>
    obtain rfl := Except.ok.inj heffect
    exact h.withRegisters ((hr.withIndex (by omega) (by omega)).next hpc)
  case glyph =>
    obtain rfl := Except.ok.inj heffect
    have hbyte := (m.registers.v.get (Instruction.x ⟨word, .glyph⟩)).toNat_lt
    have hsize : Font.glyphSize = 5 := rfl
    refine h.withRegisters ((hr.withIndex ?_ ?_).next hpc)
    · rw [hsize]
      omega
    · rw [hsize]
      omega
  case waitKey =>
    obtain rfl := Except.ok.inj heffect
    have hx := (Instruction.x ⟨word, .waitKey⟩).isLt
    exact ⟨hr.next hpc, by simp only [Keypad.await]; omega, by simp only [Keypad.await]; omega⟩
  case ret =>
    obtain ⟨⟨address, r⟩, hpop, rfl⟩ := of_map_eq_ok heffect
    obtain ⟨hpopped, haddress⟩ := hr.pop hpop
    exact h.withRegisters (hpopped.goto (by omega) (by omega))
  case call =>
    obtain ⟨r, hpush, rfl⟩ := of_map_eq_ok heffect
    have hnonneg := hr.pc_nonneg
    -- the slot holds the whole of the program counter, for a word was fetched there
    have haddress : (UInt16.ofNat m.registers.pc.toNat).toNat ≤ 0xFFE := by
      have := Registers.toNat_slot hnonneg (by omega)
      omega
    exact h.withRegisters ((hr.push haddress hpush).goto (by omega) (by omega))
  case draw =>
    obtain ⟨rows, -, rfl⟩ := of_map_eq_ok heffect
    exact (h.drawn rows).withRegisters ((h.drawn rows).registers.next (by rw [pc_drawn]; exact hpc))
  case decimal | storeRegs =>
    obtain ⟨memory, -, rfl⟩ := of_map_eq_ok heffect
    exact ⟨hr.next hpc, h.register_nonneg, h.register_le⟩
  case loadRegs =>
    obtain ⟨bytes, -, rfl⟩ := of_map_eq_ok heffect
    have hloaded : (m.registers.loadV bytes).pc ≤ 4094 := by
      rw [Registers.loadV]
      exact hpc
    exact h.withRegisters ((hr.loadV bytes).next hloaded)

/-- A machine that was just built is in range. -/
theorem ofProgram {program : List UInt8} (h : Machine.ofProgram program = .ok m) : m.Bounded := by
  obtain ⟨memory, -, rfl⟩ := of_ofProgram_eq_ok h
  exact ⟨.initial, (by decide : (0 : Int) ≤ 0), (by decide : (0 : Int) ≤ 15)⟩

/-- A key event keeps the machine in range. -/
theorem keyEvent (h : m.Bounded) (number : Int) (isDown : Bool) :
    (after (Machine.keyEvent number isDown) m).Bounded := by
  have hout := keyEvent_outcome m number isDown
  rw [after]
  generalize Machine.keyEvent number isDown m = result at hout ⊢
  cases hout with
  | unknown _ => exact h
  | noted _ _ => exact ⟨h.registers, h.register_nonneg, h.register_le⟩
  | settled _ _ _ _ => exact ⟨h.registers.setV _ _, h.register_nonneg, h.register_le⟩
  | misdirected _ _ _ _ => exact ⟨h.registers, h.register_nonneg, h.register_le⟩

end Machine.Bounded

/-! ## Runs -/

namespace Processor

variable {p : Processor}

/-- A step keeps the machine in range, whatever it comes to. -/
theorem bounded_step (h : p.machine.Bounded) : (after step p).machine.Bounded := by
  have hout := step_outcome p
  rw [after]
  generalize step p = result at hout ⊢
  cases hout with
  | unavailable _ => exact h
  | halts _ => exact ⟨h.registers, h.register_nonneg, h.register_le⟩
  | refused _ _ => exact h
  | completes hup heffect =>
    obtain ⟨-, hhigh⟩ := Machine.inBounds_of_upcoming hup
    exact h.effect (by simp only [Memory.size] at hhigh; omega) heffect

/-- Every action keeps the machine in range. -/
theorem bounded_act (action : Action) (h : p.machine.Bounded) :
    (p.act action).machine.Bounded := by
  cases action with
  | step => exact bounded_step h
  | key number isDown => exact h.keyEvent number isDown
  | countDown => exact h.withRegisters h.registers.decrementTimers
  | halt => exact ⟨h.registers, h.register_nonneg, h.register_le⟩
  | log change => exact h

/-- Every processor that can be reached has its machine in range. -/
theorem Reachable.bounded (h : Reachable p) : p.machine.Bounded := by
  induction h with
  | start hload draws log => exact Machine.Bounded.ofProgram hload
  | act _ action ih => exact bounded_act action ih

end Processor

end ChipEight
