import ChipEight.Proofs.Bounds
import ChipEight.Proofs.Course

/-!
# Every run keeps the machine in range

`Machine.InRange` lists the range of every part of a machine. Most of these
ranges are those of the types, which is only worth something as long as nothing
is lost where a number is put into a narrower type, or a block into a place of
fixed length; that nothing is lost there is part of the list. The ranges that the
types do not give come from `Machine.Bounded`, and with it they hold after any
run, refused operations included.
-/

namespace ChipEight

/-- Every part of a machine is in range, and fits where the machine puts it. -/
structure Machine.InRange (m : Machine) : Prop where
  memory_length : m.memory.bytes.toList.length = 4096
  memory_le : ∀ byte ∈ m.memory.bytes.toList, byte.toNat ≤ 255
  v_length : m.registers.v.toList.length = 16
  v_le : ∀ byte ∈ m.registers.v.toList, byte.toNat ≤ 255
  i_range : 0 ≤ m.registers.i ∧ m.registers.i ≤ 0xFFFF
  pc_range : 0 ≤ m.registers.pc ∧ m.registers.pc ≤ 0x10FE
  depth_range : 0 ≤ m.registers.stack.depth ∧ m.registers.stack.depth ≤ 16
  slots_length : m.registers.stack.slots.toList.length = 16
  slots_le : ∀ slot ∈ m.registers.stack.slots.toList, slot.toNat ≤ 0xFFE
  timers_le : m.registers.delay.toNat ≤ 255 ∧ m.registers.sound.toNat ≤ 255
  keys_length : m.keypad.down.toList.length = 16
  register_range : 0 ≤ m.keypad.register ∧ m.keypad.register ≤ 15
  rows_length : m.screen.pixels.toList.length = 32
  row_length : ∀ row ∈ m.screen.pixels.toList, row.toList.length = 64
  pixel_le : ∀ row ∈ m.screen.pixels.toList, ∀ pixel ∈ row.toList, pixel.toNat ≤ 1
  /-- a slot holds the whole address of an instruction that can be fetched -/
  slot_exact : ∀ next, m.upcoming = .ok next →
    ((UInt16.ofNat m.registers.pc.toNat).toNat : Int) = m.registers.pc
  /-- a block of bytes replaces as many bytes of memory as it has -/
  store_exact : ∀ values memory, m.memory.writeBytes m.registers.i values = .ok memory →
    memory.bytes.toList = m.memory.bytes.toList.take m.registers.i.toNat ++ values ++
      m.memory.bytes.toList.drop (m.registers.i.toNat + values.length)
  /-- a block for the registers up to `x` has a byte for each of them -/
  load_exact : ∀ (x : Fin 16) bytes, m.memory.readBlock m.registers.i (x.val + 1) = .ok bytes →
    bytes.length = x.val + 1 ∧
      (m.registers.loadV bytes).v.toList = bytes ++ m.registers.v.toList.drop (x.val + 1)

namespace Machine

/-- The bounds are all that is missing for a machine to be in range. -/
theorem Bounded.inRange {m : Machine} (h : m.Bounded) : m.InRange where
  memory_length := m.memory.length_toList
  memory_le := fun byte _ => Nat.le_of_lt_succ byte.toNat_lt
  v_length := Vector.length_toList
  v_le := fun byte _ => Nat.le_of_lt_succ byte.toNat_lt
  i_range := ⟨h.registers.i_nonneg, h.registers.i_le⟩
  pc_range := ⟨h.registers.pc_nonneg, h.registers.pc_le⟩
  depth_range := ⟨Nat.zero_le _, m.registers.stack.depth_le⟩
  slots_length := Vector.length_toList
  slots_le := by
    intro slot hslot
    obtain ⟨k, hk, rfl⟩ := Vector.getElem_of_mem (Vector.mem_toList_iff.mp hslot)
    exact h.registers.slot_le ⟨k, hk⟩
  timers_le :=
    ⟨Nat.le_of_lt_succ m.registers.delay.toNat_lt, Nat.le_of_lt_succ m.registers.sound.toNat_lt⟩
  keys_length := Vector.length_toList
  register_range := ⟨h.register_nonneg, h.register_le⟩
  rows_length := Vector.length_toList
  row_length := fun _ _ => Vector.length_toList
  pixel_le := fun _ _ pixel _ => pixel.toNat_le
  slot_exact := by
    intro next hup
    obtain ⟨hlow, hhigh⟩ := inBounds_of_upcoming hup
    rw [Memory.size] at hhigh
    exact Registers.toNat_slot hlow (by omega)
  store_exact := fun values memory hwrite => Memory.toList_of_writeBytes hwrite
  load_exact := by
    intro x bytes hread
    have hlength := Memory.length_readBlock (by omega) hread
    have hx := x.isLt
    refine ⟨by omega, ?_⟩
    rw [Registers.toList_loadV _ (by omega), show bytes.length = x.val + 1 by omega]

end Machine

namespace Pacer

variable {κ τ : Type} [Clock κ τ] [Add τ] [LE τ] [DecidableLE τ]

/-- **The range invariant.** A program that fits is loaded, byte for byte, and
after any run of a pacer that starts from it the machine is in range, whatever
was refused on the way. -/
theorem inRange_performAll {program : List UInt8} (hfits : program.length ≤ 3584) :
    ∃ machine, Machine.ofProgram program = .ok machine ∧
      machine.memory.bytes.toList = Memory.blank.bytes.toList.take 0x200 ++ program ++
        Memory.blank.bytes.toList.drop (0x200 + program.length) ∧
      ∀ (draws : Draws) (log : Log) (clock : κ) (clockPeriod timerPeriod : τ)
        (operations : List Operation),
        ((new (.ofMachine machine draws log) clock clockPeriod timerPeriod).performAll
          operations).machine.InRange := by
  have hload := Machine.ofProgram_of_le hfits
  refine ⟨_, hload, Memory.toList_store Memory.blank ?_, ?_⟩
  · rw [Memory.programStart]
    omega
  intro draws log clock clockPeriod timerPeriod operations
  exact (reachable_performAll (.start hload draws log) operations).bounded.inRange

/-- The range invariant for a program that calls itself without end. -/
theorem inRange_performAll_endless :
    [(0x22 : UInt8), 0x00].length ≤ 3584 ∧
    ∃ machine, Machine.ofProgram [0x22, 0x00] = .ok machine ∧
      machine.memory.bytes.toList = Memory.blank.bytes.toList.take 0x200 ++ [0x22, 0x00] ++
        Memory.blank.bytes.toList.drop (0x200 + 2) ∧
      ∀ (draws : Draws) (log : Log) (clock : HandClock Nat) (clockPeriod timerPeriod : Nat)
        (operations : List Operation),
        ((new (.ofMachine machine draws log) clock clockPeriod timerPeriod).performAll
          operations).machine.InRange :=
  ⟨by decide, inRange_performAll (by decide)⟩

end Pacer

end ChipEight
