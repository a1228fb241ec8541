import ChipEight.Proofs.Bounds
import ChipEight.Proofs.Grammar

/-!
# Refused steps

Two laws about steps that are refused. It is known exactly when a step is refused
and with which fault: the conditions of `Machine.Refuses` are on the program
counter, on the word found there and on the registers that the instruction looks
at, and they are complete. And a refused step leaves no trace in the machine, in
the draws or in the count of cycles.

The conditions are brought together from three layers: the operations that an
instruction consists of, the instructions, and the fetch with the decoder.
-/

namespace ChipEight

/-! ## Operations -/

section Results

variable {ε α β : Type} {x : Except ε α} {e e₀ : ε}

/-- What is refused on one condition and with one fault. -/
theorem eq_error_iff {condition : Prop} (hrefused : condition → x = .error e₀)
    (hdone : ¬ condition → ∃ a, x = .ok a) : x = .error e ↔ condition ∧ e = e₀ := by
  by_cases hcondition : condition
  · rw [hrefused hcondition]
    exact ⟨fun h => ⟨hcondition, (Except.error.inj h).symm⟩, fun h => congrArg _ h.2.symm⟩
  · obtain ⟨a, hx⟩ := hdone hcondition
    rw [hx]
    exact ⟨fun h => (by cases h), fun h => absurd h.1 hcondition⟩

theorem map_eq_error_iff {f : α → β} : x.map f = .error e ↔ x = .error e := by
  refine ⟨of_map_eq_error, ?_⟩
  rintro rfl
  rfl

end Results

section Operations

variable {r : Registers} {m : Memory} {p : Keypad} {fault : Fault}

theorem Registers.push_eq_error_iff {address : UInt16} :
    r.push address = .error fault ↔ r.stack.depth = 16 ∧ fault = .stackOverflow r.pc := by
  have hle := r.stack.depth_le
  refine eq_error_iff (fun hfull => ?_) (fun hfree => ?_)
  · rw [push, CallStack.push?, dif_neg (by omega)]
  · rw [push, CallStack.push?, dif_pos (by omega)]
    exact ⟨_, rfl⟩

theorem Registers.pop_eq_error_iff :
    r.pop = .error fault ↔ r.stack.depth = 0 ∧ fault = .stackUnderflow r.pc := by
  refine eq_error_iff (fun hempty => ?_) (fun hused => ?_)
  · rw [pop, CallStack.pop?, dif_neg (by omega)]
  · rw [pop, CallStack.pop?, dif_pos (by omega)]
    exact ⟨_, rfl⟩

theorem Memory.readBlock_eq_error_iff {address length : Int} :
    m.readBlock address length = .error fault ↔
      ¬ InBounds address length ∧ fault = .memoryAccess address length :=
  eq_error_iff readBlock_of_not_inBounds fun h => ⟨_, readBlock_of_inBounds (Decidable.not_not.mp h)⟩

theorem Memory.writeBytes_eq_error_iff {address : Int} {values : List UInt8} :
    m.writeBytes address values = .error fault ↔
      ¬ InBounds address values.length ∧ fault = .memoryAccess address values.length :=
  eq_error_iff writeBytes_of_not_inBounds fun h => ⟨_, writeBytes_of_inBounds (Decidable.not_not.mp h)⟩

theorem Keypad.isDown_eq_error_iff {number : Nat} :
    p.isDown number = .error fault ↔ 15 < number ∧ fault = .keyIndex number := by
  refine eq_error_iff (fun hbeyond => ?_) (fun hkey => ?_)
  · rw [isDown, key_of_no_cell (cell?_eq_none_iff.mpr (by omega))]
    rfl
  · have hcell : cell? number = some ⟨number, by omega⟩ := cell?_eq_some_iff.mpr rfl
    rw [isDown, key_of_cell hcell]
    exact ⟨_, rfl⟩

/-- What is in bounds, where the start is known not to be negative. -/
theorem Memory.not_inBounds_iff {address length : Int} (h : 0 ≤ address) :
    ¬ InBounds address length ↔ 4096 < address + length := by
  rw [InBounds, Memory.size]
  omega

end Operations

/-! ## Instructions -/

namespace Instruction

/-- When an instruction is refused, and with which fault. -/
def Refused (ins : Instruction) (m : Machine) (fault : Fault) : Prop :=
  let r := m.registers
  match ins.opcode with
  | .ret => r.stack.depth = 0 ∧ fault = .stackUnderflow r.pc
  | .call => r.stack.depth = 16 ∧ fault = .stackOverflow r.pc
  | .draw => 4096 < r.i + ins.n.val ∧ fault = .memoryAccess r.i ins.n.val
  | .skipKeyDown | .skipKeyUp => 15 < (r.v.get ins.x).toNat ∧ fault = .keyIndex (r.v.get ins.x).toNat
  | .decimal => 4096 < r.i + 3 ∧ fault = .memoryAccess r.i 3
  | .storeRegs | .loadRegs =>
    4096 < r.i + (ins.x.val + 1) ∧ fault = .memoryAccess r.i (ins.x.val + 1)
  | _ => False

/-- An instruction is refused in these cases and in no others. -/
theorem effect_eq_error_iff {ins : Instruction} {byte : UInt8} {m : Machine} {fault : Fault}
    (hi : 0 ≤ m.registers.i) : ins.effect byte m = .error fault ↔ ins.Refused m fault := by
  obtain ⟨word, opcode⟩ := ins
  cases opcode
  case ret => exact map_eq_error_iff.trans Registers.pop_eq_error_iff
  case call => exact map_eq_error_iff.trans Registers.push_eq_error_iff
  case draw =>
    refine map_eq_error_iff.trans ?_
    rw [Memory.readBlock_eq_error_iff, Memory.not_inBounds_iff hi]
    rfl
  case skipKeyDown => exact map_eq_error_iff.trans Keypad.isDown_eq_error_iff
  case skipKeyUp => exact map_eq_error_iff.trans Keypad.isDown_eq_error_iff
  case decimal =>
    refine map_eq_error_iff.trans ?_
    rw [Memory.writeBytes_eq_error_iff, Memory.not_inBounds_iff hi]
    rfl
  case storeRegs =>
    refine map_eq_error_iff.trans ?_
    have hlength (x : Fin 16) :
        ((m.registers.v.toList.take (x.val + 1)).length : Int) = x.val + 1 := by
      rw [List.length_take, Vector.length_toList]
      omega
    rw [Memory.writeBytes_eq_error_iff, Memory.not_inBounds_iff hi, hlength]
    rfl
  case loadRegs =>
    refine map_eq_error_iff.trans ?_
    rw [Memory.readBlock_eq_error_iff, Memory.not_inBounds_iff hi]
    rfl
  -- the other instructions consist of operations that are never refused
  all_goals exact ⟨fun h => (by cases h), fun h => h.elim⟩

end Instruction

/-! ## Fetching and decoding -/

namespace Machine

/-- The word at the program counter. -/
def word (m : Machine) : Nat := m.memory.wordAt m.registers.pc.toNat

/-- What fetching and decoding can come to. -/
inductive Fetched (m : Machine) : Except Fault (Option Instruction) → Prop
  /-- the program counter is too close to the end of memory -/
  | beyond (hpc : 4094 < m.registers.pc) : Fetched m (.error (.memoryAccess m.registers.pc 2))
  | zero (hpc : m.registers.pc ≤ 4094) (hzero : m.word = 0) : Fetched m (.ok none)
  /-- the word has no form -/
  | unknown (hpc : m.registers.pc ≤ 4094) (hword : m.word ≠ 0)
    (hnone : ∀ row ∈ Opcode.table, row.pattern.admits m.word = false) :
    Fetched m (.error (.unknownOpcode m.word (some m.registers.pc)))
  /-- the word has the form of an opcode -/
  | known (hpc : m.registers.pc ≤ 4094) (hword : m.word ≠ 0) {op : Opcode}
    (hadmits : op.Admits m.word) (hdecode : Instruction.decode m.word = .ok ⟨m.word, op⟩) :
    Fetched m (.ok (some ⟨m.word, op⟩))

/-- Fetching and decoding comes to one of the four. -/
theorem upcoming_fetched {m : Machine} (hpc : 0 ≤ m.registers.pc) : Fetched m m.upcoming := by
  by_cases hbounds : Memory.InBounds m.registers.pc 2
  · have hread := Memory.readWord_of_inBounds (m := m.memory) hbounds
    have hle : m.registers.pc ≤ 4094 := by
      have hend := hbounds.2
      rw [Memory.size] at hend
      omega
    by_cases hword : m.word = 0
    · rw [upcoming_of_zero (by rw [hread]; exact congrArg _ hword)]
      exact .zero hle hword
    · rw [upcoming_of_word hword hread, Instruction.decodeAt]
      rcases hdecode : Instruction.decode (m.word : Int) with fault | ins
      · have hnone := ((Instruction.decodeWith_eq_error_iff arranged_table).mp hdecode).2
        exact .unknown hle hword hnone
      · obtain ⟨hsame, hadmits⟩ := (Instruction.decodeWith_eq_ok_iff arranged_table).mp hdecode
        obtain ⟨w, op⟩ := ins
        obtain rfl : w = (m.word : Int) := hsame
        exact .known hle hword hadmits hdecode
  · rw [upcoming_of_fault (Memory.readWord_of_not_inBounds hbounds)]
    exact .beyond (by rw [Memory.not_inBounds_iff hpc] at hbounds; omega)

/-- What is upcoming was decoded from a word that could be fetched. -/
theorem word_of_upcoming {m : Machine} {next : Option Instruction} (h : m.upcoming = .ok next) :
    0 ≤ m.registers.pc ∧ m.registers.pc ≤ 4094 ∧ match next with
      | none => m.word = 0
      | some ins => m.word ≠ 0 ∧ ins.word = m.word ∧ ins.opcode.Admits m.word := by
  have hlow := (inBounds_of_upcoming h).1
  have hfetched := upcoming_fetched hlow
  rw [h] at hfetched
  cases hfetched with
  | zero hle hzero => exact ⟨hlow, hle, hzero⟩
  | known hle hword hadmits _ => exact ⟨hlow, hle, hword, rfl, hadmits⟩

/-- A word other than zero that has the form of an opcode is what is upcoming. -/
theorem upcoming_of_admits {m : Machine} {op : Opcode} (hlow : 0 ≤ m.registers.pc)
    (hpc : m.registers.pc ≤ 4094) (hword : m.word ≠ 0) (hadmits : op.Admits m.word) :
    m.upcoming = .ok (some ⟨m.word, op⟩) := by
  have hbounds : Memory.InBounds m.registers.pc 2 := by
    rw [Memory.InBounds, Memory.size]
    omega
  have hread : m.memory.readWord m.registers.pc = .ok m.word := Memory.readWord_of_inBounds hbounds
  have hdecode : Instruction.decode (m.word : Int) = .ok ⟨m.word, op⟩ :=
    (Instruction.decodeWith_eq_ok_iff arranged_table).mpr ⟨rfl, hadmits⟩
  rw [upcoming_of_word hword hread, Instruction.decodeAt, hdecode]
  rfl

/-- The word where a block was stored that begins at the program counter. -/
theorem word_of_store {m : Machine} {memory : Memory} {start : Nat} {high low : UInt8}
    {rest : List UInt8} (hmemory : m.memory = memory.store start (high :: low :: rest))
    (hpc : m.registers.pc = start) (h : start + (high :: low :: rest).length ≤ 4096) :
    m.word = high.toNat * 256 + low.toNat := by
  rw [word, hmemory, hpc, Int.toNat_natCast, Memory.wordAt_store _ h]

theorem word_lt (m : Machine) : m.word < 0x10000 := m.memory.wordAt_lt _

/-- A word of a form other than `0nnn` is upcoming with the opcode of the form. -/
theorem upcoming_of_hasForm {m : Machine} {op : Opcode} (hlow : 0 ≤ m.registers.pc)
    (hpc : m.registers.pc ≤ 4094) (hop : op ≠ .sys) (hform : op.HasForm m.word) :
    m.upcoming = .ok (some ⟨m.word, op⟩) :=
  upcoming_of_admits hlow hpc (hform.ne_zero hop) ((Opcode.admits_iff_hasForm m.word_lt).mpr hform)

/-! ## The conditions on the machine -/

/-- **When a step is refused, and with which fault.** The conditions are on the
program counter, on the word found there, and on what the instruction looks at;
its operands are the digits of the word. -/
inductive Refuses (m : Machine) : Fault → Prop
  /-- there is no whole word at the program counter -/
  | fetch (hpc : 4094 < m.registers.pc) : Refuses m (.memoryAccess m.registers.pc 2)
  /-- no row of the table admits the word -/
  | unknown (hpc : m.registers.pc ≤ 4094) (hword : m.word ≠ 0)
    (hnone : ∀ row ∈ Opcode.table, row.pattern.admits m.word = false) :
    Refuses m (.unknownOpcode m.word (some m.registers.pc))
  /-- `00EE` without a call in progress -/
  | underflow (hpc : m.registers.pc ≤ 4094) (hword : m.word = 0x00EE)
    (hdepth : m.registers.stack.depth = 0) : Refuses m (.stackUnderflow m.registers.pc)
  /-- `2nnn` with sixteen calls in progress -/
  | overflow (hpc : m.registers.pc ≤ 4094) (hword : m.word / 0x1000 = 0x2)
    (hdepth : m.registers.stack.depth = 16) : Refuses m (.stackOverflow m.registers.pc)
  /-- `Ex9E` or `ExA1` for a key that does not exist -/
  | key (hpc : m.registers.pc ≤ 4094) (hword : m.word / 0x1000 = 0xE)
    (hkind : m.word % 0x100 = 0x9E ∨ m.word % 0x100 = 0xA1)
    (hkey : 15 < (m.registers.v.get (wordDigit m.word 2)).toNat) :
    Refuses m (.keyIndex (m.registers.v.get (wordDigit m.word 2)).toNat)
  /-- `Dxyn` with a sprite that leaves memory -/
  | sprite (hpc : m.registers.pc ≤ 4094) (hword : m.word / 0x1000 = 0xD)
    (hend : 4096 < m.registers.i + (m.word % 0x10 : Nat)) :
    Refuses m (.memoryAccess m.registers.i (m.word % 0x10 : Nat))
  /-- `Fx33` with digits that leave memory -/
  | decimal (hpc : m.registers.pc ≤ 4094) (hword : m.word / 0x1000 = 0xF)
    (hkind : m.word % 0x100 = 0x33) (hend : 4096 < m.registers.i + 3) :
    Refuses m (.memoryAccess m.registers.i 3)
  /-- `Fx55` or `Fx65` with a block that leaves memory -/
  | block (hpc : m.registers.pc ≤ 4094) (hword : m.word / 0x1000 = 0xF)
    (hkind : m.word % 0x100 = 0x55 ∨ m.word % 0x100 = 0x65)
    (hend : 4096 < m.registers.i + ((m.word / 0x100 % 0x10 : Nat) + 1)) :
    Refuses m (.memoryAccess m.registers.i ((m.word / 0x100 % 0x10 : Nat) + 1))

end Machine

/-! ## Words and opcodes -/

/-- The all-zero word would be decoded as `0nnn`. -/
theorem Opcode.admits_sys_zero : sys.Admits (0 : Nat) :=
  (admits_iff_hasForm (by decide)).mpr ⟨rfl, by decide, by decide⟩

namespace Machine

variable {m : Machine} {fault : Fault}

/-- The machine refuses what the fetch, the decoder or the instruction refuses. -/
theorem refuses_iff : m.Refuses fault ↔
    (4094 < m.registers.pc ∧ fault = .memoryAccess m.registers.pc 2) ∨
    (m.registers.pc ≤ 4094 ∧ m.word ≠ 0 ∧
      (∀ row ∈ Opcode.table, row.pattern.admits m.word = false) ∧
      fault = .unknownOpcode m.word (some m.registers.pc)) ∨
    (m.registers.pc ≤ 4094 ∧
      ∃ op : Opcode, op.Admits m.word ∧ Instruction.Refused ⟨m.word, op⟩ m fault) := by
  have hw := m.word_lt
  constructor
  -- each condition on the digits of the word is the form of one opcode
  · intro h
    cases h with
    | fetch hpc => exact .inl ⟨hpc, rfl⟩
    | unknown hpc hword hnone => exact .inr (.inl ⟨hpc, hword, hnone, rfl⟩)
    | underflow hpc hret hdepth =>
      exact .inr (.inr ⟨hpc, .ret, (Opcode.admits_iff_hasForm hw).mpr hret, hdepth, rfl⟩)
    | overflow hpc hcall hdepth =>
      exact .inr (.inr ⟨hpc, .call, (Opcode.admits_iff_hasForm hw).mpr hcall, hdepth, rfl⟩)
    | key hpc hfirst hkind hkey =>
      refine .inr (.inr ⟨hpc, ?_⟩)
      rcases hkind with hkind | hkind
      · exact ⟨.skipKeyDown, (Opcode.admits_iff_hasForm hw).mpr ⟨hfirst, hkind⟩, hkey, rfl⟩
      · exact ⟨.skipKeyUp, (Opcode.admits_iff_hasForm hw).mpr ⟨hfirst, hkind⟩, hkey, rfl⟩
    | sprite hpc hdraw hend =>
      refine .inr (.inr ⟨hpc, .draw, (Opcode.admits_iff_hasForm hw).mpr hdraw, ?_⟩)
      rw [Instruction.Refused, Instruction.val_n]
      exact ⟨hend, rfl⟩
    | decimal hpc hfirst hkind hend =>
      exact .inr (.inr ⟨hpc, .decimal, (Opcode.admits_iff_hasForm hw).mpr ⟨hfirst, hkind⟩,
        hend, rfl⟩)
    | block hpc hfirst hkind hend =>
      refine .inr (.inr ⟨hpc, ?_⟩)
      rcases hkind with hkind | hkind
      · refine ⟨.storeRegs, (Opcode.admits_iff_hasForm hw).mpr ⟨hfirst, hkind⟩, ?_⟩
        rw [Instruction.Refused, Instruction.val_x]
        exact ⟨hend, rfl⟩
      · refine ⟨.loadRegs, (Opcode.admits_iff_hasForm hw).mpr ⟨hfirst, hkind⟩, ?_⟩
        rw [Instruction.Refused, Instruction.val_x]
        exact ⟨hend, rfl⟩
  · rintro (⟨hpc, rfl⟩ | ⟨hpc, hword, hnone, rfl⟩ | ⟨hpc, op, hadmits, hrefused⟩)
    · exact .fetch hpc
    · exact .unknown hpc hword hnone
    rw [Instruction.Refused, Instruction.val_n, Instruction.val_x] at hrefused
    cases op
    case ret =>
      obtain ⟨hdepth, rfl⟩ := hrefused
      exact .underflow hpc ((Opcode.admits_iff_hasForm hw).mp hadmits) hdepth
    case call =>
      obtain ⟨hdepth, rfl⟩ := hrefused
      exact .overflow hpc ((Opcode.admits_iff_hasForm hw).mp hadmits) hdepth
    case draw =>
      obtain ⟨hend, rfl⟩ := hrefused
      exact .sprite hpc ((Opcode.admits_iff_hasForm hw).mp hadmits) hend
    case skipKeyDown =>
      obtain ⟨hkey, rfl⟩ := hrefused
      obtain ⟨hfirst, hkind⟩ := (Opcode.admits_iff_hasForm hw).mp hadmits
      exact .key hpc hfirst (.inl hkind) hkey
    case skipKeyUp =>
      obtain ⟨hkey, rfl⟩ := hrefused
      obtain ⟨hfirst, hkind⟩ := (Opcode.admits_iff_hasForm hw).mp hadmits
      exact .key hpc hfirst (.inr hkind) hkey
    case decimal =>
      obtain ⟨hend, rfl⟩ := hrefused
      obtain ⟨hfirst, hkind⟩ := (Opcode.admits_iff_hasForm hw).mp hadmits
      exact .decimal hpc hfirst hkind hend
    case storeRegs =>
      obtain ⟨hend, rfl⟩ := hrefused
      obtain ⟨hfirst, hkind⟩ := (Opcode.admits_iff_hasForm hw).mp hadmits
      exact .block hpc hfirst (.inl hkind) hend
    case loadRegs =>
      obtain ⟨hend, rfl⟩ := hrefused
      obtain ⟨hfirst, hkind⟩ := (Opcode.admits_iff_hasForm hw).mp hadmits
      exact .block hpc hfirst (.inr hkind) hend
    all_goals exact hrefused.elim

/-- Nothing is refused at an all-zero word. -/
theorem not_refuses_of_zero (hpc : m.registers.pc ≤ 4094) (hzero : m.word = 0) :
    ¬ m.Refuses fault := by
  rw [refuses_iff]
  rintro (⟨hbeyond, -⟩ | ⟨-, hword, -⟩ | ⟨-, op, hadmits, hrefused⟩)
  · omega
  · exact hword hzero
  · rw [hzero] at hadmits
    obtain rfl := hadmits.unique Opcode.admits_sys_zero
    exact hrefused

/-- Where the word has no form, nothing else is wrong. -/
theorem refuses_iff_of_unknown (hpc : m.registers.pc ≤ 4094) (hword : m.word ≠ 0)
    (hnone : ∀ row ∈ Opcode.table, row.pattern.admits m.word = false) :
    m.Refuses fault ↔ fault = .unknownOpcode m.word (some m.registers.pc) := by
  constructor
  · rw [refuses_iff]
    rintro (⟨hbeyond, -⟩ | ⟨-, -, -, hfault⟩ | ⟨-, op, hadmits, -⟩)
    · omega
    · exact hfault
    · have hrow := hnone op.row op.row_mem
      rw [hadmits.1] at hrow
      cases hrow
  · rintro rfl
    exact .unknown hpc hword hnone

/-- Where the word has a form, the machine refuses what the instruction refuses. -/
theorem refuses_iff_of_known (hpc : m.registers.pc ≤ 4094) {op : Opcode}
    (hadmits : op.Admits m.word) :
    m.Refuses fault ↔ Instruction.Refused ⟨m.word, op⟩ m fault := by
  rw [refuses_iff]
  constructor
  · rintro (⟨hbeyond, -⟩ | ⟨-, -, hnone, -⟩ | ⟨-, op', hadmits', hrefused⟩)
    · omega
    · have hrow := hnone op.row op.row_mem
      rw [hadmits.1] at hrow
      cases hrow
    · obtain rfl := hadmits'.unique hadmits
      exact hrefused
  · intro hrefused
    exact .inr (.inr ⟨hpc, op, hadmits, hrefused⟩)

end Machine

/-! ## Steps -/

namespace Processor

variable {p : Processor}

/-- A step that is refused, by the machine it is made on. -/
theorem step_eq_error_iff (hi : 0 ≤ p.machine.registers.i) (hpc : 0 ≤ p.machine.registers.pc)
    (fault : Fault) : (∃ q, step p = .error fault q) ↔ p.machine.Refuses fault := by
  have hfetched := Machine.upcoming_fetched hpc
  rw [step_eq]
  generalize p.machine.upcoming = next at hfetched ⊢
  cases hfetched with
  | beyond hbeyond =>
    constructor
    · rintro ⟨q, hq⟩
      cases hq
      exact .fetch hbeyond
    · rw [Machine.refuses_iff]
      rintro (⟨-, rfl⟩ | ⟨hle, -⟩ | ⟨hle, -⟩)
      · exact ⟨p, rfl⟩
      · omega
      · omega
  | zero hle hzero =>
    constructor
    · rintro ⟨q, hq⟩
      cases hq
    · intro hrefuses
      exact absurd hrefuses (Machine.not_refuses_of_zero hle hzero)
  | unknown hle hword hnone =>
    rw [Machine.refuses_iff_of_unknown hle hword hnone]
    constructor
    · rintro ⟨q, hq⟩
      cases hq
      rfl
    · rintro rfl
      exact ⟨p, rfl⟩
  | known hle hword hadmits hdecode =>
    rw [Machine.refuses_iff_of_known hle hadmits, ← Instruction.effect_eq_error_iff hi]
    constructor
    · rintro ⟨q, hq⟩
      rcases heffect : Instruction.effect _ p.draws.next p.machine with fault' | machine
      · simp only [heffect] at hq
        cases hq
        rfl
      · simp only [heffect] at hq
        cases hq
    · intro heffect
      simp only [heffect]
      exact ⟨_, rfl⟩

/-- A step that is not refused halts at an all-zero word and completes an
instruction at any other. -/
theorem step_of_not_refuses (hi : 0 ≤ p.machine.registers.i) (hpc : 0 ≤ p.machine.registers.pc)
    (hnot : ∀ fault, ¬ p.machine.Refuses fault) :
    (p.machine.word = 0 ∧ ∃ q, step p = .ok none q ∧ q.machine.halted = true) ∨
      (p.machine.word ≠ 0 ∧ ∃ ins q, Instruction.decode p.machine.word = .ok ins ∧
        step p = .ok (some ins) q) := by
  have hfetched := Machine.upcoming_fetched hpc
  rw [step_eq]
  generalize p.machine.upcoming = next at hfetched ⊢
  cases hfetched with
  | beyond hbeyond => exact absurd (.fetch hbeyond) (hnot _)
  | zero hle hzero => exact .inl ⟨hzero, _, rfl, rfl⟩
  | unknown hle hword hnone => exact absurd (.unknown hle hword hnone) (hnot _)
  | known hle hword hadmits hdecode =>
    rcases heffect : Instruction.effect _ p.draws.next p.machine with fault | machine
    · rw [Instruction.effect_eq_error_iff hi, ← Machine.refuses_iff_of_known hle hadmits] at heffect
      exact absurd heffect (hnot fault)
    · simp only [heffect]
      exact .inr ⟨hword, _, _, hdecode, rfl⟩

/-- **The exact faults of a step.** On a processor that can be reached, a step is
refused with a fault just when `Machine.Refuses` says so. Otherwise it halts at an
all-zero word, and at any other word it completes the instruction that the word is
decoded to. The one place where a number is put into a narrower one, the slot that
a call fills, loses nothing. -/
theorem Reachable.step_refused_iff (h : Reachable p) :
    (∀ fault, (∃ q, step p = .error fault q) ↔ p.machine.Refuses fault) ∧
    ((∀ fault, ¬ p.machine.Refuses fault) →
      (p.machine.word = 0 ∧ ∃ q, step p = .ok none q ∧ q.machine.halted = true) ∨
      (p.machine.word ≠ 0 ∧ ∃ ins q, Instruction.decode p.machine.word = .ok ins ∧
        step p = .ok (some ins) q)) ∧
    (p.machine.registers.pc ≤ 4094 →
      ((UInt16.ofNat p.machine.registers.pc.toNat).toNat : Int) = p.machine.registers.pc) := by
  have hi := h.bounded.registers.i_nonneg
  have hpc := h.bounded.registers.pc_nonneg
  exact ⟨step_eq_error_iff hi hpc, step_of_not_refuses hi hpc,
    fun hle => Registers.toNat_slot hpc (by omega)⟩

/-- A program that returns at once underflows the call stack. -/
theorem step_refused_of_return :
    let machine : Machine :=
      { Machine.initial with memory := Memory.blank.store Memory.programStart [0x00, 0xEE] }
    let p : Processor := .ofMachine machine (.ofSource fun _ => 0) (.new false)
    Reachable p ∧ ∃ q, step p = .error (.stackUnderflow 0x200) q := by
  intro machine p
  have h : Reachable p := .start (Machine.ofProgram_of_le (by decide)) _ _
  have hstored : p.machine.memory = Memory.blank.store Memory.programStart [0x00, 0xEE] := rfl
  have hword : p.machine.word = 0x00EE := Machine.word_of_store hstored rfl (by decide)
  have hpc : p.machine.registers.pc ≤ 4094 := by decide
  exact ⟨h, (h.step_refused_iff.1 _).mpr (.underflow hpc hword rfl)⟩

/-- **A refused step leaves no trace.** Whatever it was refused for, the machine,
the count of cycles and the draws are what they were. -/
theorem step_error {q : Processor} {fault : Fault} (h : step p = .error fault q) :
    q.machine = p.machine ∧ q.cycles = p.cycles ∧ q.draws = p.draws := by
  have hout := step_outcome p
  rw [h] at hout
  cases hout with
  | unavailable _ => exact ⟨rfl, rfl, rfl⟩
  | refused _ _ => exact ⟨rfl, rfl, rfl⟩

/-- A sprite that leaves memory is refused before the flag is cleared. -/
theorem step_error_of_sprite :
    let machine : Machine :=
      { Machine.initial with
        memory := Memory.blank.store Memory.programStart [0xD0, 0x1F]
        registers := { Registers.initial with i := 0xFFF, v := Vector.replicate 16 7 } }
    let p : Processor := .ofMachine machine (.ofSource fun _ => 0) (.new false)
    ∃ q, step p = .error (.memoryAccess 0xFFF 15) q ∧ q.machine.registers.v.get Registers.flag = 7 := by
  intro machine p
  have hstored : p.machine.memory = Memory.blank.store Memory.programStart [0xD0, 0x1F] := rfl
  have hword : p.machine.word = 0xD01F := Machine.word_of_store hstored rfl (by decide)
  have hrefuses : p.machine.Refuses (.memoryAccess 0xFFF 15) := by
    have hsprite := Machine.Refuses.sprite (m := p.machine) (by decide) (by rw [hword]) (by
      rw [hword]
      decide)
    rw [hword] at hsprite
    exact hsprite
  obtain ⟨q, hq⟩ := (step_eq_error_iff (by decide) (by decide) _).mpr hrefuses
  refine ⟨q, hq, ?_⟩
  rw [(step_error hq).1]
  rfl

end Processor

end ChipEight
