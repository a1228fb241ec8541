import ChipEight.Proofs.Calls
import ChipEight.Proofs.Refusal

/-!
# What an instruction writes

A machine is made of parts (`Part`), and `Machine.Same` says that a part of two machines
is the same; when all parts are, the machines are (`Machine.eq_of_same`). Each instruction
has a set of parts that it may write (`Instruction.Writes`), which is read off its opcode,
its operands and the address register, and it leaves every other part as it was
(`Instruction.keeps_effect`). What it puts into memory, onto the call stack and into the
address register is said by `Instruction.Stores`.

The proof goes by the small changes that instructions are made of: a change of one part
keeps all others, and an instruction makes its changes one after the other.
-/

namespace ChipEight

/-- The parts of a machine. -/
inductive Part where
  | byte (address : Fin 4096)
  | pixels
  /-- the mark of the screen that it was touched -/
  | mark
  /-- a byte register -/
  | v (k : Fin 16)
  /-- the address register -/
  | index
  /-- the program counter -/
  | counter
  /-- a slot of the call stack -/
  | slot (k : Fin 16)
  /-- how many slots are in use -/
  | depth
  | delay
  | sound
  | key (k : Fin 16)
  /-- whether a key is awaited -/
  | waiting
  /-- the register that the awaited key goes to -/
  | register
  | halted

namespace Machine

/-- A part of two machines is the same. -/
def Same (m m' : Machine) : Part → Prop
  | .byte address => m'.memory.byteAt address.val = m.memory.byteAt address.val
  | .pixels => m'.screen.pixels = m.screen.pixels
  | .mark => m'.screen.dirty = m.screen.dirty
  | .v k => m'.registers.v.get k = m.registers.v.get k
  | .index => m'.registers.i = m.registers.i
  | .counter => m'.registers.pc = m.registers.pc
  | .slot k => m'.registers.stack.slots.get k = m.registers.stack.slots.get k
  | .depth => m'.registers.stack.depth = m.registers.stack.depth
  | .delay => m'.registers.delay = m.registers.delay
  | .sound => m'.registers.sound = m.registers.sound
  | .key k => m'.keypad.down.get k = m.keypad.down.get k
  | .waiting => m'.keypad.waiting = m.keypad.waiting
  | .register => m'.keypad.register = m.keypad.register
  | .halted => m'.halted = m.halted

end Machine

/-- Cells with the same contents are the same. -/
theorem eq_of_get {α : Type} {n : Nat} {cells cells' : Vector α n}
    (h : ∀ k, cells'.get k = cells.get k) : cells' = cells :=
  Vector.ext fun k hk => h ⟨k, hk⟩

theorem Memory.get_eq_byteAt (m : Memory) (address : Fin 4096) :
    m.bytes.get address = m.byteAt address.val := by
  simp [byteAt, get_eq_getElem]

/-- Memories with the same bytes are the same. -/
theorem Memory.eq_of_byteAt {m m' : Memory}
    (h : ∀ place : Fin 4096, m'.byteAt place.val = m.byteAt place.val) : m' = m := by
  have hbytes : m'.bytes = m.bytes := by
    refine eq_of_get fun place => ?_
    rw [get_eq_byteAt, get_eq_byteAt]
    exact h place
  exact congrArg Memory.mk hbytes

/-- There is nothing more to a machine than its parts. -/
theorem Machine.eq_of_same {m m' : Machine} (h : ∀ part, m.Same m' part) : m' = m := by
  have hmemory := Memory.eq_of_byteAt fun address => h (.byte address)
  have hv := eq_of_get fun k => h (.v k)
  have hslots := eq_of_get fun k => h (.slot k)
  have hdown := eq_of_get fun k => h (.key k)
  obtain ⟨⟨bytes⟩, ⟨v, i, pc, ⟨slots, depth, hle⟩, delay, sound⟩, ⟨pixels, dirty⟩,
    ⟨down, waiting, register⟩, halted⟩ := m
  obtain ⟨⟨bytes'⟩, ⟨v', i', pc', ⟨slots', depth', hle'⟩, delay', sound'⟩, ⟨pixels', dirty'⟩,
    ⟨down', waiting', register'⟩, halted'⟩ := m'
  obtain rfl : bytes' = bytes := congrArg Memory.bytes hmemory
  obtain rfl : v' = v := hv
  obtain rfl : i' = i := h .index
  obtain rfl : pc' = pc := h .counter
  obtain rfl : slots' = slots := hslots
  obtain rfl : depth' = depth := h .depth
  obtain rfl : delay' = delay := h .delay
  obtain rfl : sound' = sound := h .sound
  obtain rfl : pixels' = pixels := h .pixels
  obtain rfl : dirty' = dirty := h .mark
  obtain rfl : down' = down := hdown
  obtain rfl : waiting' = waiting := h .waiting
  obtain rfl : register' = register := h .register
  obtain rfl : halted' = halted := h .halted
  rfl

/-! ## Changes of a machine -/

namespace Machine

/-- A machine changes in the given parts only. -/
def Keeps (written : Part → Prop) (m m' : Machine) : Prop :=
  ∀ part, ¬ written part → m.Same m' part

namespace Keeps

variable {written : Part → Prop} {m m' : Machine}

theorem refl (m : Machine) : Keeps written m m := by
  intro part _
  cases part <;> rfl

theorem goto (h : Keeps written m m') (hcounter : written .counter) (address : Int) :
    Keeps written m (m'.withRegisters (m'.registers.goto address)) := by
  intro part hpart
  have hsame := h part hpart
  cases part
  case counter => exact absurd hcounter hpart
  all_goals exact hsame

theorem next (h : Keeps written m m') (hcounter : written .counter) :
    Keeps written m (m'.withRegisters m'.registers.next) :=
  h.goto hcounter (m'.registers.pc + 2)

theorem skip (h : Keeps written m m') (hcounter : written .counter) (skipped : Bool) :
    Keeps written m (m'.withRegisters (m'.registers.skip skipped)) :=
  h.goto hcounter (m'.registers.pc + if skipped then 4 else 2)

/-- New byte registers change in the given ones only. -/
theorem withV (h : Keeps written m m') {v : Vector UInt8 16}
    (hv : ∀ k, ¬ written (.v k) → v.get k = m'.registers.v.get k) :
    Keeps written m (m'.withRegisters { m'.registers with v }) := by
  intro part hpart
  have hsame := h part hpart
  cases part
  case v k => exact (hv k hpart).trans hsame
  all_goals exact hsame

theorem setV (h : Keeps written m m') {k : Fin 16} (hk : written (.v k)) (value : UInt8) :
    Keeps written m (m'.withRegisters (m'.registers.setV k value)) := by
  refine h.withV fun j hj => ?_
  have hne : k ≠ j := by
    rintro rfl
    exact hj hk
  rw [get_fill, if_neg hne]

theorem loadV (h : Keeps written m m') {bytes : List UInt8}
    (hbytes : ∀ k : Fin 16, k.val < bytes.length → written (.v k)) :
    Keeps written m (m'.withRegisters (m'.registers.loadV bytes)) := by
  rw [Registers.loadV]
  refine h.withV fun k hk => ?_
  have hbeyond : bytes.length ≤ k.val := Nat.not_lt.mp fun hlt => hk (hbytes k hlt)
  simp [get_eq_getElem, List.getElem?_eq_none hbeyond]

theorem setIndex (h : Keeps written m m') (hindex : written .index) (i : Int) :
    Keeps written m (m'.withRegisters { m'.registers with i }) := by
  intro part hpart
  have hsame := h part hpart
  cases part
  case index => exact absurd hindex hpart
  all_goals exact hsame

theorem setDelay (h : Keeps written m m') (hdelay : written .delay) (delay : UInt8) :
    Keeps written m (m'.withRegisters { m'.registers with delay }) := by
  intro part hpart
  have hsame := h part hpart
  cases part
  case delay => exact absurd hdelay hpart
  all_goals exact hsame

theorem setSound (h : Keeps written m m') (hsound : written .sound) (sound : UInt8) :
    Keeps written m (m'.withRegisters { m'.registers with sound }) := by
  intro part hpart
  have hsame := h part hpart
  cases part
  case sound => exact absurd hsound hpart
  all_goals exact hsame

/-- A push changes the first free slot and the depth. -/
theorem push (h : Keeps written m m') (hdepth : written .depth)
    (hslot : ∀ k : Fin 16, m'.registers.stack.depth = k → written (.slot k)) {address : UInt16}
    {r : Registers} (hpush : m'.registers.push address = .ok r) :
    Keeps written m (m'.withRegisters r) := by
  obtain ⟨k, hfree, hslots, -, hr⟩ := Registers.of_push_eq_ok hpush
  intro part hpart
  have hsame := h part hpart
  rw [hr]
  cases part
  case depth => exact absurd hdepth hpart
  case slot j =>
    have hne : k ≠ j := by
      rintro rfl
      exact hpart (hslot k hfree)
    show r.stack.slots.get j = m.registers.stack.slots.get j
    rw [hslots, get_fill, if_neg hne]
    exact hsame
  all_goals exact hsame

/-- A pop changes the depth. -/
theorem pop (h : Keeps written m m') (hdepth : written .depth) {address : UInt16}
    {r : Registers} (hpop : m'.registers.pop = .ok (address, r)) :
    Keeps written m (m'.withRegisters r) := by
  obtain ⟨k, -, -, hslots, -, hr⟩ := Registers.of_pop_eq_ok hpop
  intro part hpart
  have hsame := h part hpart
  rw [hr]
  cases part
  case depth => exact absurd hdepth hpart
  case slot j =>
    show r.stack.slots.get j = m.registers.stack.slots.get j
    rw [hslots]
    exact hsame
  all_goals exact hsame

theorem setScreen (h : Keeps written m m') (hpixels : written .pixels) (hmark : written .mark)
    (screen : Screen) : Keeps written m { m' with screen } := by
  intro part hpart
  have hsame := h part hpart
  cases part
  case pixels => exact absurd hpixels hpart
  case mark => exact absurd hmark hpart
  all_goals exact hsame

theorem await (h : Keeps written m m') (hwaiting : written .waiting)
    (hregister : written .register) (register : Int) :
    Keeps written m { m' with keypad := m'.keypad.await register } := by
  intro part hpart
  have hsame := h part hpart
  cases part
  case waiting => exact absurd hwaiting hpart
  case register => exact absurd hregister hpart
  all_goals exact hsame

/-- A write changes the bytes from its address on. -/
theorem writeBytes (h : Keeps written m m') {address : Int} {values : List UInt8}
    (hbytes : ∀ place : Fin 4096, address ≤ place.val → place.val < address + values.length →
      written (.byte place)) {memory : Memory}
    (hwrite : m'.memory.writeBytes address values = .ok memory) :
    Keeps written m { m' with memory } := by
  obtain ⟨start, rfl, -, hbyteAt⟩ := Memory.byteAt_of_writeBytes hwrite
  intro part hpart
  have hsame := h part hpart
  cases part
  case byte place =>
    have houtside : ¬ (start ≤ place.val ∧ place.val < start + values.length) := by
      rintro ⟨hlow, hhigh⟩
      exact hpart (hbytes place (by omega) (by omega))
    refine Eq.trans ?_ hsame
    rw [hbyteAt, if_neg houtside]
  all_goals exact hsame

/-- Drawing a sprite changes the screen and the flag. -/
theorem drawn (h : Keeps written m m') (hpixels : written .pixels) (hmark : written .mark)
    (hflag : written (.v Registers.flag)) (x y : Fin 16) (rows : List UInt8) :
    Keeps written m (m'.drawn x y rows) := by
  simp only [Machine.drawn]
  split
  · exact ((h.setV hflag 0).setV hflag 1).setScreen hpixels hmark _
  · exact (h.setV hflag 0).setScreen hpixels hmark _

end Keeps

end Machine

/-! ## Instructions -/

namespace Opcode

/-- The opcodes that leave a result in register `x`. -/
def resultIn : List Opcode :=
  [loadByte, addByte, loadReg, or, and, xor, add, sub, shiftRight, subFrom, shiftLeft, random,
    readDelay]

/-- The opcodes that leave something in the flag register. -/
def flagging : List Opcode := [add, sub, shiftRight, subFrom, shiftLeft, draw]

end Opcode

namespace Instruction

/-- The parts of a machine that an instruction may write. -/
def Writes (ins : Instruction) (m : Machine) : Part → Prop
  | .byte address =>
    (ins.opcode = .decimal ∧ m.registers.i ≤ address.val ∧ address.val ≤ m.registers.i + 2) ∨
      (ins.opcode = .storeRegs ∧ m.registers.i ≤ address.val ∧
        address.val ≤ m.registers.i + ins.x.val)
  | .pixels | .mark => ins.opcode = .clear ∨ ins.opcode = .draw
  | .v k =>
    (ins.opcode ∈ Opcode.resultIn ∧ k = ins.x) ∨
      (ins.opcode ∈ Opcode.flagging ∧ k = Registers.flag) ∨
      (ins.opcode = .loadRegs ∧ k ≤ ins.x)
  | .index => ins.opcode = .loadIndex ∨ ins.opcode = .addIndex ∨ ins.opcode = .glyph
  | .counter => True
  | .slot k => ins.opcode = .call ∧ k.val = m.registers.stack.depth
  | .depth => ins.opcode = .call ∨ ins.opcode = .ret
  | .delay => ins.opcode = .setDelay
  | .sound => ins.opcode = .setSound
  | .waiting | .register => ins.opcode = .waitKey
  | .key _ | .halted => False

variable {ins : Instruction} {byte : UInt8} {m m' : Machine}

theorem writes_x (h : ins.opcode ∈ Opcode.resultIn) : ins.Writes m (.v ins.x) := .inl ⟨h, rfl⟩

theorem writes_flag (h : ins.opcode ∈ Opcode.flagging) : ins.Writes m (.v Registers.flag) :=
  .inr (.inl ⟨h, rfl⟩)

/-- An instruction changes the parts that it may write, and no others. -/
theorem keeps_effect (heffect : ins.effect byte m = .ok m') : m.Keeps (ins.Writes m) m' := by
  have hkeeps : m.Keeps (ins.Writes m) m := .refl m
  have hcounter : ins.Writes m .counter := trivial
  obtain ⟨word, opcode⟩ := ins
  cases opcode
  case loadByte | addByte | loadReg | or | and | xor | random | readDelay =>
    obtain rfl := Except.ok.inj heffect
    exact (hkeeps.setV (writes_x (by simp [Opcode.resultIn])) _).next hcounter
  case add | shiftRight | subFrom | shiftLeft =>
    obtain rfl := Except.ok.inj heffect
    exact ((hkeeps.setV (writes_flag (by simp [Opcode.flagging])) _).setV
      (writes_x (by simp [Opcode.resultIn])) _).next hcounter
  case sub =>
    obtain rfl := Except.ok.inj heffect
    exact ((hkeeps.setV (writes_x (by simp [Opcode.resultIn])) _).setV
      (writes_flag (by simp [Opcode.flagging])) _).next hcounter
  case sys =>
    obtain rfl := Except.ok.inj heffect
    exact hkeeps.next hcounter
  case jump | jumpOffset =>
    obtain rfl := Except.ok.inj heffect
    exact hkeeps.goto hcounter _
  case skipEqByte | skipNeByte | skipEqReg | skipNeReg =>
    obtain rfl := Except.ok.inj heffect
    exact hkeeps.skip hcounter _
  case skipKeyDown | skipKeyUp =>
    obtain ⟨down, -, rfl⟩ := of_map_eq_ok heffect
    exact hkeeps.skip hcounter _
  case loadIndex =>
    obtain rfl := Except.ok.inj heffect
    exact (hkeeps.setIndex (.inl rfl) (nnn ⟨word, .loadIndex⟩)).next hcounter
  case addIndex =>
    obtain rfl := Except.ok.inj heffect
    exact (hkeeps.setIndex (.inr (.inl rfl)) ((m.registers.i + _) % 0x10000)).next hcounter
  case glyph =>
    obtain rfl := Except.ok.inj heffect
    exact (hkeeps.setIndex (.inr (.inr rfl)) (_ * Font.glyphSize)).next hcounter
  case setDelay =>
    obtain rfl := Except.ok.inj heffect
    exact (hkeeps.setDelay rfl (m.registers.v.get _)).next hcounter
  case setSound =>
    obtain rfl := Except.ok.inj heffect
    exact (hkeeps.setSound rfl (m.registers.v.get _)).next hcounter
  case clear =>
    obtain rfl := Except.ok.inj heffect
    exact (hkeeps.setScreen (.inl rfl) (.inl rfl) m.screen.clear).next hcounter
  case draw =>
    obtain ⟨rows, -, rfl⟩ := of_map_eq_ok heffect
    exact (hkeeps.drawn (.inr rfl) (.inr rfl) (writes_flag (by simp [Opcode.flagging])) _ _
      rows).next hcounter
  case waitKey =>
    obtain rfl := Except.ok.inj heffect
    exact (hkeeps.await rfl rfl _).next hcounter
  case ret =>
    obtain ⟨⟨address, r⟩, hpop, rfl⟩ := of_map_eq_ok heffect
    exact (hkeeps.pop (.inr rfl) hpop).goto hcounter _
  case call =>
    obtain ⟨r, hpush, rfl⟩ := of_map_eq_ok heffect
    exact (hkeeps.push (.inl rfl) (fun k hk => ⟨rfl, hk.symm⟩) hpush).goto hcounter _
  case decimal =>
    obtain ⟨memory, hwrite, rfl⟩ := of_map_eq_ok heffect
    refine (hkeeps.writeBytes (fun place hlow hhigh => .inl ⟨rfl, hlow, ?_⟩) hwrite).next hcounter
    rw [decimalDigits, List.length_cons, List.length_cons, List.length_singleton] at hhigh
    omega
  case storeRegs =>
    obtain ⟨memory, hwrite, rfl⟩ := of_map_eq_ok heffect
    refine (hkeeps.writeBytes (fun place hlow hhigh => .inr ⟨rfl, hlow, ?_⟩) hwrite).next hcounter
    rw [List.length_take] at hhigh
    omega
  case loadRegs =>
    obtain ⟨bytes, hread, rfl⟩ := of_map_eq_ok heffect
    have hlength := Memory.length_readBlock (by omega) hread
    have hwrites : ∀ k : Fin 16, k.val < bytes.length → Writes ⟨word, .loadRegs⟩ m (.v k) :=
      fun k hk => .inr (.inr ⟨rfl, Fin.le_def.mpr (by omega)⟩)
    have hloaded := hkeeps.loadV hwrites
    generalize m.registers.loadV bytes = r at hloaded ⊢
    exact hloaded.next hcounter

/-- What an instruction puts into the memory, onto the call stack and into the address
register. -/
structure Stores (ins : Instruction) (m m' : Machine) : Prop where
  /-- three decimal digits of a byte, the most significant first -/
  decimal : ins.opcode = .decimal → ∃ start : Nat, m.registers.i = start ∧ start + 2 < 4096 ∧
    (m'.memory.byteAt start).toNat ≤ 9 ∧ (m'.memory.byteAt (start + 1)).toNat ≤ 9 ∧
    (m'.memory.byteAt (start + 2)).toNat ≤ 9 ∧
    (m'.memory.byteAt start).toNat * 100 + (m'.memory.byteAt (start + 1)).toNat * 10 +
      (m'.memory.byteAt (start + 2)).toNat = (m.registers.v.get ins.x).toNat
  storeRegs : ins.opcode = .storeRegs → ∃ start : Nat, m.registers.i = start ∧
    start + ins.x.val < 4096 ∧
    ∀ k ≤ ins.x, m'.memory.byteAt (start + k.val) = m.registers.v.get k
  /-- the whole address of the call goes into the first free slot -/
  call : ins.opcode = .call → ∃ k : Fin 16, m.registers.stack.depth = k ∧
    ((m'.registers.stack.slots.get k).toNat : Int) = m.registers.pc ∧
    m'.registers.stack.depth = k + 1
  ret : ins.opcode = .ret → m.registers.stack.depth = m'.registers.stack.depth + 1
  addIndex : ins.opcode = .addIndex →
    m'.registers.i = (m.registers.i + (m.registers.v.get ins.x).toNat) % 0x10000

/-- The decimal digits of a byte stand for it. -/
theorem decimalDigits_spec (value : UInt8) : ∃ hundreds tens ones : UInt8,
    decimalDigits value = [hundreds, tens, ones] ∧ hundreds.toNat ≤ 9 ∧ tens.toNat ≤ 9 ∧
      ones.toNat ≤ 9 ∧ hundreds.toNat * 100 + tens.toNat * 10 + ones.toNat = value.toNat := by
  have hlt := value.toNat_lt
  refine ⟨_, _, _, rfl, ?_⟩
  simp only [UInt8.toNat_div, UInt8.toNat_mod, UInt8.reduceToNat]
  omega

theorem stores_decimal (hop : ins.opcode = .decimal) (heffect : ins.effect byte m = .ok m') :
    ∃ start : Nat, m.registers.i = start ∧ start + 2 < 4096 ∧
      (m'.memory.byteAt start).toNat ≤ 9 ∧ (m'.memory.byteAt (start + 1)).toNat ≤ 9 ∧
      (m'.memory.byteAt (start + 2)).toNat ≤ 9 ∧
      (m'.memory.byteAt start).toNat * 100 + (m'.memory.byteAt (start + 1)).toNat * 10 +
        (m'.memory.byteAt (start + 2)).toNat = (m.registers.v.get ins.x).toNat := by
  obtain ⟨word, opcode⟩ := ins
  obtain rfl : opcode = .decimal := hop
  obtain ⟨memory, hwrite, rfl⟩ := of_map_eq_ok heffect
  obtain ⟨hundreds, tens, ones, hdigits, hspec⟩ :=
    decimalDigits_spec (m.registers.v.get (x ⟨word, .decimal⟩))
  rw [hdigits] at hwrite
  obtain ⟨start, hstart, hfits, hbyteAt⟩ := Memory.byteAt_of_writeBytes hwrite
  have hfirst : memory.byteAt start = hundreds := by simp [hbyteAt]
  have hsecond : memory.byteAt (start + 1) = tens := by simp [hbyteAt]
  have hthird : memory.byteAt (start + 2) = ones := by simp [hbyteAt]
  refine ⟨start, hstart, hfits, ?_⟩
  simp only [hfirst, hsecond, hthird]
  exact hspec

theorem stores_registers (hop : ins.opcode = .storeRegs) (heffect : ins.effect byte m = .ok m') :
    ∃ start : Nat, m.registers.i = start ∧ start + ins.x.val < 4096 ∧
      ∀ k ≤ ins.x, m'.memory.byteAt (start + k.val) = m.registers.v.get k := by
  obtain ⟨word, opcode⟩ := ins
  obtain rfl : opcode = .storeRegs := hop
  obtain ⟨memory, hwrite, rfl⟩ := of_map_eq_ok heffect
  obtain ⟨start, hstart, hfits, hbyteAt⟩ := Memory.byteAt_of_writeBytes hwrite
  have hx := (x ⟨word, .storeRegs⟩).isLt
  have hlength : (m.registers.v.toList.take ((x ⟨word, .storeRegs⟩).val + 1)).length =
      (x ⟨word, .storeRegs⟩).val + 1 := by
    rw [List.length_take, Vector.length_toList]
    omega
  rw [hlength] at hfits hbyteAt
  refine ⟨start, hstart, by omega, fun k hk => ?_⟩
  have hle := Fin.le_def.mp hk
  show memory.byteAt _ = _
  rw [hbyteAt, if_pos (by omega), Nat.add_sub_cancel_left, List.getElem?_take_of_lt (by omega)]
  simp [get_eq_getElem]

/-- What is stored is the program counter itself, for a word was fetched there. -/
theorem stores_call (hop : ins.opcode = .call) (hlow : 0 ≤ m.registers.pc)
    (hhigh : m.registers.pc ≤ 4094) (heffect : ins.effect byte m = .ok m') :
    ∃ k : Fin 16, m.registers.stack.depth = k ∧
      ((m'.registers.stack.slots.get k).toNat : Int) = m.registers.pc ∧
      m'.registers.stack.depth = k + 1 := by
  obtain ⟨k, hdepth, hslots, hdepth'⟩ := effect_call hop heffect
  refine ⟨k, hdepth, ?_, hdepth'⟩
  rw [hslots, get_fill, if_pos rfl]
  exact Registers.toNat_slot hlow (by omega)

theorem stores_effect (hlow : 0 ≤ m.registers.pc) (hhigh : m.registers.pc ≤ 4094)
    (heffect : ins.effect byte m = .ok m') : ins.Stores m m' where
  decimal := fun hop => stores_decimal hop heffect
  storeRegs := fun hop => stores_registers hop heffect
  call := fun hop => stores_call hop hlow hhigh heffect
  ret := by
    intro hop
    obtain ⟨k, hdepth, -, -, hdepth'⟩ := effect_ret hop heffect
    omega
  addIndex := by
    intro hop
    obtain ⟨word, opcode⟩ := ins
    obtain rfl : opcode = .addIndex := hop
    obtain rfl := Except.ok.inj heffect
    rfl

end Instruction

/-! ## Steps -/

namespace Processor

variable {p q : Processor}

/-- What a step that is not refused changes, by what it comes to. -/
inductive Changes (p q : Processor) : Option Instruction → Prop
  /-- the word zero halts the machine and changes nothing else -/
  | halts (hword : p.machine.word = 0) (hmachine : q.machine = { p.machine with halted := true })
    (hdraws : q.draws = p.draws) (hcycles : q.cycles = p.cycles) : Changes p q none
  /-- an instruction changes what it writes -/
  | completes {ins : Instruction} (hnonzero : p.machine.word ≠ 0)
    (hword : ins.word = p.machine.word) (hadmits : ins.opcode.Admits p.machine.word)
    (hkeeps : ∀ part, ¬ ins.Writes p.machine part → p.machine.Same q.machine part)
    (hstores : ins.Stores p.machine q.machine)
    (hdraws : q.draws = if ins.opcode = .random then p.draws.advance else p.draws)
    (htaken : q.draws.taken = p.draws.taken + if ins.opcode = .random then 1 else 0)
    (hcycles : q.cycles = p.cycles + 1) : Changes p q (some ins)

/-- **What a step changes.** A step that is not refused either halts the machine at the
word zero, and does nothing else, or it completes the instruction of the word. Of the
parts of the machine it then changes only those that the instruction may write, and it
counts one cycle, and it takes one random byte if the instruction calls for one, and else
none. -/
theorem changes_step {next : Option Instruction} (h : step p = .ok next q) : p.Changes q next := by
  have hout := step_outcome p
  rw [h] at hout
  cases hout with
  | halts hup =>
    obtain ⟨-, -, hword⟩ := Machine.word_of_upcoming hup
    exact .halts hword rfl rfl rfl
  | completes hup heffect =>
    obtain ⟨hlow, hhigh, hnonzero, hword, hadmits⟩ := Machine.word_of_upcoming hup
    exact .completes hnonzero hword hadmits (Instruction.keeps_effect heffect)
      (Instruction.stores_effect hlow hhigh heffect) rfl (Instruction.taken_drawsAfter _ _) rfl

/-- `F155` stores two registers and leaves the other bytes and the address register alone. -/
theorem changes_step_of_store :
    let machine : Machine :=
      { Machine.initial with
        memory := Memory.blank.store Memory.programStart [0xF1, 0x55]
        registers := { Registers.initial with i := 0x300, v := Vector.replicate 16 7 } }
    let p : Processor := .ofMachine machine (.ofSource fun _ => 0) (.new false)
    ∃ q, step p = .ok (some ⟨0xF155, .storeRegs⟩) q ∧
      q.machine.memory.byteAt 0x300 = 7 ∧ q.machine.memory.byteAt 0x301 = 7 ∧
      (∀ address : Fin 4096, address.val < 0x300 ∨ 0x301 < address.val →
        q.machine.memory.byteAt address.val = p.machine.memory.byteAt address.val) ∧
      q.machine.registers.i = 0x300 ∧ q.cycles = 1 := by
  intro machine p
  have hdone : p.completedBy .step = some ⟨0xF155, .storeRegs⟩ := by decide +kernel
  have hstep := step_of_completedBy hdone
  refine ⟨p.act .step, hstep, ?_⟩
  generalize p.act .step = q at hstep
  have hchanges := changes_step hstep
  cases hchanges with
  | completes _ _ _ hkeeps hstores _ _ hcycles =>
    obtain ⟨start, hstart, -, hbytes⟩ := hstores.storeRegs rfl
    obtain rfl : start = 0x300 := Int.ofNat.inj hstart.symm
    refine ⟨hbytes 0 (by decide), hbytes 1 (by decide), fun address houtside => ?_,
      hkeeps .index (by simp [Instruction.Writes]), hcycles⟩
    refine hkeeps (.byte address) ?_
    rintro (⟨hop, -⟩ | ⟨-, hlow, hhigh⟩)
    · cases hop
    · have hi : p.machine.registers.i = 0x300 := rfl
      have hx : (Instruction.x ⟨0xF155, .storeRegs⟩).val = 1 := by decide
      rw [hi] at hlow hhigh
      rw [hx] at hhigh
      omega

end Processor

end ChipEight
