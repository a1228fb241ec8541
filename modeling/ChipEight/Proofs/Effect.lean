import ChipEight.Proofs.Registers

/-!
# Instructions as functions of the machine

`Processor.execute` gives an instruction its meaning as a sequence of small
changes that may stop at a fault. What most laws about instructions need is the
whole of it: which machine comes out of which. `Instruction.effect` says that as
a function of the machine and of the next random byte, and `Processor.execute_eq`
says that executing is just this function. Three things can be read off the
shape of that equation:

* a fault changes nothing at all, since the processor is handed back as it was;
* neither the log nor the count of cycles is touched;
* the draws are read at most once, and only by `Cxkk`.
-/

namespace ChipEight

open Execution

/-! ## Results of computations -/

section Results

variable {ε σ α β : Type}

/-- The state that a computation leaves behind, whether or not it was refused. -/
def after (act : EStateM ε σ α) (s : σ) : σ :=
  match act s with
  | .ok _ t => t
  | .error _ t => t

/-- A sequence of two computations, by the result of the first. -/
theorem bind_run (act : EStateM ε σ α) (next : α → EStateM ε σ β) (s : σ) :
    (act >>= next) s = match act s with
      | .ok a t => next a t
      | .error e t => .error e t := rfl

theorem get_run (s : σ) : (get : EStateM ε σ σ) s = .ok s s := rfl

theorem of_map_eq_ok {x : Except ε α} {f : α → β} {b : β} (h : x.map f = .ok b) :
    ∃ a, x = .ok a ∧ f a = b := by
  rcases x with e | a
  · cases h
  · exact ⟨a, rfl, Except.ok.inj h⟩

theorem of_map_eq_error {x : Except ε α} {f : α → β} {e : ε} (h : x.map f = .error e) :
    x = .error e := by
  rcases x with e' | a
  · exact congrArg _ (Except.error.inj h)
  · cases h

theorem of_toOption_eq_some {x : Except ε α} {a : α} (h : x.toOption = some a) : x = .ok a := by
  rcases x with e | b
  · cases h
  · exact congrArg _ (Option.some.inj h)

end Results

/-! ## What an instruction does -/

namespace Machine

/-- Replace the registers. -/
def withRegisters (m : Machine) (registers : Registers) : Machine := { m with registers }

theorem keypad_withRegisters (m : Machine) (r : Registers) : (m.withRegisters r).keypad = m.keypad :=
  rfl

theorem screen_withRegisters (m : Machine) (r : Registers) : (m.withRegisters r).screen = m.screen :=
  rfl

/-- Draw a sprite at the place that two registers give. The flag register is
cleared before they are read. -/
def drawn (m : Machine) (x y : Fin 16) (rows : List UInt8) : Machine :=
  let r := m.registers.setV Registers.flag 0
  let (hit, screen) :=
    m.screen.drawSprite (r.v.get x).toNat (r.v.get y).toNat (rows.map fun b => (b.toNat : Int))
  { m with screen, registers := if hit then r.setV Registers.flag 1 else r }

theorem pc_drawn (m : Machine) (x y : Fin 16) (rows : List UInt8) :
    (m.drawn x y rows).registers.pc = m.registers.pc := by
  simp only [drawn]
  split <;> rfl

end Machine

namespace Instruction

/-- The machine after an instruction, where `byte` is the next random byte. -/
def effect (ins : Instruction) (byte : UInt8) (m : Machine) : Except Fault Machine :=
  let r := m.registers
  let x := ins.x
  let y := ins.y
  match ins.opcode with
  | .clear => .ok { m with screen := m.screen.clear, registers := r.next }
  | .ret => r.pop.map fun (address, r) => m.withRegisters (r.goto (address.toNat + 2))
  | .sys => .ok (m.withRegisters r.next)
  | .jump => .ok (m.withRegisters (r.goto ins.nnn))
  | .call =>
    (r.push (UInt16.ofNat r.pc.toNat)).map fun r => m.withRegisters (r.goto ins.nnn)
  | .skipEqByte => .ok (m.withRegisters (r.skip (r.v.get x == ins.kk)))
  | .skipNeByte => .ok (m.withRegisters (r.skip (r.v.get x != ins.kk)))
  | .skipEqReg => .ok (m.withRegisters (r.skip (r.v.get x == r.v.get y)))
  | .loadByte => .ok (m.withRegisters (r.setV x ins.kk).next)
  | .addByte => .ok (m.withRegisters (r.setV x (r.v.get x + ins.kk)).next)
  | .loadReg => .ok (m.withRegisters (r.setV x (r.v.get y)).next)
  | .or => .ok (m.withRegisters (r.setV x (r.v.get x ||| r.v.get y)).next)
  | .and => .ok (m.withRegisters (r.setV x (r.v.get x &&& r.v.get y)).next)
  | .xor => .ok (m.withRegisters (r.setV x (r.v.get x ^^^ r.v.get y)).next)
  | .add =>
    let flag := if (r.v.get x).toNat + (r.v.get y).toNat > 0xFF then 0 else 1
    .ok (m.withRegisters ((r.setV Registers.flag flag).setV x (r.v.get x + r.v.get y)).next)
  | .sub =>
    let flag := if r.v.get x ≥ r.v.get y then 1 else 0
    .ok (m.withRegisters ((r.setV x (r.v.get x - r.v.get y)).setV Registers.flag flag).next)
  | .shiftRight =>
    let r := r.setV Registers.flag (r.v.get x &&& 1)
    .ok (m.withRegisters (r.setV x (r.v.get x >>> 1)).next)
  | .subFrom =>
    let flag := if r.v.get y ≥ r.v.get x then 1 else 0
    .ok (m.withRegisters ((r.setV Registers.flag flag).setV x (r.v.get y - r.v.get x)).next)
  | .shiftLeft =>
    let r := r.setV Registers.flag (r.v.get x &&& 0x80)
    .ok (m.withRegisters (r.setV x (r.v.get x <<< 1)).next)
  | .skipNeReg => .ok (m.withRegisters (r.skip (r.v.get x != r.v.get y)))
  | .loadIndex => .ok (m.withRegisters { r with i := ins.nnn }.next)
  | .jumpOffset => .ok (m.withRegisters (r.goto (ins.nnn + (r.v.get Registers.offset).toNat)))
  | .random => .ok (m.withRegisters (r.setV x (byte &&& ins.kk)).next)
  | .draw =>
    (m.memory.readBlock r.i ins.n.val).map fun rows =>
      (m.drawn x y rows).withRegisters (m.drawn x y rows).registers.next
  | .skipKeyDown =>
    (m.keypad.isDown (r.v.get x).toNat).map fun down => m.withRegisters (r.skip down)
  | .skipKeyUp =>
    (m.keypad.isDown (r.v.get x).toNat).map fun down => m.withRegisters (r.skip !down)
  | .readDelay => .ok (m.withRegisters (r.setV x r.delay).next)
  | .waitKey => .ok { m with keypad := m.keypad.await x.val, registers := r.next }
  | .setDelay => .ok (m.withRegisters { r with delay := r.v.get x }.next)
  | .setSound => .ok (m.withRegisters { r with sound := r.v.get x }.next)
  | .addIndex => .ok (m.withRegisters { r with i := (r.i + (r.v.get x).toNat) % 0x10000 }.next)
  | .glyph => .ok (m.withRegisters { r with i := (r.v.get x).toNat * Font.glyphSize }.next)
  | .decimal =>
    (m.memory.writeBytes r.i (decimalDigits (r.v.get x))).map fun memory =>
      { m with memory, registers := r.next }
  | .storeRegs =>
    (m.memory.writeBytes r.i (r.v.toList.take (x.val + 1))).map fun memory =>
      { m with memory, registers := r.next }
  | .loadRegs =>
    (m.memory.readBlock r.i (x.val + 1)).map fun bytes =>
      m.withRegisters (r.loadV bytes).next

/-- The draws after an instruction. -/
def drawsAfter (ins : Instruction) (draws : Draws) : Draws :=
  if ins.opcode = .random then draws.advance else draws

/-- One instruction takes a random byte, and the others take none. -/
theorem taken_drawsAfter (ins : Instruction) (draws : Draws) :
    (ins.drawsAfter draws).taken = draws.taken + if ins.opcode = .random then 1 else 0 := by
  rw [drawsAfter]
  by_cases hop : ins.opcode = .random
  · rw [if_pos hop, if_pos hop]
    rfl
  · rw [if_neg hop, if_neg hop]
    rfl

/-- Only the instruction that waits for a key touches the keypad. -/
theorem keypad_effect {ins : Instruction} {byte : UInt8} {m m' : Machine}
    (h : ins.opcode ≠ .waitKey) (heffect : ins.effect byte m = .ok m') : m'.keypad = m.keypad := by
  obtain ⟨word, opcode⟩ := ins
  cases opcode
  case waitKey => exact absurd rfl h
  case loadRegs =>
    obtain ⟨_, -, rfl⟩ := of_map_eq_ok heffect
    exact m.keypad_withRegisters _
  case ret | call | draw | skipKeyDown | skipKeyUp | decimal | storeRegs =>
    obtain ⟨_, -, rfl⟩ := of_map_eq_ok heffect
    rfl
  all_goals
    obtain rfl := Except.ok.inj heffect
    rfl

end Instruction

/-! ## Executing is the effect -/

namespace Processor

/-- The result of an operation that only looks at the machine, and what is done
with it. -/
theorem orFault_bind {α β : Type} (result : Except Fault α) (next : α → Execution β)
    (p : Processor) :
    (orFault result >>= next) p = match result with
      | .ok a => next a p
      | .error fault => .error fault p := by
  cases result <;> rfl

theorem keyDown_run (x : Fin 16) (p : Processor) :
    keyDown x p = orFault (p.machine.keypad.isDown (p.machine.registers.v.get x).toNat) p := by
  simp only [keyDown, bind_run, getV_run, get_run]

theorem writeAtI_run (bytes : List UInt8) (p : Processor) :
    writeAtI bytes p = match p.machine.memory.writeBytes p.machine.registers.i bytes with
      | .ok memory => .ok () { p with machine := { p.machine with memory } }
      | .error fault => .error fault p := by
  rw [writeAtI, bind_run, get_run]
  refine (orFault_bind (p.machine.memory.writeBytes p.machine.registers.i bytes) _ p).trans ?_
  cases p.machine.memory.writeBytes p.machine.registers.i bytes <;> rfl

theorem showSprite_run (hit : Bool) (screen : Screen) (p : Processor) :
    (do modifyMachine fun m => { m with screen }
        if hit then setV Registers.flag 1 : Execution Unit) p =
      .ok () { p with machine := { p.machine with
        screen
        registers :=
          if hit then p.machine.registers.setV Registers.flag 1 else p.machine.registers } } := by
  cases hit <;> rfl

theorem drawSprite_run (x y n : Fin 16) (p : Processor) :
    drawSprite x y n p = match p.machine.memory.readBlock p.machine.registers.i n.val with
      | .ok rows => .ok () { p with machine := p.machine.drawn x y rows }
      | .error fault => .error fault p := by
  rw [drawSprite, bind_run, get_run]
  refine (orFault_bind (p.machine.memory.readBlock p.machine.registers.i n.val) _ p).trans ?_
  cases p.machine.memory.readBlock p.machine.registers.i n.val with
  | error fault => rfl
  | ok rows => exact showSprite_run _ _ _

/-- **Executing an instruction is its effect on the machine.** A fault leaves the
processor as it was. -/
theorem execute_eq (ins : Instruction) (p : Processor) :
    execute ins p = match ins.effect p.draws.next p.machine with
      | .ok machine => .ok () { p with machine, draws := ins.drawsAfter p.draws }
      | .error fault => .error fault p := by
  obtain ⟨word, opcode⟩ := ins
  cases opcode
  case ret =>
    refine (orFault_bind p.machine.registers.pop _ p).trans ?_
    rw [Instruction.effect]
    cases p.machine.registers.pop <;> rfl
  case call =>
    refine (orFault_bind (p.machine.registers.push _) _ p).trans ?_
    rw [Instruction.effect]
    cases p.machine.registers.push (UInt16.ofNat p.machine.registers.pc.toNat) <;> rfl
  case draw =>
    refine (bind_run (drawSprite _ _ _) _ p).trans ?_
    rw [drawSprite_run, Instruction.effect]
    cases p.machine.memory.readBlock p.machine.registers.i _ <;> rfl
  case skipKeyDown =>
    refine (bind_run (keyDown _) _ p).trans ?_
    rw [keyDown_run, Instruction.effect]
    cases p.machine.keypad.isDown _ <;> rfl
  case skipKeyUp =>
    refine (bind_run (keyDown _) _ p).trans ?_
    rw [keyDown_run, Instruction.effect]
    cases p.machine.keypad.isDown _ <;> rfl
  case decimal =>
    refine (bind_run (writeAtI _) _ p).trans ?_
    rw [writeAtI_run, Instruction.effect]
    cases p.machine.memory.writeBytes p.machine.registers.i _ <;> rfl
  case storeRegs =>
    refine (bind_run (writeAtI _) _ p).trans ?_
    rw [writeAtI_run, Instruction.effect]
    cases p.machine.memory.writeBytes p.machine.registers.i _ <;> rfl
  case loadRegs =>
    refine (orFault_bind (p.machine.memory.readBlock _ _) _ p).trans ?_
    rw [Instruction.effect]
    cases p.machine.memory.readBlock p.machine.registers.i _ <;> rfl
  -- where no fault can arise, both sides compute to the same state
  all_goals rfl

end Processor

end ChipEight
