import ChipEight.Instruction
import ChipEight.Processor.Basic

/-!
# What instructions do

`execute` gives each opcode its meaning. The order of the steps matters where
operands coincide. The flag is written after the result by `8xy5` and before it
by the other arithmetic, so when `x` is the flag register the last one written
stays; and the two shifts read their operand again after the flag was written,
so on the flag register they shift the flag.

`Dxyn` reads its bytes before it touches anything, clears the flag, and only
then reads its coordinates, so a coordinate in the flag register counts as zero.
-/

namespace ChipEight

open Execution

/-- The three decimal digits of a byte. -/
def decimalDigits (value : UInt8) : List UInt8 :=
  [value / 100, value / 10 % 10, value % 10]

/-- The registers after as many of them as there are bytes were loaded. -/
def Registers.loadV (r : Registers) (bytes : List UInt8) : Registers :=
  { r with v := Vector.ofFn fun k : Fin 16 => bytes[k.val]?.getD (r.v.get k) }

namespace Processor

/-- Draw a sprite of `n` rows, at the place that two registers give. -/
def drawSprite (x y n : Fin 16) : Execution Unit := do
  let m := (← get).machine
  let rows ← orFault (m.memory.readBlock m.registers.i n.val)
  setV Registers.flag 0
  let column := (← getV x).toNat
  let row := (← getV y).toNat
  let screen := (← get).machine.screen
  let (hit, screen) := screen.drawSprite column row (rows.map fun b => (b.toNat : Int))
  modifyMachine fun m => { m with screen }
  if hit then
    setV Registers.flag 1

/-- Whether the key whose number is in a register is down. -/
def keyDown (x : Fin 16) : Execution Bool := do
  let number := (← getV x).toNat
  let keypad := (← get).machine.keypad
  orFault (keypad.isDown number)

/-- Write bytes to memory from the address register on. -/
def writeAtI (bytes : List UInt8) : Execution Unit := do
  let m := (← get).machine
  let memory ← orFault (m.memory.writeBytes m.registers.i bytes)
  modifyMachine fun m => { m with memory }

/-- Carry out a decoded instruction. -/
def execute (ins : Instruction) : Execution Unit := do
  let x := ins.x
  let y := ins.y
  match ins.opcode with
  | .clear =>
    modifyMachine fun m => { m with screen := m.screen.clear }
    advance
  | .ret =>
    let (address, r) ← orFault (← registers).pop
    modifyRegisters fun _ => r
    jump (address.toNat + 2)
  | .sys => advance
  | .jump => jump ins.nnn
  | .call =>
    let r ← registers
    let r ← orFault (r.push (UInt16.ofNat r.pc.toNat))
    modifyRegisters fun _ => r
    jump ins.nnn
  | .skipEqByte => skipIf ((← getV x) == ins.kk)
  | .skipNeByte => skipIf ((← getV x) != ins.kk)
  | .skipEqReg => skipIf ((← getV x) == (← getV y))
  | .loadByte =>
    setV x ins.kk
    advance
  | .addByte =>
    setV x ((← getV x) + ins.kk)
    advance
  | .loadReg =>
    setV x (← getV y)
    advance
  | .or =>
    setV x ((← getV x) ||| (← getV y))
    advance
  | .and =>
    setV x ((← getV x) &&& (← getV y))
    advance
  | .xor =>
    setV x ((← getV x) ^^^ (← getV y))
    advance
  | .add =>
    let a ← getV x
    let b ← getV y
    setV Registers.flag (if a.toNat + b.toNat > 0xFF then 0 else 1)
    setV x (a + b)
    advance
  | .sub =>
    let a ← getV x
    let b ← getV y
    setV x (a - b)
    setV Registers.flag (if a ≥ b then 1 else 0)
    advance
  | .shiftRight =>
    setV Registers.flag ((← getV x) &&& 1)
    setV x ((← getV x) >>> 1)
    advance
  | .subFrom =>
    let a ← getV x
    let b ← getV y
    setV Registers.flag (if b ≥ a then 1 else 0)
    setV x (b - a)
    advance
  | .shiftLeft =>
    setV Registers.flag ((← getV x) &&& 0x80)
    setV x ((← getV x) <<< 1)
    advance
  | .skipNeReg => skipIf ((← getV x) != (← getV y))
  | .loadIndex =>
    setI ins.nnn
    advance
  | .jumpOffset => jump (ins.nnn + (← getV Registers.offset).toNat)
  | .random =>
    setV x ((← draw) &&& ins.kk)
    advance
  | .draw =>
    drawSprite x y ins.n
    advance
  | .skipKeyDown => skipIf (← keyDown x)
  | .skipKeyUp => skipIf (!(← keyDown x))
  | .readDelay =>
    setV x (← registers).delay
    advance
  | .waitKey =>
    modifyMachine fun m => { m with keypad := m.keypad.await x.val }
    advance
  | .setDelay =>
    let value ← getV x
    modifyRegisters fun r => { r with delay := value }
    advance
  | .setSound =>
    let value ← getV x
    modifyRegisters fun r => { r with sound := value }
    advance
  | .addIndex =>
    setI (((← registers).i + (← getV x).toNat) % 0x10000)
    advance
  | .glyph =>
    setI ((← getV x).toNat * Font.glyphSize)
    advance
  | .decimal =>
    writeAtI (decimalDigits (← getV x))
    advance
  | .storeRegs =>
    writeAtI ((← registers).v.toList.take (x.val + 1))
    advance
  | .loadRegs =>
    let m := (← get).machine
    let bytes ← orFault (m.memory.readBlock m.registers.i (x.val + 1))
    modifyRegisters (·.loadV bytes)
    advance

end Processor

end ChipEight
