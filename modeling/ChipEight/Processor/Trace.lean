import ChipEight.Instruction
import ChipEight.Registers

/-!
# The text of a trace

While tracing is on, every executed instruction leaves one line in the log: the
address it was fetched from, its word, and what it did. The text is made from
the instruction and from the registers before and after it, so that tracing
cannot take part in the execution.
-/

namespace ChipEight

open Text (hex)

namespace Trace

/-- A truth value as traces show it. -/
def truth (b : Bool) : String := if b then "True" else "False"

/-- The name of a byte register. -/
def register (k : Fin 16) : String := "V" ++ hex 0 k.val

/-- A byte in two digits. -/
def byte (b : UInt8) : String := hex 2 b.toNat

/-- A register with its value in parentheses. -/
def valued (r : Registers) (k : Fin 16) : String :=
  register k ++ "(" ++ byte (r.v.get k) ++ ")"

/-- An address in three digits. -/
def address (a : Int) : String := hex 3 a

/-- The line of what happened at an address. -/
def line (pc word : Int) (text : String) : String :=
  address pc ++ " " ++ hex 4 word ++ ": " ++ text

/-- What an instruction did, given the registers before and after it. -/
def describe (ins : Instruction) (before after : Registers) : String :=
  let x := ins.x
  let y := ins.y
  let vx := register x
  let vy := register y
  let result := byte (after.v.get x)
  let flag := toString (after.v.get Registers.flag).toNat
  let skipped := truth (after.pc == before.pc + 4)
  let index := address after.i
  let lastIndex := address (after.i + x.val)
  match ins.opcode with
  | .clear => "CLS"
  | .ret => "RET -> " ++ address after.pc
  | .sys => "SYS " ++ address ins.nnn ++ " ignored"
  | .jump => "JP " ++ address ins.nnn
  | .call => "CALL " ++ address ins.nnn
  | .skipEqByte => "SE " ++ valued before x ++ " == " ++ byte ins.kk ++ " -> " ++ skipped
  | .skipNeByte => "SNE " ++ valued before x ++ " != " ++ byte ins.kk ++ " -> " ++ skipped
  | .skipEqReg => "SE " ++ valued before x ++ " == " ++ valued before y
  | .loadByte => "LD " ++ vx ++ " = " ++ byte ins.kk
  | .addByte => "ADD " ++ vx ++ " += " ++ byte ins.kk ++ " -> " ++ result
  | .loadReg => "LD " ++ vx ++ " = " ++ valued after y
  | .or => "OR " ++ vx ++ " |= " ++ vy ++ " -> " ++ result
  | .and => "AND " ++ vx ++ " &= " ++ vy ++ " -> " ++ result
  | .xor => "XOR " ++ vx ++ " ^= " ++ vy ++ " -> " ++ result
  | .add =>
    "ADD " ++ vx ++ " += " ++ vy ++ " -> " ++ byte (before.v.get x + before.v.get y) ++
      ", NOT carry=" ++ flag
  | .sub =>
    "SUB " ++ vx ++ " -= " ++ vy ++ " -> " ++ byte (before.v.get x - before.v.get y) ++
      ", NOT borrow=" ++ flag
  | .shiftRight => "SHR " ++ vx ++ " -> " ++ result
  | .subFrom =>
    "SUBN " ++ vx ++ " = " ++ vy ++ " - " ++ vx ++ " -> " ++ byte (before.v.get y - before.v.get x)
  | .shiftLeft => "SHL " ++ vx ++ " -> " ++ result
  | .skipNeReg => "SNE " ++ valued before x ++ " != " ++ valued before y
  | .loadIndex => "LD I = " ++ address ins.nnn
  | .jumpOffset => "JP V0 + " ++ address ins.nnn ++ " -> " ++ address after.pc
  | .random => "RND " ++ vx ++ " = rnd & " ++ byte ins.kk ++ " -> " ++ result
  | .draw =>
    "DRW " ++ valued after x ++ " " ++ valued after y ++ " N=" ++ toString ins.n.val ++
      ", collision=" ++ flag
  | .skipKeyDown => "SKP " ++ vx ++ " -> " ++ skipped
  | .skipKeyUp => "SKNP " ++ vx ++ " -> " ++ skipped
  | .readDelay => "LD " ++ vx ++ " = DT(" ++ byte after.delay ++ ")"
  | .waitKey => "WAIT KEY -> " ++ vx
  | .setDelay => "LD DT = " ++ vx ++ "(" ++ byte after.delay ++ ")"
  | .setSound => "LD ST = " ++ vx ++ "(" ++ byte after.sound ++ ")"
  | .addIndex => "ADD I += " ++ vx ++ " -> " ++ index
  | .glyph => "LD I = SPRITE(" ++ vx ++ "=" ++ hex 0 (before.v.get x).toNat ++ ") -> " ++ index
  | .decimal =>
    "LD BCD " ++ vx ++ "(" ++ toString (before.v.get x).toNat ++ ") -> [" ++ index ++ "]"
  | .storeRegs => "LD [" ++ index ++ ".." ++ lastIndex ++ "] = V0.." ++ vx
  | .loadRegs => "LD V0.." ++ vx ++ " = [" ++ index ++ ".." ++ lastIndex ++ "]"

end Trace

end ChipEight
