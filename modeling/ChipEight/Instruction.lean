import ChipEight.Fault
import ChipEight.Opcode

/-!
# Instructions and their decoding

An instruction is a word together with the opcode it was decoded to. Words are
arbitrary integers: only the low sixteen bits take part in decoding, in two's
complement for a negative word, and the word itself is kept.

A word is read as four hexadecimal digits. A `Pattern` fixes some of them and
leaves the others to the operands; a word is decoded to the opcode of the first
row of the table whose pattern admits it. Only the rows of `00E0` and `00EE`
depend on the order, for `0nnn` admits these words too.
-/

namespace ChipEight

/-- The hexadecimal digit of a word at a place, counted from the least significant. -/
def wordDigit (word : Int) (place : Nat) : Fin 16 :=
  ⟨(word >>> (4 * place) % 16).toNat, by omega⟩

/-- Which words a row of the table admits: four digits, the most significant
first, where `none` leaves the digit to an operand. -/
structure Pattern where
  /-- the digit at place three -/
  first : Option (Fin 16)
  /-- the digit at place two -/
  second : Option (Fin 16)
  /-- the digit at place one -/
  third : Option (Fin 16)
  /-- the digit at place zero -/
  fourth : Option (Fin 16)
  deriving DecidableEq, Repr

namespace Pattern

/-- Whether a digit meets what is asked of its place. -/
def admitsDigit (asked : Option (Fin 16)) (digit : Fin 16) : Bool :=
  match asked with
  | none => true
  | some d => d = digit

/-- Whether every fixed digit of the pattern is the one the word has there. -/
def admits (p : Pattern) (word : Int) : Bool :=
  admitsDigit p.first (wordDigit word 3) && admitsDigit p.second (wordDigit word 2) &&
    admitsDigit p.third (wordDigit word 1) && admitsDigit p.fourth (wordDigit word 0)

/-- The number whose digits are `f` of each place of the pattern. -/
def number (p : Pattern) (f : Option (Fin 16) → Nat) : Nat :=
  ((f p.first * 16 + f p.second) * 16 + f p.third) * 16 + f p.fourth

/-- The bits that the pattern fixes. -/
def mask (p : Pattern) : Nat := p.number fun d => if d.isSome then 0xF else 0

/-- The values of the bits that the pattern fixes. -/
def value (p : Pattern) : Nat := p.number fun d => (d.map Fin.val).getD 0

end Pattern

/-- One row of the decoding table. -/
structure Row where
  /-- the words that the row admits -/
  pattern : Pattern
  /-- the opcode they are decoded to -/
  opcode : Opcode
  deriving DecidableEq, Repr

namespace Opcode

/-- A row in which the first digit alone is fixed. -/
def row1 (a : Fin 16) (op : Opcode) : Row := ⟨⟨some a, none, none, none⟩, op⟩

/-- A row in which the first and the last digit are fixed. -/
def row2 (a d : Fin 16) (op : Opcode) : Row := ⟨⟨some a, none, none, some d⟩, op⟩

/-- A row in which all digits but the second are fixed. -/
def row3 (a c d : Fin 16) (op : Opcode) : Row := ⟨⟨some a, none, some c, some d⟩, op⟩

/-- A row that admits a single word. -/
def row4 (a b c d : Fin 16) (op : Opcode) : Row := ⟨⟨some a, some b, some c, some d⟩, op⟩

/-- The decoding table; the first row that admits a word decides. -/
def table : List Row :=
  [row4 0x0 0x0 0xE 0x0 clear,
   row4 0x0 0x0 0xE 0xE ret,
   row1 0x0 sys,
   row1 0x1 jump,
   row1 0x2 call,
   row1 0x3 skipEqByte,
   row1 0x4 skipNeByte,
   row2 0x5 0x0 skipEqReg,
   row1 0x6 loadByte,
   row1 0x7 addByte,
   row2 0x8 0x0 loadReg,
   row2 0x8 0x1 or,
   row2 0x8 0x2 and,
   row2 0x8 0x3 xor,
   row2 0x8 0x4 add,
   row2 0x8 0x5 sub,
   row2 0x8 0x6 shiftRight,
   row2 0x8 0x7 subFrom,
   row2 0x8 0xE shiftLeft,
   row1 0x9 skipNeReg,
   row1 0xA loadIndex,
   row1 0xB jumpOffset,
   row1 0xC random,
   row1 0xD draw,
   row3 0xE 0x9 0xE skipKeyDown,
   row3 0xE 0xA 0x1 skipKeyUp,
   row3 0xF 0x0 0x7 readDelay,
   row3 0xF 0x0 0xA waitKey,
   row3 0xF 0x1 0x5 setDelay,
   row3 0xF 0x1 0x8 setSound,
   row3 0xF 0x1 0xE addIndex,
   row3 0xF 0x2 0x9 glyph,
   row3 0xF 0x3 0x3 decimal,
   row3 0xF 0x5 0x5 storeRegs,
   row3 0xF 0x6 0x5 loadRegs]

/-- Every opcode has exactly one row. -/
theorem table_length : table.length = 35 := rfl

end Opcode

/-- A decoded word. The operands are read off the word. -/
structure Instruction where
  /-- the word as it was given -/
  word : Int
  /-- the form it has -/
  opcode : Opcode
  deriving DecidableEq, Repr

namespace Instruction

/-- The first register operand, the digit at place two. -/
def x (ins : Instruction) : Fin 16 := wordDigit ins.word 2

/-- The second register operand, the digit at place one. -/
def y (ins : Instruction) : Fin 16 := wordDigit ins.word 1

/-- The digit operand, at place zero. -/
def n (ins : Instruction) : Fin 16 := wordDigit ins.word 0

/-- The byte operand, the two low digits. -/
def kk (ins : Instruction) : UInt8 := UInt8.ofNat (ins.word % 0x100).toNat

/-- The address operand, the three low digits. -/
def nnn (ins : Instruction) : Nat := (ins.word % 0x1000).toNat

/-- Decode a word by the first of the rows that admits it. -/
def decodeWith (rows : List Row) (word : Int) : Except Fault Instruction :=
  match rows.find? (·.pattern.admits word) with
  | some row => .ok ⟨word, row.opcode⟩
  | none => .error (.unknownOpcode word none)

/-- Decode a word by the table of all opcodes. -/
def decode (word : Int) : Except Fault Instruction :=
  decodeWith Opcode.table word

/-- Decode a word that was fetched from `pc`: a refusal names the address too. -/
def decodeAt (pc word : Int) : Except Fault Instruction :=
  match decode word with
  | .ok ins => .ok ins
  | .error _ => .error (.unknownOpcode word (some pc))

end Instruction

end ChipEight
