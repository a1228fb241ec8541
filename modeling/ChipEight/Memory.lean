import ChipEight.Fault

/-!
# Memory

Four kibibytes. The font lies at the bottom, a program image is loaded from
`0x200` on, and all of it can be read and written by the running program. The
font has sixteen glyphs, one for each hexadecimal digit. A glyph is five rows
high and four pixels wide; a row is one byte, with the pixels in its upper half.

Addresses and lengths are integers. An access of `length` bytes at `address` is
in bounds if `address` is not negative and `address + length` does not exceed
the size; every access checks this before anything else and faults otherwise. A
block read takes the length as it comes: a negative one passes the check when
the start does, and then an end below zero counts from the end of memory.
-/

namespace ChipEight

namespace Font

/-- The rows of one glyph. -/
def glyphSize : Nat := 5

/-- The rows of the glyphs of `0` to `F`, one glyph after the other. -/
def glyphs : List UInt8 :=
  [0xF0, 0x90, 0x90, 0x90, 0xF0,  -- 0
   0x20, 0x60, 0x20, 0x20, 0x70,  -- 1
   0xF0, 0x10, 0xF0, 0x80, 0xF0,  -- 2
   0xF0, 0x10, 0xF0, 0x10, 0xF0,  -- 3
   0x90, 0x90, 0xF0, 0x10, 0x10,  -- 4
   0xF0, 0x80, 0xF0, 0x10, 0xF0,  -- 5
   0xF0, 0x80, 0xF0, 0x90, 0xF0,  -- 6
   0xF0, 0x10, 0x20, 0x40, 0x40,  -- 7
   0xF0, 0x90, 0xF0, 0x90, 0xF0,  -- 8
   0xF0, 0x90, 0xF0, 0x10, 0xF0,  -- 9
   0xF0, 0x90, 0xF0, 0x90, 0x90,  -- A
   0xE0, 0x90, 0xE0, 0x90, 0xE0,  -- B
   0xF0, 0x80, 0x80, 0x80, 0xF0,  -- C
   0xE0, 0x90, 0x90, 0x90, 0xE0,  -- D
   0xF0, 0x80, 0xF0, 0x80, 0xF0,  -- E
   0xF0, 0x80, 0xF0, 0x80, 0x80]  -- F

theorem glyphs_length : glyphs.length = 16 * glyphSize := rfl

end Font

/-- The contents of memory. -/
structure Memory where
  /-- the byte at every address -/
  bytes : Vector UInt8 4096

namespace Memory

/-- The number of addresses. -/
def size : Nat := 4096

/-- The address at which programs are loaded and started. -/
def programStart : Nat := 0x200

/-- The size of the largest program that fits above `programStart`. -/
def programLimit : Nat := size - programStart

/-- Put `values` at `start` and the following addresses; what would lie beyond
the end of memory is dropped. -/
def store (m : Memory) (start : Nat) : List UInt8 → Memory
  | [] => m
  | value :: rest => store ⟨m.bytes.setIfInBounds start value⟩ (start + 1) rest

/-- The bytes from `start` up to, but not including, `stop`. -/
def slice (m : Memory) (start stop : Nat) : List UInt8 :=
  (m.bytes.toArray.extract start stop).toList

/-- Memory that holds nothing but the font. -/
def blank : Memory :=
  store ⟨Vector.replicate 4096 0⟩ 0 Font.glyphs

/-- The memory that a computation leaves behind, unless it is refused. -/
def resulting {ε : Type} (m : Memory) (act : EStateM ε Memory Unit) : Except ε Memory :=
  match act m with
  | .ok () m' => .ok m'
  | .error error _ => .error error

/-- Load a program image in place. That it fits is checked before anything is written. -/
def loadInPlace (program : List UInt8) : EStateM Fault Memory Unit :=
  if program.length > programLimit then
    throw (.programTooLarge program.length programLimit)
  else
    modify fun m => m.store programStart program

/-- Load a program image. One that does not fit is refused. -/
def load (m : Memory) (program : List UInt8) : Except Fault Memory :=
  m.resulting (loadInPlace program)

/-- Whether `length` bytes at `address` are in bounds. -/
def InBounds (address length : Int) : Prop :=
  0 ≤ address ∧ address + length ≤ size

instance (address length : Int) : Decidable (InBounds address length) :=
  inferInstanceAs (Decidable (_ ∧ _))

/-- Fault unless `length` bytes at `address` are in bounds. -/
def checkBounds (address length : Int) : Except Fault Unit :=
  if InBounds address length then .ok () else .error (.memoryAccess address length)

/-- The byte at an address below the size. -/
def byteAt (m : Memory) (address : Nat) : UInt8 :=
  m.bytes[address]?.getD 0

/-- The byte at `address`. -/
def readByte (m : Memory) (address : Int) : Except Fault UInt8 := do
  checkBounds address 1
  return m.byteAt address.toNat

/-- Write the low eight bits of `value` at `address`. -/
def writeByte (m : Memory) (address value : Int) : Except Fault Memory := do
  checkBounds address 1
  return m.store address.toNat [UInt8.ofNat (value % 256).toNat]

/-- The two bytes at `address` as a number, the first one the more significant. -/
def readWord (m : Memory) (address : Int) : Except Fault Nat := do
  checkBounds address 2
  return (m.byteAt address.toNat).toNat * 256 + (m.byteAt (address.toNat + 1)).toNat

/-- Where a block read of `length` bytes at `address` ends: an end below zero
counts from the end of memory. -/
def blockEnd (address length : Int) : Nat :=
  let stop := address + length
  if stop < 0 then (stop + size).toNat else stop.toNat

/-- The bytes from `address` up to the end that `length` gives. -/
def readBlock (m : Memory) (address length : Int) : Except Fault (List UInt8) := do
  checkBounds address length
  return m.slice address.toNat (blockEnd address length)

/-- Write bytes from `address` on. -/
def writeBytes (m : Memory) (address : Int) (values : List UInt8) : Except Fault Memory := do
  checkBounds address values.length
  return m.store address.toNat values

/-- The byte that an integer is, if it is one. -/
def toByte? (value : Int) : Option UInt8 :=
  if 0 ≤ value ∧ value < 256 then some (UInt8.ofNat value.toNat) else none

/-- Write integers from `address` on, in place. The bounds are checked first, then that
every value is a byte, and only then is anything written. -/
def writeBlockInPlace (address : Int) (values : List Int) : EStateM Error Memory Unit :=
  match checkBounds address values.length with
  | .error fault => throw (.fault fault)
  | .ok () =>
    match values.mapM toByte? with
    | none => throw (.misuse .notAByte)
    | some bytes => modify fun m => m.store address.toNat bytes

/-- Write integers from `address` on. -/
def writeBlock (m : Memory) (address : Int) (values : List Int) : Except Error Memory :=
  m.resulting (writeBlockInPlace address values)

end Memory

end ChipEight
