import ChipEight.CallStack
import ChipEight.Cell
import ChipEight.Memory

/-!
# Registers

Sixteen byte registers, of which the last doubles as the flag of arithmetic and
drawing, the address register `I`, the program counter, the call stack and two
timers that count down to zero.

The address register and the program counter are integers. Instructions keep
the address register to sixteen bits. They do not reduce the program counter: a
jump with an offset may leave the address space, and the next fetch then faults.
A caller may give both any value.
-/

namespace ChipEight

/-- The register file. -/
structure Registers where
  /-- the byte registers `V0` to `VF` -/
  v : Vector UInt8 16
  /-- the address register -/
  i : Int
  /-- the address of the next instruction -/
  pc : Int
  /-- the return addresses of the calls in progress -/
  stack : CallStack
  /-- the delay timer -/
  delay : UInt8
  /-- the sound timer; the tone is heard while it runs -/
  sound : UInt8
  deriving DecidableEq

namespace Registers

/-- The number of byte registers. -/
def count : Nat := 16

/-- The register that doubles as the flag. -/
def flag : Fin 16 := Fin.last 15

/-- The register that a jump with an offset adds. -/
def offset : Fin 16 := ⟨0, by decide⟩

/-- The registers of a machine that has just been built. -/
def initial : Registers where
  v := Vector.replicate 16 0
  i := 0
  pc := Memory.programStart
  stack := .empty
  delay := 0
  sound := 0

/-- The byte register with a number; a negative number counts from behind the
last register. -/
def index? (number : Int) : Option (Fin 16) :=
  if 0 ≤ number then cell? number else cell? (number + 16)

/-- Put an address on the call stack; the fault names the program counter. -/
def push (r : Registers) (address : UInt16) : Except Fault Registers :=
  match r.stack.push? address with
  | some stack => .ok { r with stack }
  | none => .error (.stackOverflow r.pc)

/-- Take the last address off the call stack; the fault names the program counter. -/
def pop (r : Registers) : Except Fault (UInt16 × Registers) :=
  match r.stack.pop? with
  | some (address, stack) => .ok (address, { r with stack })
  | none => .error (.stackUnderflow r.pc)

/-- A timer one step later: it stops at zero. -/
def countDown (timer : UInt8) : UInt8 :=
  if timer > 0 then timer - 1 else 0

/-- Let both timers take a step. -/
def decrementTimers (r : Registers) : Registers :=
  { r with delay := countDown r.delay, sound := countDown r.sound }

/-- All registers in one line. -/
def summary (r : Registers) : String :=
  let register (k : Fin 16) := "V" ++ Text.hex 0 k.val ++ "=" ++ Text.hex 2 (r.v.get k).toNat
  "<RegisterFile pc=" ++ Text.hex 3 r.pc ++ " I=" ++ Text.hex 3 r.i ++
    " sp=" ++ toString r.stack.depth ++ " DT=" ++ toString r.delay.toNat ++
    " ST=" ++ toString r.sound.toNat ++ " " ++
    " ".intercalate ((List.finRange 16).map register) ++ ">"

end Registers

end ChipEight
