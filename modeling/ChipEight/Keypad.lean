import ChipEight.Cell
import ChipEight.Fault

/-!
# The keypad

Sixteen keys, numbered by the hexadecimal digits, and the state of an
instruction that waits for one of them. The number of the register to fill is
kept after the wait is over. It is not checked when the wait begins, only when
a key arrives, so a caller may wait for any integer.
-/

namespace ChipEight

/-- The keys and the pending wait. -/
structure Keypad where
  /-- whether each key is down -/
  down : Vector Bool 16
  /-- whether a key press is awaited -/
  waiting : Bool
  /-- the register that the awaited, or last awaited, key goes to -/
  register : Int
  deriving DecidableEq

namespace Keypad

/-- The number of keys. -/
def count : Nat := 16

/-- No key is down and none is awaited. -/
def idle : Keypad := ⟨Vector.replicate 16 false, false, 0⟩

/-- The key with a number, or a fault if there is none. -/
def key (number : Int) : Except Fault (Fin 16) :=
  match cell? number with
  | some k => .ok k
  | none => .error (.keyIndex number)

/-- Note that a key went down or up. -/
def set (p : Keypad) (number : Int) (isDown : Bool) : Except Fault Keypad := do
  let k ← key number
  return { p with down := fill p.down k isDown }

/-- Whether a key is down. -/
def isDown (p : Keypad) (number : Int) : Except Fault Bool := do
  let k ← key number
  return p.down.get k

/-- Begin to wait for a key that goes to `register`. -/
def await (p : Keypad) (register : Int) : Keypad :=
  { p with waiting := true, register }

/-- End the wait. -/
def settle (p : Keypad) : Keypad :=
  { p with waiting := false }

/-- The numbers of the keys that are down, in ascending order. -/
def pressed (p : Keypad) : List (Fin 16) :=
  (List.finRange 16).filter fun k => p.down.get k

end Keypad

end ChipEight
