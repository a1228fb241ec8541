import ChipEight.Event

/-!
# Keys of the host

Sixteen keys in the left half of the host's keyboard stand for the keypad, in
the same arrangement of four rows by four columns. Space pauses and resumes, `P`
executes a single instruction, Escape quits and F1 switches tracing over. All
other keys do nothing.
-/

namespace ChipEight

/-- A key of the host's keyboard. -/
inductive HostKey where
  /-- the key of a letter or digit, named by the character in capitals -/
  | char (c : Char)
  | space
  | escape
  | f1
  /-- any other key -/
  | other
  deriving DecidableEq, Repr

namespace HostKey

/-- The keys that stand for the keypad, row by row, with the number of the
keypad's key in the same place. -/
def layout : List (Char × Nat) :=
  [('1', 0x1), ('2', 0x2), ('3', 0x3), ('4', 0xC),
   ('Q', 0x4), ('W', 0x5), ('E', 0x6), ('R', 0xD),
   ('A', 0x7), ('S', 0x8), ('D', 0x9), ('F', 0xE),
   ('Z', 0xA), ('X', 0x0), ('C', 0xB), ('V', 0xF)]

/-- The number of the keypad's key that a host key stands for. -/
def pad? : HostKey → Option Nat
  | .char c => layout.lookup c
  | _ => none

/-- The control that pressing a host key means. -/
def control? : HostKey → Option Control
  | .space => some .pause
  | .char 'P' => some .step
  | .escape => some .quit
  | _ => none

/-- The event that pressing a host key means. -/
def pressEvent? (k : HostKey) : Option Event :=
  match k.pad? with
  | some number => some (.key number true)
  | none => k.control?.map .control

/-- The event that letting go of a host key means. -/
def releaseEvent? (k : HostKey) : Option Event :=
  k.pad?.map fun number => .key number false

end HostKey

end ChipEight
