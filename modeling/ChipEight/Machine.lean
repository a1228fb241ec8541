import ChipEight.Keypad
import ChipEight.Registers
import ChipEight.Screen

/-!
# The machine

All state that belongs to one run of a program: memory, registers, screen, keys
and whether the machine has halted. What is outside of it, such as the random
source, the clock and the log, belongs to the layers that drive it.
-/

namespace ChipEight

/-- The state of an emulated machine. -/
structure Machine where
  memory : Memory
  registers : Registers
  screen : Screen
  keypad : Keypad
  /-- whether the machine has stopped for good -/
  halted : Bool

namespace Machine

/-- A machine as it is switched on, with nothing loaded. -/
def initial : Machine where
  memory := .blank
  registers := .initial
  screen := .initial
  keypad := .idle
  halted := false

/-- A machine with a program loaded and ready to start. -/
def ofProgram (program : List UInt8) : Except Fault Machine := do
  return { initial with memory := ← initial.memory.load program }

/-- Whether the machine waits for a key. -/
def waiting (m : Machine) : Bool := m.keypad.waiting

/-- Stop for good. -/
def halt (m : Machine) : Machine := { m with halted := true }

/-- Let a key go down or up. A press that is awaited ends the wait and its
number goes to the register that waits for it; the result says whether it did.
By the time a register is found not to exist, the wait is over and the key is
down. -/
def keyEvent (number : Int) (isDown : Bool) : EStateM Error Machine Bool := fun m =>
  match m.keypad.set number isDown with
  | .error fault => .error (.fault fault) m
  | .ok keypad =>
    if isDown && keypad.waiting then
      let m := { m with keypad := keypad.settle }
      match Registers.index? keypad.register with
      | some k => .ok true { m with registers.v := fill m.registers.v k (UInt8.ofNat number.toNat) }
      | none => .error (.misuse (.noSuchRegister keypad.register)) m
    else
      .ok false { m with keypad }

end Machine

end ChipEight
