import ChipEight.Log
import ChipEight.Machine

/-!
# The processor

A processor is a machine together with what executing instructions needs beside
it: the random draws, a count of the instructions that were completed, and the
log that tracing writes to. The random source is a sequence of bytes that is
fixed from the start and read once from the front, so that what a program sees
of it is determined by the sequence and by how many bytes were taken before.

`Execution` is the monad in which instructions are described. A fault does not
undo what was done before it; that no instruction does anything before it
faults is a fact about the instructions and not about the monad.
-/

namespace ChipEight

/-- A sequence of random bytes and a place in it. -/
structure Draws where
  /-- the bytes, in the order in which they are taken -/
  source : Nat → UInt8
  /-- how many bytes were taken -/
  taken : Nat

namespace Draws

/-- A sequence of which nothing was taken. -/
def ofSource (source : Nat → UInt8) : Draws := ⟨source, 0⟩

/-- The byte that is taken next. -/
def next (d : Draws) : UInt8 := d.source d.taken

/-- The place behind that byte. -/
def advance (d : Draws) : Draws := { d with taken := d.taken + 1 }

end Draws

/-- A machine with what is needed to execute its program. -/
structure Processor where
  machine : Machine
  draws : Draws
  /-- how many instructions were completed -/
  cycles : Nat
  log : Log

namespace Processor

/-- A processor that has executed nothing. -/
def ofMachine (machine : Machine) (draws : Draws) (log : Log) : Processor :=
  ⟨machine, draws, 0, log⟩

end Processor

/-- A computation on a processor that may end in a fault. -/
abbrev Execution := EStateM Fault Processor

namespace Execution

/-- The result of an operation, or its fault. -/
def orFault {α : Type} (result : Except Fault α) : Execution α := fun p =>
  match result with
  | .ok a => .ok a p
  | .error fault => .error fault p

/-- The registers as they are. -/
def registers : Execution Registers :=
  return (← get).machine.registers

/-- Change the machine. -/
def modifyMachine (f : Machine → Machine) : Execution Unit :=
  modify fun p => { p with machine := f p.machine }

/-- Change the registers. -/
def modifyRegisters (f : Registers → Registers) : Execution Unit :=
  modifyMachine fun m => { m with registers := f m.registers }

/-- Change the log. -/
def modifyLog (f : Log → Log) : Execution Unit :=
  modify fun p => { p with log := f p.log }

/-- The value of a byte register. -/
def getV (k : Fin 16) : Execution UInt8 :=
  return (← registers).v.get k

/-- Give a byte register a value. -/
def setV (k : Fin 16) (value : UInt8) : Execution Unit :=
  modifyRegisters fun r => { r with v := fill r.v k value }

/-- Give the address register a value. -/
def setI (value : Int) : Execution Unit :=
  modifyRegisters fun r => { r with i := value }

/-- Go on at an address. -/
def jump (address : Int) : Execution Unit :=
  modifyRegisters fun r => { r with pc := address }

/-- Go on with the next instruction. -/
def advance : Execution Unit :=
  modifyRegisters fun r => { r with pc := r.pc + 2 }

/-- Go on with the next instruction, or with the one after it. -/
def skipIf (skip : Bool) : Execution Unit :=
  modifyRegisters fun r => { r with pc := r.pc + if skip then 4 else 2 }

/-- Take a random byte. -/
def draw : Execution UInt8 := do
  let byte := (← get).draws.next
  modify fun p => { p with draws := p.draws.advance }
  return byte

/-! ## How the parts of an execution run -/

variable {α : Type} (p : Processor)

@[simp] theorem orFault_ok (a : α) : orFault (.ok a) p = .ok a p := rfl

@[simp] theorem orFault_error (fault : Fault) :
    (orFault (.error fault) : Execution α) p = .error fault p := rfl

@[simp] theorem registers_run : registers p = .ok p.machine.registers p := rfl

@[simp] theorem modifyMachine_run (f : Machine → Machine) :
    modifyMachine f p = .ok () { p with machine := f p.machine } := rfl

@[simp] theorem modifyRegisters_run (f : Registers → Registers) :
    modifyRegisters f p =
      .ok () { p with machine := { p.machine with registers := f p.machine.registers } } := rfl

@[simp] theorem modifyLog_run (f : Log → Log) :
    modifyLog f p = .ok () { p with log := f p.log } := rfl

@[simp] theorem getV_run (k : Fin 16) : getV k p = .ok (p.machine.registers.v.get k) p := rfl

@[simp] theorem draw_run : draw p = .ok p.draws.next { p with draws := p.draws.advance } := rfl

end Execution

end ChipEight
