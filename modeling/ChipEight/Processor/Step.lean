import ChipEight.Processor.Execute
import ChipEight.Processor.Trace

/-!
# One step

A step fetches the word at the program counter, decodes it and executes it. An
all-zero word means that the program ran into memory that holds nothing: the
machine halts, and no instruction is completed.

A call is traced before it is executed, so its line stands in the log even when
the call is refused; every other instruction is traced once it has succeeded.

One trace call serves all instructions. As a part of an instruction, a line would be
made last, with nothing left to do but to go on. By then every register but the
program counter is as it is afterwards, so what a line says of results is read off
the registers after the instruction. The address in a line is the program counter
before it, and so are the operands that it may have overwritten by then; whether an
instruction skips the next one, and where it goes on to, is told by the two program
counters.
-/

namespace ChipEight.Processor

open Execution

/-- Leave a line in the log about what happened at an address. -/
def traceLine (pc word : Int) (text : Unit → String) : Execution Unit := do
  if (← get).log.tracing then
    modifyLog (·.debug (Trace.line pc word (text ())))

/-- Leave the line of an instruction in the log. -/
def traceInstruction (ins : Instruction) (before : Registers) : Execution Unit := do
  let after ← registers
  traceLine before.pc ins.word fun _ => Trace.describe ins before after

/-- Count an instruction as completed. -/
def countCycle : Execution Unit :=
  modify fun p => { p with cycles := p.cycles + 1 }

/-- The word at the program counter. -/
def fetch : Execution Nat := do
  let m := (← get).machine
  orFault (m.memory.readWord m.registers.pc)

/-- Execute the instruction at the program counter and return it, or halt at an
all-zero word and return nothing. -/
def step : Execution (Option Instruction) := do
  let word ← fetch
  let before ← registers
  if word = 0 then
    traceLine before.pc word fun _ => "HALT"
    modifyMachine Machine.halt
    return none
  let ins ← orFault (Instruction.decodeAt before.pc word)
  if ins.opcode = .call then
    traceInstruction ins before
    execute ins
  else
    execute ins
    traceInstruction ins before
  countCycle
  return some ins

end ChipEight.Processor
