import ChipEight.Processor.Step
import ChipEight.Proofs.Effect
import ChipEight.Proofs.Memory

/-!
# One step, as a whole

What a step will execute is settled by memory and the program counter alone:
`Machine.upcoming` is the instruction, nothing at a word of zero, or the fault
of the fetch or of the decoder. `Processor.step_eq` says what a step makes of
it, and `Processor.step_cases` is the inversion that all laws about steps go
through: a step is refused and leaves all but the log alone, or it halts, or it
completes an instruction by its effect.
-/

namespace ChipEight

open Execution

/-- What the next step executes: an instruction, or nothing at an all-zero word. -/
def Machine.upcoming (m : Machine) : Except Fault (Option Instruction) := do
  let word ← m.memory.readWord m.registers.pc
  if word = 0 then
    return none
  let ins ← Instruction.decodeAt m.registers.pc word
  return some ins

namespace Machine

variable {m : Machine}

theorem upcoming_of_fault {fault : Fault}
    (h : m.memory.readWord m.registers.pc = .error fault) : m.upcoming = .error fault := by
  rw [upcoming, h]
  rfl

theorem upcoming_of_zero (h : m.memory.readWord m.registers.pc = .ok 0) :
    m.upcoming = .ok none := by
  rw [upcoming, h]
  rfl

theorem upcoming_of_word {word : Nat} (hword : word ≠ 0)
    (h : m.memory.readWord m.registers.pc = .ok word) :
    m.upcoming = (Instruction.decodeAt m.registers.pc word).map some := by
  rw [upcoming, h]
  show (if word = 0 then _ else _) = _
  rw [if_neg hword]
  cases Instruction.decodeAt m.registers.pc word <;> rfl

/-- Where anything is upcoming, a word could be fetched. -/
theorem inBounds_of_upcoming {next : Option Instruction} (h : m.upcoming = .ok next) :
    Memory.InBounds m.registers.pc 2 := by
  by_cases hbounds : Memory.InBounds m.registers.pc 2
  · exact hbounds
  · rw [upcoming_of_fault (Memory.readWord_of_not_inBounds hbounds)] at h
    cases h

end Machine

/-- The log with the line of an instruction, which a call leaves before it is
executed. -/
def Instruction.logged (ins : Instruction) (before after : Registers) (log : Log) : Log :=
  let after := if ins.opcode = .call then before else after
  log.debug (Trace.line before.pc ins.word (Trace.describe ins before after))

namespace Processor

theorem traceLine_run (pc word : Int) (text : Unit → String) (p : Processor) :
    traceLine pc word text p =
      .ok () { p with log := p.log.debug (Trace.line pc word (text ())) } := by
  obtain ⟨machine, draws, cycles, tracing, lines⟩ := p
  cases tracing <;> rfl

theorem traceInstruction_run (ins : Instruction) (before : Registers) (p : Processor) :
    traceInstruction ins before p = .ok () { p with
      log := p.log.debug
        (Trace.line before.pc ins.word (Trace.describe ins before p.machine.registers)) } := by
  rw [traceInstruction, bind_run, registers_run]
  exact traceLine_run _ _ _ p

theorem fetch_run (p : Processor) :
    fetch p = orFault (p.machine.memory.readWord p.machine.registers.pc) p := rfl

/-- A step that has fetched a word other than zero. -/
theorem step_of_word {p : Processor} {word : Nat} (hword : word ≠ 0)
    (h : p.machine.memory.readWord p.machine.registers.pc = .ok word) :
    step p = (do
      let ins ← orFault (Instruction.decodeAt p.machine.registers.pc word)
      if ins.opcode = .call then
        traceInstruction ins p.machine.registers
        execute ins
      else
        execute ins
        traceInstruction ins p.machine.registers
      countCycle
      return some ins : Execution (Option Instruction)) p := by
  rw [step, bind_run, fetch_run, h, orFault_ok]
  refine (bind_run registers _ p).trans ?_
  simp only [registers_run, hword, if_false]

/-- A step, by what is upcoming and by the effect of the instruction. -/
theorem step_eq (p : Processor) :
    step p = match p.machine.upcoming with
      | .error fault => .error fault p
      | .ok none => .ok none { p with
          machine := p.machine.halt
          log := p.log.debug (Trace.line p.machine.registers.pc 0 "HALT") }
      | .ok (some ins) =>
        match ins.effect p.draws.next p.machine with
        | .error fault => .error fault { p with
            log := if ins.opcode = .call then
              ins.logged p.machine.registers p.machine.registers p.log else p.log }
        | .ok machine => .ok (some ins)
            { machine, draws := ins.drawsAfter p.draws, cycles := p.cycles + 1,
              log := ins.logged p.machine.registers machine.registers p.log } := by
  rcases hfetch : p.machine.memory.readWord p.machine.registers.pc with fault | word
  · rw [Machine.upcoming_of_fault hfetch, step, bind_run, fetch_run, hfetch, orFault_error]
  by_cases hword : word = 0
  · subst hword
    rw [Machine.upcoming_of_zero hfetch, step, bind_run, fetch_run, hfetch, orFault_ok]
    refine (bind_run registers _ p).trans ?_
    rw [registers_run]
    refine (bind_run (traceLine _ _ _) _ p).trans ?_
    rw [traceLine_run]
    rfl
  rw [step_of_word hword hfetch, orFault_bind, Machine.upcoming_of_word hword hfetch]
  rcases Instruction.decodeAt p.machine.registers.pc word with fault | ins
  · rfl
  -- the place of the trace line differs between a call and the other instructions
  by_cases hcall : ins.opcode = .call
  · simp only [Except.map, hcall, if_true, bind_run, traceInstruction_run, execute_eq,
      Instruction.logged]
    cases ins.effect p.draws.next p.machine <;> rfl
  · simp only [Except.map, hcall, if_false, bind_run, traceInstruction_run, execute_eq,
      Instruction.logged]
    cases ins.effect p.draws.next p.machine <;> rfl

/-- What a step can come to. -/
inductive Outcome (p : Processor) : EStateM.Result Fault Processor (Option Instruction) → Prop
  /-- nothing can be fetched, or what was fetched is no instruction -/
  | unavailable {fault : Fault} (hup : p.machine.upcoming = .error fault) :
    Outcome p (.error fault p)
  /-- an all-zero word halts the machine -/
  | halts (hup : p.machine.upcoming = .ok none) :
    Outcome p (.ok none { p with
      machine := p.machine.halt
      log := p.log.debug (Trace.line p.machine.registers.pc 0 "HALT") })
  /-- the instruction is refused -/
  | refused {ins : Instruction} {fault : Fault}
    (hup : p.machine.upcoming = .ok (some ins))
    (heffect : ins.effect p.draws.next p.machine = .error fault) :
    Outcome p (.error fault { p with
      log := if ins.opcode = .call then
        ins.logged p.machine.registers p.machine.registers p.log else p.log })
  /-- the instruction is completed -/
  | completes {ins : Instruction} {machine : Machine}
    (hup : p.machine.upcoming = .ok (some ins))
    (heffect : ins.effect p.draws.next p.machine = .ok machine) :
    Outcome p (.ok (some ins)
      { machine, draws := ins.drawsAfter p.draws, cycles := p.cycles + 1,
        log := ins.logged p.machine.registers machine.registers p.log })

/-- Every step comes to one of the four outcomes. -/
theorem step_outcome (p : Processor) : Outcome p (step p) := by
  rw [step_eq]
  rcases hup : p.machine.upcoming with fault | (_ | ins)
  · exact .unavailable hup
  · exact .halts hup
  rcases heffect : ins.effect p.draws.next p.machine with fault | machine
  · simp only [heffect]
    exact .refused hup heffect
  · simp only [heffect]
    exact .completes hup heffect

end Processor

end ChipEight
