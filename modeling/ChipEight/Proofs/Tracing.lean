import ChipEight.Proofs.Hexadecimal
import ChipEight.Proofs.Lockstep
import ChipEight.Proofs.Refusal

/-!
# Tracing is an observer

The log is written and never read. So processors that differ in the log alone go in
lockstep (`Processor.lockstep_sameButLog`), and a run with tracing on is the run with
tracing off, in its state and in every result, but for what it leaves in the log.

What a step leaves there while tracing is on is settled by what it comes to
(`Processor.Logs`). A step that completes an instruction or halts leaves one line, which
begins with the address that the word was fetched from and with the word. A step that is
refused leaves none, except for a call that finds the stack full: its line was written
before it was refused.
-/

namespace ChipEight

/-! ## Lines about an address -/

/-- A line of the debug level that begins with an address in at least three digits and
with a word in at least four. -/
structure LogLine.Reports (line : LogLine) (pc word : Int) (text : String) : Prop where
  level : line.level = .debug
  text : ∃ address digits, Text.IsNumeral 3 pc address ∧ Text.IsNumeral 4 word digits ∧
    line.text = address ++ " " ++ digits ++ ": " ++ text

/-- The log with one more line. -/
def Log.push (log : Log) (line : LogLine) : Log := { log with lines := log.lines.push line }

/-- What tracing leaves about an address is one line. -/
theorem Log.exists_debug_line {log : Log} (htracing : log.tracing = true) {pc word : Int}
    (hpc : 0 ≤ pc) (hword : 0 ≤ word) (text : String) :
    ∃ line : LogLine, line.Reports pc word text ∧
      log.debug (Trace.line pc word text) = log.push line := by
  have haddress := Text.isNumeral_hex 3 pc.toNat
  have hdigits := Text.isNumeral_hex 4 word.toNat
  rw [Int.toNat_of_nonneg hpc] at haddress
  rw [Int.toNat_of_nonneg hword] at hdigits
  refine ⟨⟨.debug, Trace.line pc word text⟩, ⟨rfl, _, _, haddress, hdigits, rfl⟩, ?_⟩
  rw [debug, if_pos htracing, push]

/-! ## What is refused before it is traced -/

namespace Machine

variable {m : Machine}

theorem ne_stackOverflow_of_upcoming {fault : Fault}
    (h : m.upcoming = .error fault) (pc : Int) : fault ≠ .stackOverflow pc := by
  rintro rfl
  by_cases hbounds : Memory.InBounds m.registers.pc 2
  · have hfetched := upcoming_fetched hbounds.1
    rw [h] at hfetched
    cases hfetched
  · rw [upcoming_of_fault (Memory.readWord_of_not_inBounds hbounds)] at h
    cases h

end Machine

namespace Instruction

variable {ins : Instruction} {byte : UInt8} {m : Machine} {fault : Fault}

/-- All that a call is refused for is a full stack. -/
theorem eq_stackOverflow_of_call (hcall : ins.opcode = .call)
    (heffect : ins.effect byte m = .error fault) : fault = .stackOverflow m.registers.pc := by
  obtain ⟨word, opcode⟩ := ins
  obtain rfl : opcode = .call := hcall
  exact (Registers.push_eq_error_iff.mp (of_map_eq_error heffect)).2

/-- Nothing else is refused for a full stack. -/
theorem ne_stackOverflow_of_ne_call (hcall : ins.opcode ≠ .call)
    (heffect : ins.effect byte m = .error fault) (pc : Int) : fault ≠ .stackOverflow pc := by
  rintro rfl
  obtain ⟨word, opcode⟩ := ins
  cases opcode
  case call => exact hcall rfl
  case ret => cases (Registers.pop_eq_error_iff.mp (of_map_eq_error heffect)).2
  case draw | loadRegs => cases (Memory.readBlock_eq_error_iff.mp (of_map_eq_error heffect)).2
  case skipKeyDown | skipKeyUp =>
    cases (Keypad.isDown_eq_error_iff.mp (of_map_eq_error heffect)).2
  case decimal | storeRegs => cases (Memory.writeBytes_eq_error_iff.mp (of_map_eq_error heffect)).2
  all_goals cases heffect

end Instruction

/-- A call is described by the address that it goes to. -/
theorem Trace.describe_of_call {ins : Instruction} (hcall : ins.opcode = .call) {word : Nat}
    (hword : ins.word = word) (before after : Registers) :
    ∃ address, Text.IsNumeral 3 (word % 0x1000 : Nat) address ∧
      describe ins before after = "CALL " ++ address := by
  obtain ⟨_, opcode⟩ := ins
  obtain rfl : opcode = .call := hcall
  obtain rfl : _ = (word : Int) := hword
  exact ⟨_, Text.isNumeral_hex 3 _, rfl⟩

/-! ## Steps -/

namespace Processor

variable {p : Processor}

/-- What a step adds to the log while tracing is on, by what it comes to. -/
inductive Logs (p : Processor) : EStateM.Result Fault Processor (Option Instruction) → Prop
  /-- an instruction is completed: one line about its word -/
  | completes {ins : Instruction} {q : Processor} {line : LogLine} {text : String}
    (hword : ins.word = p.machine.word)
    (hline : line.Reports p.machine.registers.pc p.machine.word text)
    (hlog : q.log = p.log.push line) : Logs p (.ok (some ins) q)
  /-- the machine halts: one line about the word zero -/
  | halts {q : Processor} {line : LogLine} (hword : p.machine.word = 0)
    (hline : line.Reports p.machine.registers.pc p.machine.word "HALT")
    (hlog : q.log = p.log.push line) : Logs p (.ok none q)
  /-- a call finds the stack full: one line about the call -/
  | overflows {q : Processor} {line : LogLine} {address : String}
    (hcall : p.machine.word / 0x1000 = 0x2)
    (haddress : Text.IsNumeral 3 (p.machine.word % 0x1000 : Nat) address)
    (hline : line.Reports p.machine.registers.pc p.machine.word ("CALL " ++ address))
    (hlog : q.log = p.log.push line) :
    Logs p (.error (.stackOverflow p.machine.registers.pc) q)
  /-- anything else that is refused: no line -/
  | refused {fault : Fault} {q : Processor} (hfault : ∀ pc, fault ≠ .stackOverflow pc)
    (hlog : q.log = p.log) : Logs p (.error fault q)

/-- While tracing is on, a step leaves one line if it is made, and none if it is refused,
unless it is a call that finds the stack full. -/
theorem logs_step (htracing : p.log.tracing = true) : p.Logs (step p) := by
  have hout := step_outcome p
  have hnatural := Int.natCast_nonneg p.machine.word
  generalize step p = result at hout ⊢
  cases hout with
  | unavailable hup => exact .refused (Machine.ne_stackOverflow_of_upcoming hup) rfl
  | halts hup =>
    obtain ⟨hpc, -, hzero⟩ := Machine.word_of_upcoming hup
    obtain ⟨line, hline, hlog⟩ := Log.exists_debug_line htracing hpc hnatural "HALT"
    rw [hzero] at hlog
    exact .halts hzero hline hlog
  | @refused ins fault hup heffect =>
    obtain ⟨hpc, -, -, hword, hadmits⟩ := Machine.word_of_upcoming hup
    by_cases hcall : ins.opcode = .call
    · obtain rfl := Instruction.eq_stackOverflow_of_call hcall heffect
      obtain ⟨address, haddress, htext⟩ := Trace.describe_of_call hcall hword
        p.machine.registers p.machine.registers
      obtain ⟨line, hline, hlog⟩ := Log.exists_debug_line htracing hpc hnatural ("CALL " ++ address)
      rw [hcall] at hadmits
      refine .overflows ((Opcode.admits_iff_hasForm (Memory.wordAt_lt _ _)).mp hadmits) haddress
        hline ?_
      rw [if_pos hcall, Instruction.logged, ite_self, htext, hword]
      exact hlog
    · exact .refused (Instruction.ne_stackOverflow_of_ne_call hcall heffect) (if_neg hcall)
  | @completes ins machine hup heffect =>
    obtain ⟨hpc, -, -, hword, -⟩ := Machine.word_of_upcoming hup
    obtain ⟨line, hline, hlog⟩ := Log.exists_debug_line htracing hpc hnatural
      (Trace.describe ins p.machine.registers
        (if ins.opcode = .call then p.machine.registers else machine.registers))
    rw [← hword] at hlog
    exact .completes hword hline hlog

/-- While tracing is off, a step leaves the log as it is. -/
theorem log_step (htracing : p.log.tracing = false) : (after step p).log = p.log := by
  have hdebug (text : String) : p.log.debug text = p.log := by
    rw [Log.debug, htracing, if_neg Bool.false_ne_true]
  have hout := step_outcome p
  rw [after]
  generalize step p = result at hout ⊢
  cases hout with
  | unavailable _ => rfl
  | halts _ => exact hdebug _
  | @refused ins _ _ _ =>
    show (if ins.opcode = .call then _ else p.log) = p.log
    rw [Instruction.logged, hdebug, ite_self]
  | completes _ _ => exact hdebug _

/-! ## Processors with different logs -/

/-- Two processors differ at most in the log. -/
def SameButLog (p q : Processor) : Prop := ∃ log, q = { p with log }

/-- A step does not look at the log. -/
theorem step_withLog (p : Processor) (log : Log) :
    SameResult SameButLog (step p) (step { p with log }) := by
  have hup : Machine.upcoming { p with log }.machine = p.machine.upcoming := rfl
  rw [step_eq, step_eq, hup]
  rcases p.machine.upcoming with fault | _ | ins
  · exact .error fault ⟨log, rfl⟩
  · exact .ok none ⟨_, rfl⟩
  · simp only
    rcases ins.effect p.draws.next p.machine with fault | machine
    · exact .error fault ⟨_, rfl⟩
    · exact .ok (some ins) ⟨_, rfl⟩

/-- Processors that differ in the log go in lockstep. -/
theorem lockstep_sameButLog : Lockstep SameButLog where
  halted := by
    rintro p _ ⟨log, rfl⟩
    rfl
  waiting := by
    rintro p _ ⟨log, rfl⟩
    rfl
  step := by
    rintro p _ ⟨log, rfl⟩
    exact p.step_withLog log
  key := by
    rintro p _ ⟨log, rfl⟩ number isDown
    rw [keyEvent, keyEvent]
    rcases Machine.keyEvent number isDown p.machine with ⟨settled, machine⟩ | ⟨error, machine⟩
    · exact .ok settled ⟨log, rfl⟩
    · exact .error error ⟨log, rfl⟩
  countDown := by
    rintro p _ ⟨log, rfl⟩
    exact ⟨log, rfl⟩
  halt := by
    rintro p _ ⟨log, rfl⟩
    exact ⟨log, rfl⟩
  log := by
    rintro p _ ⟨log, rfl⟩ change
    exact ⟨change log, rfl⟩

end Processor

/-! ## Runs -/

namespace Pacer

variable {κ τ : Type}

theorem matches_mapLog (p : Pacer κ τ) (change : Log → Log) :
    p.Matches Processor.SameButLog (p.mapLog change) :=
  ⟨_, ⟨change p.processor.log, rfl⟩, rfl⟩

theorem Matches.eq_mapLog {p q : Pacer κ τ} (h : p.Matches Processor.SameButLog q) :
    ∃ log, q = p.mapLog fun _ => log := by
  obtain ⟨_, ⟨log, rfl⟩, rfl⟩ := h
  exact ⟨log, rfl⟩

variable [Clock κ τ] [Add τ] [LE τ] [DecidableLE τ]

/-- **Tracing is an observer.** A run answers the same and leaves the same state behind,
whatever the log is that it starts with: the pacers differ in their logs and in nothing
else. While tracing is off, no step logs anything. While it is on, a step logs what
`Processor.Logs` says. -/
theorem observed_performAll (p : Pacer κ τ) (log : Log) (operations : List Operation) :
    let q := p.mapLog fun _ => log
    (∃ log', q.performAll operations = (p.performAll operations).mapLog fun _ => log') ∧
    q.answers operations = p.answers operations ∧
    ∀ r : Processor, (r.log.tracing = false → (after Processor.step r).log = r.log) ∧
      (r.log.tracing = true → r.Logs (Processor.step r)) := by
  intro q
  have hmatches : p.Matches Processor.SameButLog q := p.matches_mapLog fun _ => log
  exact ⟨(performAll_lockstep Processor.lockstep_sameButLog operations hmatches).eq_mapLog,
    (answers_lockstep Processor.lockstep_sameButLog operations hmatches).symm,
    fun r => ⟨Processor.log_step, Processor.logs_step⟩⟩

/-- `2204` on a full stack is refused, with one line if tracing is on. -/
theorem observed_performAll_of_overflow :
    let machine : Machine :=
      { Machine.initial with
        memory := Memory.blank.store Memory.programStart [0x22, 0x04]
        registers := { Registers.initial with
          stack := ⟨Vector.replicate 16 0x200, 16, Nat.le_refl 16⟩ } }
    let p : Pacer (HandClock Nat) Nat :=
      new (.ofMachine machine (.ofSource fun _ => 0) (.new true)) ⟨0, 1⟩ 2 3
    let q := p.mapLog fun _ => .new false
    let operations : List Operation := [.tick, .act .step, .run 5]
    q.answers operations = p.answers operations ∧
    (after Processor.step q.processor).log.lines = #[] ∧
    ∃ r line address, Processor.step p.processor = .error (.stackOverflow 0x200) r ∧
      Text.IsNumeral 3 0x204 address ∧ line.Reports 0x200 0x2204 ("CALL " ++ address) ∧
      r.log.lines = #[line] := by
  intro machine p q operations
  obtain ⟨-, hanswers, hstep⟩ := observed_performAll p (.new false) operations
  have hstored : machine.memory = Memory.blank.store Memory.programStart [0x22, 0x04] := rfl
  have hword : machine.word = 0x2204 := Machine.word_of_store hstored rfl (by decide)
  have hrefuses : machine.Refuses (.stackOverflow machine.registers.pc) :=
    .overflow (by decide) (by rw [hword]) rfl
  obtain ⟨r, hr⟩ := (Processor.step_eq_error_iff (p := p.processor) (by decide) (by decide) _).mpr
    hrefuses
  have hlogs := (hstep p.processor).2 rfl
  rw [hr] at hlogs
  have hquiet := congrArg Log.lines ((hstep q.processor).1 rfl)
  refine ⟨hanswers, hquiet, r, ?_⟩
  cases hlogs with
  | overflows hcall haddress hline hlog =>
    have hpaced : p.processor.machine.word = 0x2204 := hword
    rw [hpaced] at haddress hline
    exact ⟨_, _, hr, haddress, hline, congrArg Log.lines hlog⟩
  | refused hfault _ => exact absurd rfl (hfault _)

end Pacer

end ChipEight
