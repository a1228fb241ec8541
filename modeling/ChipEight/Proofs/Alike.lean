import ChipEight.Proofs.Lockstep

/-!
# Pacers that differ in the log and in the mark of the screen

The log is written and never read, and the mark of the screen is read by the window
alone. So processors that differ in these two things go in lockstep
(`Processor.lockstep_alike`), and pacers that do so tick alike (`Pacer.Alike.tick`).

The proofs go by exchanging the two things (`Processor.masked`): everything else of
the state is then literally the same on both sides.
-/

namespace ChipEight

/-! ## Instructions -/

/-- The machine with another mark of its screen. -/
def Machine.marked (m : Machine) (dirty : Bool) : Machine :=
  { m with screen := { m.screen with dirty } }

theorem Screen.drawSprite_marked (s : Screen) (dirty : Bool) (x y : Int) (rows : List Int) :
    Screen.drawSprite { s with dirty } x y rows = s.drawSprite x y rows := by
  cases rows with
  | nil => rfl
  | cons bits rest => rfl

theorem Machine.drawn_marked (m : Machine) (dirty : Bool) (x y : Fin 16) (rows : List UInt8) :
    (m.marked dirty).drawn x y rows = m.drawn x y rows := by
  simp only [drawn, marked, Screen.drawSprite_marked]

namespace Instruction

theorem map_marked {α : Type} {x : Except Fault α} {f g : α → Machine} {dirty : Bool}
    (h : ∀ a, f a = (g a).marked dirty) : x.map f = (x.map g).map (·.marked dirty) := by
  cases x with
  | error fault => rfl
  | ok a => exact congrArg Except.ok (h a)

/-- An instruction does not look at the mark: it leaves it alone or sets it. -/
theorem effect_marked (ins : Instruction) (byte : UInt8) (m : Machine) (dirty : Bool) :
    ∃ dirty', ins.effect byte (m.marked dirty) = (ins.effect byte m).map (·.marked dirty') := by
  obtain ⟨word, opcode⟩ := ins
  cases opcode
  case clear => exact ⟨true, rfl⟩
  case draw =>
    simp only [effect, Machine.drawn_marked]
    show ∃ dirty', (m.memory.readBlock m.registers.i _).map _ = _
    rcases m.memory.readBlock m.registers.i _ with fault | rows
    · exact ⟨dirty, rfl⟩
    · exact ⟨(m.drawn _ _ rows).screen.dirty, rfl⟩
  case ret | call | skipKeyDown | skipKeyUp | decimal | storeRegs | loadRegs =>
    exact ⟨dirty, map_marked fun _ => rfl⟩
  all_goals exact ⟨dirty, rfl⟩

end Instruction

/-! ## Processors -/

namespace Processor

/-- The processor with another log and another mark of its screen. -/
def masked (p : Processor) (dirty : Bool) (log : Log) : Processor :=
  { p with machine := p.machine.marked dirty, log }

/-- Two processors differ at most in the log and in the mark of the screen. -/
def Alike (p q : Processor) : Prop := ∃ dirty log, q = p.masked dirty log

/-- Alike processors make the same step. -/
theorem step_masked (p : Processor) (dirty : Bool) (log : Log) :
    SameResult Alike (step p) (step (p.masked dirty log)) := by
  have hup : (p.masked dirty log).machine.upcoming = p.machine.upcoming := rfl
  rw [step_eq, step_eq, hup]
  rcases p.machine.upcoming with fault | _ | ins
  · exact .error fault ⟨dirty, log, rfl⟩
  · exact .ok none ⟨dirty, _, rfl⟩
  · obtain ⟨dirty', heffect⟩ := ins.effect_marked p.draws.next p.machine dirty
    have hmarked : ins.effect (p.masked dirty log).draws.next (p.masked dirty log).machine =
        (ins.effect p.draws.next p.machine).map (·.marked dirty') := heffect
    simp only [hmarked]
    rcases ins.effect p.draws.next p.machine with fault | machine
    · exact .error fault ⟨dirty, _, rfl⟩
    · exact .ok (some ins) ⟨dirty', _, rfl⟩

end Processor

/-- A key event does not look at the mark. -/
theorem Machine.keyEvent_marked (m : Machine) (dirty : Bool) (number : Int) (isDown : Bool) :
    keyEvent number isDown (m.marked dirty) = match keyEvent number isDown m with
      | .ok settled m' => .ok settled (m'.marked dirty)
      | .error error m' => .error error (m'.marked dirty) := by
  have hkeypad : (m.marked dirty).keypad = m.keypad := rfl
  rw [keyEvent, keyEvent, hkeypad]
  rcases m.keypad.set number isDown with fault | keypad
  · rfl
  · by_cases hawaited : (isDown && keypad.waiting) = true
    · simp only [if_pos hawaited]
      cases Registers.index? keypad.register <;> rfl
    · simp only [if_neg hawaited]
      rfl

namespace Processor

/-- A key event is the same to alike processors. -/
theorem keyEvent_masked (number : Int) (isDown : Bool) (p : Processor) (dirty : Bool) (log : Log) :
    SameResult Alike (keyEvent number isDown p) (keyEvent number isDown (p.masked dirty log)) := by
  have hkey := p.machine.keyEvent_marked dirty number isDown
  have hmachine : (p.masked dirty log).machine = p.machine.marked dirty := rfl
  rw [keyEvent, keyEvent, hmachine, hkey]
  rcases Machine.keyEvent number isDown p.machine with ⟨settled, machine⟩ | ⟨error, machine⟩
  · exact .ok settled ⟨dirty, log, rfl⟩
  · exact .error error ⟨dirty, log, rfl⟩

/-- Alike processors go in lockstep. -/
theorem lockstep_alike : Lockstep Alike where
  halted := by
    rintro p _ ⟨dirty, log, rfl⟩
    rfl
  waiting := by
    rintro p _ ⟨dirty, log, rfl⟩
    rfl
  step := by
    rintro p _ ⟨dirty, log, rfl⟩
    exact p.step_masked dirty log
  key := by
    rintro p _ ⟨dirty, log, rfl⟩ number isDown
    exact p.keyEvent_masked number isDown dirty log
  countDown := by
    rintro p _ ⟨dirty, log, rfl⟩
    exact ⟨dirty, log, rfl⟩
  halt := by
    rintro p _ ⟨dirty, log, rfl⟩
    exact ⟨dirty, log, rfl⟩
  log := by
    rintro p _ ⟨dirty, log, rfl⟩ change
    exact ⟨dirty, change log, rfl⟩

end Processor

/-! ## Pacers -/

namespace Pacer

variable {κ τ : Type}

/-- The pacer with another log and another mark of the screen. -/
def masked (p : Pacer κ τ) (dirty : Bool) (log : Log) : Pacer κ τ :=
  { p with processor := p.processor.masked dirty log }

/-- Two pacers differ at most in the log and in the mark of the screen. -/
def Alike (p q : Pacer κ τ) : Prop := ∃ dirty log, q = p.masked dirty log

namespace Alike

variable {p q r : Pacer κ τ}

theorem refl (p : Pacer κ τ) : p.Alike p :=
  ⟨p.processor.machine.screen.dirty, p.processor.log, rfl⟩

theorem symm (h : p.Alike q) : q.Alike p := by
  obtain ⟨dirty, log, rfl⟩ := h
  exact refl p

theorem trans (h : p.Alike q) (h' : q.Alike r) : p.Alike r := by
  obtain ⟨dirty, log, rfl⟩ := h
  obtain ⟨dirty', log', rfl⟩ := h'
  exact ⟨dirty', log', rfl⟩

theorem post (h : p.Alike q) (event : Event) : (p.post event).Alike (q.post event) := by
  obtain ⟨dirty, log, rfl⟩ := h
  exact ⟨dirty, log, rfl⟩

theorem mapLog (h : p.Alike q) (f : Log → Log) : p.Alike (q.mapLog f) := by
  obtain ⟨dirty, log, rfl⟩ := h
  exact ⟨dirty, f log, rfl⟩

theorem halt (h : p.Alike q) : (p.mapMachine .halt).Alike (q.mapMachine .halt) := by
  obtain ⟨dirty, log, rfl⟩ := h
  exact ⟨dirty, log, rfl⟩

end Alike

theorem Alike.matches {p q : Pacer κ τ} (h : p.Alike q) : p.Matches Processor.Alike q := by
  obtain ⟨dirty, log, rfl⟩ := h
  exact ⟨p.processor.masked dirty log, ⟨dirty, log, rfl⟩, rfl⟩

theorem Matches.alike {p q : Pacer κ τ} (h : p.Matches Processor.Alike q) : p.Alike q := by
  obtain ⟨_, ⟨dirty, log, rfl⟩, rfl⟩ := h
  exact ⟨dirty, log, rfl⟩

/-- **Alike pacers tick alike.** -/
theorem Alike.tick [Clock κ τ] [Add τ] [LE τ] [DecidableLE τ] {p q : Pacer κ τ} (h : p.Alike q) :
    SameResult Alike ((Pacing.tick : Pacing κ τ Bool) p) (Pacing.tick q) :=
  (tick_lockstep Processor.lockstep_alike h.matches).mono Matches.alike

end Pacer

end ChipEight
