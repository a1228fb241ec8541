import ChipEight.Pacer
import ChipEight.Proofs.Action

/-!
# Pacing, computation by computation

One equation for each computation on a pacer, by cases on what it meets. Each is
the computation with its reads and writes carried out; the laws about pacers
cite these equations and do not look at the computations again.
-/

namespace ChipEight

namespace Pacer

variable {κ τ : Type}

/-- Replace the machine. -/
def withMachine (p : Pacer κ τ) (machine : Machine) : Pacer κ τ :=
  { p with processor := { p.processor with machine } }

variable [Clock κ τ]

/-- The time that the clock shows. -/
def now (p : Pacer κ τ) : τ := (Clock.read p.clock).1

/-- The pacer after its clock was read. -/
def timed (p : Pacer κ τ) : Pacer κ τ := { p with clock := (Clock.read p.clock).2 }

end Pacer

namespace Pacing

variable {κ τ : Type}

theorem halted_run (p : Pacer κ τ) : (halted : Pacing κ τ Bool) p = .ok p.halted p := rfl

theorem waiting_run (p : Pacer κ τ) :
    (waiting : Pacing κ τ Bool) p = .ok p.processor.machine.waiting p := rfl

/-! ## Events -/

theorem step_run (p : Pacer κ τ) :
    (step : Pacing κ τ Unit) p = match Processor.step p.processor with
      | .ok _ processor => .ok () { p with processor }
      | .error fault processor => .error (.fault fault) { p with processor } := by
  rw [step, bind_run, onProcessor]
  cases Processor.step p.processor <;> rfl

/-- A step leaves behind what the step of the processor leaves behind. -/
theorem after_step (p : Pacer κ τ) :
    after (step : Pacing κ τ Unit) p = { p with processor := after Processor.step p.processor } := by
  rw [after, step_run, after]
  cases Processor.step p.processor <;> rfl

variable [Clock κ τ]

theorem apply_key (number : Int) (isDown : Bool) (p : Pacer κ τ) :
    (apply (.key number isDown) : Pacing κ τ Unit) p =
      match Machine.keyEvent number isDown p.processor.machine with
      | .ok true machine => .ok () (p.withMachine machine).hurry
      | .ok false machine => .ok () (p.withMachine machine)
      | .error error machine => .error error (p.withMachine machine) := by
  rw [apply, bind_run, onMachine]
  rcases Machine.keyEvent number isDown p.processor.machine with ⟨_ | _, machine⟩ | ⟨error, machine⟩
  · rfl
  · rfl
  · rfl

theorem apply_pause (p : Pacer κ τ) :
    (apply (.control .pause) : Pacing κ τ Unit) p = .ok () p.togglePause := rfl

theorem apply_step (p : Pacer κ τ) :
    (apply (.control .step) : Pacing κ τ Unit) p =
      if p.processor.machine.waiting then .ok () p else step p := by
  refine (bind_run waiting _ p).trans ?_
  rw [waiting_run]
  cases p.processor.machine.waiting with
  | true => rfl
  | false => rfl

theorem apply_quit (p : Pacer κ τ) :
    (apply (.control .quit) : Pacing κ τ Unit) p =
      .ok () ((p.mapLog (·.info "Exit requested")).mapMachine .halt) := rfl

theorem apply_foreign (value : Foreign) (p : Pacer κ τ) :
    (apply (.foreign value) : Pacing κ τ Unit) p =
      .error (.misuse (.foreignEvent value.shown)) p := rfl

theorem applyAll_nil (p : Pacer κ τ) : (applyAll [] : Pacing κ τ Unit) p = .ok () p := rfl

theorem applyAll_cons (event : Event) (rest : List Event) (p : Pacer κ τ) :
    (applyAll (event :: rest) : Pacing κ τ Unit) p =
      if p.halted then .ok () p
      else match (apply event : Pacing κ τ Unit) { p with queue := rest } with
        | .ok _ q => applyAll rest q
        | .error error q => .error error q := by
  refine (bind_run halted _ p).trans ?_
  rw [halted_run]
  cases p.halted with
  | true => rfl
  | false =>
    refine (bind_run (apply event) (fun _ => applyAll rest) { p with queue := rest }).trans ?_
    rw [if_neg Bool.false_ne_true]
    -- both sides go on by the same cases, but not by the same `match`
    cases (apply event : Pacing κ τ Unit) { p with queue := rest } <;> rfl

theorem drain_run (p : Pacer κ τ) :
    (drain : Pacing κ τ Unit) p = applyAll p.queue p := rfl

/-! ## Deadlines -/

variable [Add τ] [LE τ] [DecidableLE τ]

/-- Whether an instruction is issued at a time. -/
def Due (p : Pacer κ τ) (now : τ) : Prop :=
  p.processor.machine.waiting = false ∧ p.nextClock ≤ now

instance (p : Pacer κ τ) (now : τ) : Decidable (Due p now) :=
  inferInstanceAs (Decidable (_ ∧ _))

/-- The first half of meeting the deadlines: execute an instruction if it is due. -/
def issue (now : τ) : Pacing κ τ Unit := fun p =>
  if Due p now then step { p with nextClock := p.nextClock + p.clockPeriod } else .ok () p

/-- The second half of meeting the deadlines: let the timers take a step if it is
due. -/
def count (p : Pacer κ τ) (now : τ) : Pacer κ τ :=
  if p.nextTimer ≤ now then
    { p with nextTimer := p.nextTimer + p.timerPeriod }.mapMachine Machine.countDown
  else p

omit [Clock κ τ] [Add τ] in
theorem due_iff {p : Pacer κ τ} {now : τ} :
    (!p.processor.machine.waiting && decide (p.nextClock ≤ now)) = true ↔ Due p now := by
  rw [Bool.and_eq_true, Bool.not_eq_true', decide_eq_true_eq, Due]

omit [Clock κ τ] in
/-- The second half of meeting the deadlines, as a computation. -/
theorem count_run (now : τ) (p : Pacer κ τ) :
    (do if (← get).nextTimer ≤ now then
          modify fun p =>
            { p with nextTimer := p.nextTimer + p.timerPeriod }.mapMachine fun m =>
              { m with registers := m.registers.decrementTimers } : Pacing κ τ Unit) p =
      .ok () (count p now) := by
  refine (bind_run get _ p).trans ?_
  rw [count]
  by_cases hdue : p.nextTimer ≤ now
  · simp only [get_run, if_pos hdue]
    rfl
  · simp only [get_run, if_neg hdue]
    rfl

omit [Clock κ τ] in
theorem meetDeadlines_run (now : τ) (p : Pacer κ τ) :
    (meetDeadlines now : Pacing κ τ Unit) p = match issue now p with
      | .ok _ q => .ok () (count q now)
      | .error error q => .error error q := by
  refine (bind_run waiting _ p).trans ?_
  rw [waiting_run]
  refine (bind_run get _ p).trans ?_
  by_cases hdue : Due p now
  · simp only [get_run, due_iff.mpr hdue, issue, if_pos hdue]
    refine (bind_run step _ { p with nextClock := p.nextClock + p.clockPeriod }).trans ?_
    rcases (step : Pacing κ τ Unit) _ with ⟨_, q⟩ | ⟨error, q⟩
    · exact count_run now q
    · rfl
  · simp only [get_run, mt due_iff.mp hdue, issue, if_neg hdue]
    exact count_run now p

/-! ## Ticks -/

theorem tick_run (p : Pacer κ τ) :
    (tick : Pacing κ τ Bool) p =
      if p.halted then .ok false p
      else match (drain : Pacing κ τ Unit) p with
        | .error error q => .error error q
        | .ok _ q =>
          if q.halted then .ok false q
          else if q.paused then .ok true q
          else
            match (meetDeadlines q.now : Pacing κ τ Unit) q.timed with
            | .error error r => .error error r
            | .ok _ r => .ok (!r.halted) r := by
  refine (bind_run halted _ p).trans ?_
  rw [halted_run]
  cases p.halted with
  | true => rfl
  | false =>
    refine (bind_run drain _ p).trans ?_
    rw [if_neg Bool.false_ne_true]
    rcases (drain : Pacing κ τ Unit) p with ⟨_, q⟩ | ⟨error, q⟩
    · refine (bind_run halted _ q).trans ?_
      by_cases hhalted : q.halted = true
      · simp only [halted_run, if_pos hhalted]
        rfl
      simp only [halted_run, if_neg hhalted]
      refine (bind_run get _ q).trans ?_
      by_cases hpaused : q.paused = true
      · simp only [get_run, if_pos hpaused]
        rfl
      · simp only [get_run, if_neg hpaused]
        refine (bind_run (meetDeadlines q.now) _ q.timed).trans ?_
        cases (meetDeadlines q.now : Pacing κ τ Unit) q.timed <;> rfl
    · rfl

theorem runFrom_zero (done : Nat) (p : Pacer κ τ) :
    (runFrom done 0 : Pacing κ τ Nat) p = .ok done p := rfl

theorem runFrom_succ (done more : Nat) (p : Pacer κ τ) :
    (runFrom done (more + 1) : Pacing κ τ Nat) p = match (tick : Pacing κ τ Bool) p with
      | .error error q => .error error q
      | .ok true q => runFrom (done + 1) more q
      | .ok false q => .ok done q := by
  rw [runFrom, bind_run]
  rcases (tick : Pacing κ τ Bool) p with ⟨_ | _, q⟩ | ⟨error, q⟩
  · rfl
  · rfl
  · rfl

end Pacing

end ChipEight
