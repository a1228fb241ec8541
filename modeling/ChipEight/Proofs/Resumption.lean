import ChipEight.Proofs.Deadlines
import ChipEight.Proofs.Lockstep
import ChipEight.Proofs.Pause

/-!
# Going on in the same tick

A press that ends a wait, and a request that ends a pause, set deadlines to the time that the
clock shows, while a tick is still applying events. When all of them are applied, the tick reads
the clock again. No event in between moves a deadline to a later time than the clock shows, so the
deadline has passed by then (`Pacer.Passed`), wherever it stood before the tick and whatever else
was queued. What the tick is held up by is gone, and it issues an instruction
(`Pacer.issues_tick`).
-/

namespace ChipEight

namespace Pacer

variable {κ τ : Type} [Clock κ τ] {p q r s : Pacer κ τ}

/-! ## Events that a tick comes to -/

/-- Applying the queued events comes to an event when the pacer is `s`: those ahead of it were
applied, and the machine is still running. -/
def Reaches (p : Pacer κ τ) (event : Event) (s : Pacer κ τ) : Prop :=
  ∃ before rest, p.queue = before ++ event :: rest ∧
    (Pacing.drain : Pacing κ τ Unit) { p with queue := before } = .ok () s ∧ s.halted = false

/-- While the queued events are applied, a press ends a wait. -/
def EndsAWait (p : Pacer κ τ) : Prop :=
  ∃ number s, p.Reaches (.key number true) s ∧ s.machine.waiting = true ∧
    (after (Pacing.apply (.key number true)) s).machine.waiting = false

/-- While the queued events are applied, a request to pause comes when the machine is paused, and
lets it go on. -/
def EndsAPause (p : Pacer κ τ) : Prop :=
  ∃ s, p.Reaches (.control .pause) s ∧ s.paused = true

/-! ## Deadlines that have passed -/

section Passed

variable [Preorder τ] {d : Deadline}

/-- A deadline has passed at every reading of the clock that is still to come. -/
structure Passed (p : Pacer κ τ) (d : Deadline) : Prop where
  monotone : Monotone (Clock.reading p.clock)
  due_le : p.due d ≤ p.now

/-- Going on after a pause, both deadlines have passed. -/
theorem passed_resume (hclock : Monotone (Clock.reading p.clock)) (d : Deadline) :
    p.resume.Passed d where
  monotone := Clock.monotone_reading_read hclock
  due_le := by
    cases d with
    | instruction => exact hclock (Nat.zero_le 1)
    | timers => exact hclock (Nat.zero_le 1)

/-- After a wait has ended, the deadline for instructions has passed. -/
theorem passed_hurry (hclock : Monotone (Clock.reading p.clock)) : p.hurry.Passed .instruction where
  monotone := Clock.monotone_reading_read hclock
  due_le := hclock (Nat.zero_le 1)

/-- A deadline that has passed still has when its time comes, unless it is met before. -/
theorem Passed.move [Add τ] (h : p.Passed d) {move : Move τ} (hmeets : move.meets = false) :
    (p.move move).Passed d := by
  have hread : p.due d ≤ p.timed.now := h.due_le.trans (h.monotone (Nat.zero_le 1))
  have hmonotone := Clock.monotone_reading_read h.monotone
  -- short of meeting it, a move takes a deadline nowhere but to the time that the clock shows
  cases move with
  | post _ | take _ | act _ | pause => cases d <;> exact ⟨h.monotone, h.due_le⟩
  | hurry =>
    cases d with
    | instruction => exact passed_hurry h.monotone
    | timers => exact ⟨hmonotone, hread⟩
  | resume => exact passed_resume h.monotone d
  | read => cases d <;> exact ⟨hmonotone, hread⟩
  | issue _ | count _ => cases hmeets

theorem Passed.moveAll [Add τ] (h : p.Passed d) {moves : List (Move τ)}
    (hmeets : ∀ move ∈ moves, move.meets = false) : (p.moveAll moves).Passed d := by
  induction moves generalizing p with
  | nil => exact h
  | cons move rest ih =>
    obtain ⟨hmove, hrest⟩ := List.forall_mem_cons.mp hmeets
    exact ih (h.move hmove) hrest

variable [Add τ]

/-- Applying events meets no deadline. -/
theorem Passed.applyAll {events : List Event} (h : p.Passed d) (hqueue : p.queue = events)
    (happly : (Pacing.applyAll events : Pacing κ τ Unit) p = .ok () q) : q.Passed d := by
  have hmoves := h.moveAll (meets_drainMoves events p)
  rwa [moveAll_drainMoves hqueue, after, happly] at hmoves

/-- Applying events does not take the clock back. -/
theorem monotone_of_drain (hclock : Monotone (Clock.reading p.clock))
    (hdrain : (Pacing.drain : Pacing κ τ Unit) p = .ok () q) :
    Monotone (Clock.reading q.clock) := by
  have hforward : p.Forward p.now := ⟨hclock, le_refl _⟩
  rw [← moveAll_of_drain hdrain]
  exact (hforward.moveAll _).monotone

/-- A deadline that has passed after one of the queued events has passed when all of them are
applied. -/
theorem Reaches.passed {event : Event} (hreaches : p.Reaches event s)
    (hclock : Monotone (Clock.reading p.clock))
    (hdrain : (Pacing.drain : Pacing κ τ Unit) p = .ok () q)
    (hevent : Monotone (Clock.reading s.clock) →
      ∀ r, (Pacing.apply event : Pacing κ τ Unit) s = .ok () r → r.Passed d) : q.Passed d := by
  obtain ⟨before, rest, hqueue, hbefore, hrunning⟩ := hreaches
  have hmonotone := monotone_of_drain (p := { p with queue := before }) hclock hbefore
  rw [drain_of_append hqueue hbefore hrunning] at hdrain
  rcases happly : (Pacing.apply event : Pacing κ τ Unit) s with ⟨_, r⟩ | ⟨error, r⟩
  · rw [happly] at hdrain
    have hpassed := hevent hmonotone r happly
    -- the events behind this one start from what it leaves, and meet no deadline either
    have hrest : Pacer.Passed { r with queue := rest } d := by
      cases d <;> exact ⟨hpassed.monotone, hpassed.due_le⟩
    exact hrest.applyAll rfl hdrain
  · rw [happly] at hdrain
    cases hdrain

/-- A press that ends a wait is followed by an instruction in time. -/
theorem EndsAWait.passed (h : p.EndsAWait) (hclock : Monotone (Clock.reading p.clock))
    (hdrain : (Pacing.drain : Pacing κ τ Unit) p = .ok () q) : q.Passed .instruction := by
  obtain ⟨number, s, hreaches, hwaiting, -⟩ := h
  refine hreaches.passed hclock hdrain fun hmonotone r happly => ?_
  have hout := Machine.keyEvent_outcome s.processor.machine number true
  rw [Pacing.apply_key] at happly
  generalize Machine.keyEvent number true s.processor.machine = result at hout happly
  cases hout with
  | unknown _ | misdirected _ _ _ _ => cases happly
  | noted _ hidle =>
    -- a key is noted and no more only when none is awaited
    have hnone : s.processor.machine.waiting = false := hidle
    cases hnone.symm.trans hwaiting
  | settled _ _ _ _ =>
    obtain ⟨-, rfl⟩ := EStateM.Result.ok.inj happly
    exact passed_hurry hmonotone

/-- After a pause has ended, neither deadline is still to come. -/
theorem EndsAPause.passed (h : p.EndsAPause) (hclock : Monotone (Clock.reading p.clock))
    (hdrain : (Pacing.drain : Pacing κ τ Unit) p = .ok () q) (d : Deadline) : q.Passed d := by
  obtain ⟨s, hreaches, hpaused⟩ := h
  refine hreaches.passed hclock hdrain fun hmonotone r happly => ?_
  rw [Pacing.apply_pause, togglePause, if_pos hpaused] at happly
  obtain ⟨-, rfl⟩ := EStateM.Result.ok.inj happly
  have hresumed := passed_resume hmonotone d
  cases d <;> exact ⟨hresumed.monotone, hresumed.due_le⟩

end Passed

/-! ## Ticks that issue an instruction -/

theorem Move.meets_of_isIssue {move : Move τ} (h : move.isIssue = true) : move.meets = true := by
  cases move with
  | issue _ => rfl
  | post _ | take _ | act _ | hurry | pause | resume | read | count _ => cases h

theorem Move.meets_of_isCount {move : Move τ} (h : move.isCount = true) : move.meets = true := by
  cases move with
  | count _ => rfl
  | post _ | take _ | act _ | hurry | pause | resume | read | issue _ => cases h

/-- Events make no moves that meet a deadline. -/
theorem countP_drainMoves {f : Move τ → Bool}
    (hmeets : ∀ {move : Move τ}, f move = true → move.meets = true) (events : List Event)
    (p : Pacer κ τ) : (drainMoves events p).countP f = 0 := by
  refine List.countP_eq_zero.mpr fun move hmove hf => ?_
  cases (hmeets hf).symm.trans (meets_drainMoves events p move hmove)

/-- The pacer for which a tick executes an instruction, after the events: the clock was read, and
the deadline has moved on. -/
def issued [Add τ] (p : Pacer κ τ) : Pacer κ τ :=
  { p.timed with nextClock := p.nextClock + p.clockPeriod }

section Tick

variable [LE τ]

/-- After the events of a tick, which lead to `q`, nothing keeps it from issuing an
instruction. -/
structure Clear (p q : Pacer κ τ) : Prop where
  drain : (Pacing.drain : Pacing κ τ Unit) p = .ok () q
  live : q.halted = false
  ready : q.machine.waiting = false
  going : q.paused = false
  due : q.nextClock ≤ q.now

namespace Clear

theorem running (h : p.Clear q) : p.halted = false := by
  have hdrain : (Pacing.drain : Pacing κ τ Unit) { p with queue := p.queue } = .ok () q := h.drain
  exact running_of_drain hdrain h.live

theorem isDue (h : p.Clear q) : Pacing.Due q.timed q.now := ⟨h.ready, h.due⟩

end Clear

variable [Add τ] [DecidableLE τ]

omit [Clock κ τ] in
/-- The timers do not halt the machine. -/
theorem halted_count (p : Pacer κ τ) (now : τ) : (Pacing.count p now).halted = p.halted := by
  rw [Pacing.count]
  by_cases hdue : p.nextTimer ≤ now
  · rw [if_pos hdue]
    rfl
  · rw [if_neg hdue]

namespace Clear

theorem issue_eq (h : p.Clear q) :
    (Pacing.issue q.now : Pacing κ τ Unit) q.timed = Pacing.step q.issued := by
  rw [Pacing.issue, if_pos h.isDue]
  rfl

theorem tick_eq (h : p.Clear q) :
    (Pacing.tick : Pacing κ τ Bool) p = match (Pacing.step : Pacing κ τ Unit) q.issued with
      | .ok _ r => .ok (!r.halted) (Pacing.count r q.now)
      | .error error r => .error error r := by
  rw [Pacing.tick_run, if_neg (Bool.eq_false_iff.mp h.running), h.drain]
  simp only [if_neg (Bool.eq_false_iff.mp h.live), if_neg (Bool.eq_false_iff.mp h.going)]
  rw [Pacing.meetDeadlines_run, h.issue_eq]
  rcases (Pacing.step : Pacing κ τ Unit) q.issued with ⟨_, r⟩ | ⟨error, r⟩
  · show EStateM.Result.ok (!(Pacing.count r q.now).halted) _ = _
    rw [halted_count]
  · rfl

theorem tickMoves_eq (h : p.Clear q) :
    p.tickMoves = drainMoves p.queue p ++ [.read, .issue q.now, .act .step] ++
      match (Pacing.step : Pacing κ τ Unit) q.issued with
      | .ok _ r => countMoves q.now r
      | .error _ _ => [] := by
  rw [tickMoves, if_neg (Bool.eq_false_iff.mp h.running), h.drain]
  simp only [if_neg (Bool.eq_false_iff.mp h.live), if_neg (Bool.eq_false_iff.mp h.going)]
  rw [deadlineMoves, issueMoves, if_pos h.isDue, h.issue_eq, List.append_assoc]
  rfl

/-- One instruction is issued, whether or not it is refused. -/
theorem countP_isIssue (h : p.Clear q) : p.tickMoves.countP Move.isIssue = 1 := by
  rw [h.tickMoves_eq, List.countP_append, List.countP_append,
    countP_drainMoves Move.meets_of_isIssue]
  rcases (Pacing.step : Pacing κ τ Unit) q.issued with ⟨_, r⟩ | ⟨error, r⟩
  · rcases countMoves_cases q.now r with hmoves | hmoves
    · simp only [hmoves]
      rfl
    · simp only [hmoves]
      rfl
  · rfl

/-- The timers take no step when the instruction is refused. -/
theorem countP_isCount_of_error {error : Error} (h : p.Clear q)
    (hstep : (Pacing.step : Pacing κ τ Unit) q.issued = .error error r) :
    p.tickMoves.countP Move.isCount = 0 := by
  rw [h.tickMoves_eq, hstep, List.countP_append, List.countP_append,
    countP_drainMoves Move.meets_of_isCount]
  rfl

/-- When the deadline for the timers has passed, they take one step after the instruction, and
each that is not zero shows one less. -/
theorem count_of_ok (h : p.Clear q) (htimer : q.nextTimer ≤ q.now)
    (hstep : (Pacing.step : Pacing κ τ Unit) q.issued = .ok () r) :
    p.tickMoves.countP Move.isCount = 1 ∧
    Pacing.count r q.now =
      { r with nextTimer := q.nextTimer + r.timerPeriod }.mapMachine Machine.countDown ∧
    r.machine.CountedDown (Pacing.count r q.now).machine := by
  have hkept : r.nextTimer = q.nextTimer := by
    have hnext := nextTimer_issue q.now q.timed
    rw [after, h.issue_eq, hstep] at hnext
    exact hnext
  have hpassed : r.nextTimer ≤ q.now := hkept ▸ htimer
  have hmoves : countMoves q.now r = [.count q.now, .act .countDown] := if_pos hpassed
  have hcount : Pacing.count r q.now =
      { r with nextTimer := q.nextTimer + r.timerPeriod }.mapMachine Machine.countDown := by
    rw [Pacing.count, if_pos hpassed, hkept]
  refine ⟨?_, hcount, ?_⟩
  · rw [h.tickMoves_eq, hstep, List.countP_append, List.countP_append,
      countP_drainMoves Move.meets_of_isCount]
    simp only [hmoves]
    rfl
  · rw [hcount]
    exact r.machine.countedDown_countDown

end Clear

end Tick

section Law

variable [Add τ] [Preorder τ] [DecidableLE τ]

/-- **Going on in the same tick.** Take a clock that does not go back, any pacer, wherever its
deadlines are, and any queue. While its events are applied none is refused, and a press ends a
wait or a request ends a pause. If after the events the machine has not halted, no key is awaited
and it is not paused, the tick issues exactly one instruction: it executes it, and is refused with
it if it is. If a pause has ended, the deadline for the timers has passed as well, and unless the
instruction is refused the timers take one step: each that is not zero shows one less. -/
theorem issues_tick (hclock : Monotone (Clock.reading p.clock))
    (hdrain : (Pacing.drain : Pacing κ τ Unit) p = .ok () q) (hlive : q.halted = false)
    (hready : q.machine.waiting = false) (hgoing : q.paused = false)
    (hends : p.EndsAWait ∨ p.EndsAPause) :
    p.tickMoves.countP Move.isIssue = 1 ∧
    (∀ error r, (Pacing.step : Pacing κ τ Unit) q.issued = .error error r →
      (Pacing.tick : Pacing κ τ Bool) p = .error error r ∧ p.tickMoves.countP Move.isCount = 0) ∧
    (∀ r, (Pacing.step : Pacing κ τ Unit) q.issued = .ok () r →
      (Pacing.tick : Pacing κ τ Bool) p = .ok (!r.halted) (Pacing.count r q.now)) ∧
    (p.EndsAPause → q.nextTimer ≤ q.now ∧
      ∀ r, (Pacing.step : Pacing κ τ Unit) q.issued = .ok () r →
        p.tickMoves.countP Move.isCount = 1 ∧
        Pacing.count r q.now =
          { r with nextTimer := q.nextTimer + r.timerPeriod }.mapMachine Machine.countDown ∧
        r.machine.CountedDown (Pacing.count r q.now).machine) := by
  have hdue : q.nextClock ≤ q.now := by
    rcases hends with hwait | hpause
    · exact (hwait.passed hclock hdrain).due_le
    · exact (hpause.passed hclock hdrain .instruction).due_le
  have hclear : p.Clear q := ⟨hdrain, hlive, hready, hgoing, hdue⟩
  refine ⟨hclear.countP_isIssue, fun error r hstep => ?_, fun r hstep => ?_, fun hpause => ?_⟩
  · rw [hclear.tick_eq, hstep]
    exact ⟨rfl, hclear.countP_isCount_of_error hstep⟩
  · rw [hclear.tick_eq, hstep]
  · have htimer : q.nextTimer ≤ q.now := (hpause.passed hclock hdrain .timers).due_le
    exact ⟨htimer, fun r hstep => hclear.count_of_ok htimer hstep⟩

/-- Both deadlines are a long way off when key 11 ends the wait of `F10A` and a second request
ends a pause, with a release, a single step and a press that nothing awaits around them. The tick
executes `6205`, and the timers take a step. -/
theorem issues_tick_of_key_and_pause :
    let machine : Machine :=
      { Machine.initial with
        memory := Memory.blank.store Memory.programStart [0xF1, 0x0A, 0x62, 0x05] }
    let start : Pacer (HandClock Nat) Nat :=
      new (.ofMachine machine (.ofSource fun _ => 0) (.new false)) ⟨0, 1⟩ 1000 1000
    let p := start.performAll
      [.tick, .post (.key 3 false), .post (.control .step), .post (.key 11 true),
        .post (.control .pause), .post (.control .pause), .post (.key 12 true)]
    p.nextClock = 1000 ∧ p.nextTimer = 1000 ∧ p.now = 2 ∧ p.EndsAWait ∧ p.EndsAPause ∧
    p.tickMoves.countP Move.isIssue = 1 ∧ p.tickMoves.countP Move.isCount = 1 ∧
    ∃ q : Pacer (HandClock Nat) Nat,
      (Pacing.tick : Pacing (HandClock Nat) Nat Bool) p = .ok true q ∧
      q.machine.registers.v.get 1 = 11 ∧ q.machine.registers.v.get 2 = 5 := by
  intro machine start p
  let early : List Event := [.key 3 false, .control .step]
  let late : List Event := early ++ [.key 11 true, .control .pause]
  let waits : Pacer (HandClock Nat) Nat := after Pacing.drain { p with queue := early }
  let pauses : Pacer (HandClock Nat) Nat := after Pacing.drain { p with queue := late }
  let q : Pacer (HandClock Nat) Nat := after Pacing.drain p
  let r : Pacer (HandClock Nat) Nat := after Pacing.step q.issued
  have hclock : Monotone (Clock.reading p.clock) := HandClock.monotone_reading (Nat.zero_le _)
  -- the facts are computed together, for the machine is the same in all of them
  obtain ⟨hnextClock, hnextTimer, hnow, hqueue, hdrain, hlive, hready, hgoing, hstep, hend,
      hearly, hrunning, hwaiting, hsettled, hlate, hlater, hpaused, hfirst, hsecond⟩ :
      p.nextClock = 1000 ∧ p.nextTimer = 1000 ∧ p.now = 2 ∧
      p.queue = late ++ [.control .pause, .key 12 true] ∧
      (ChipEight.answer Pacing.drain p).toOption = some () ∧ q.halted = false ∧
      q.machine.waiting = false ∧ q.paused = false ∧
      (ChipEight.answer Pacing.step q.issued).toOption = some () ∧ r.halted = false ∧
      (ChipEight.answer Pacing.drain { p with queue := early }).toOption = some () ∧
      waits.halted = false ∧ waits.machine.waiting = true ∧
      (after (Pacing.apply (.key 11 true)) waits).machine.waiting = false ∧
      (ChipEight.answer Pacing.drain { p with queue := late }).toOption = some () ∧
      pauses.halted = false ∧ pauses.paused = true ∧
      (Pacing.count r q.now).machine.registers.v.get 1 = 11 ∧
      (Pacing.count r q.now).machine.registers.v.get 2 = 5 := by
    decide +kernel
  have hsplit : p.queue = early ++
      .key 11 true :: [.control .pause, .control .pause, .key 12 true] :=
    hqueue.trans (List.append_assoc _ _ _)
  have hwait : p.EndsAWait :=
    ⟨11, waits, ⟨early, _, hsplit, run_of_answer hearly, hrunning⟩, hwaiting, hsettled⟩
  have hpause : p.EndsAPause :=
    ⟨pauses, ⟨late, [.key 12 true], hqueue, run_of_answer hlate, hlater⟩, hpaused⟩
  have hexecutes : (Pacing.step : Pacing (HandClock Nat) Nat Unit) q.issued = .ok () r :=
    run_of_answer hstep
  obtain ⟨hissues, -, hticks, hcounts⟩ :=
    issues_tick hclock (run_of_answer hdrain) hlive hready hgoing (.inl hwait)
  obtain ⟨hcount, -⟩ := (hcounts hpause).2 r hexecutes
  have htick := hticks r hexecutes
  rw [hend] at htick
  -- nothing has to be computed any more
  clear_value r
  exact ⟨hnextClock, hnextTimer, hnow, hwait, hpause, hissues, hcount, _, htick, hfirst, hsecond⟩

end Law

end Pacer

end ChipEight
