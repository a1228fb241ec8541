import ChipEight.Proofs.Pacing

/-!
# The course of a run

A run of a pacer is a list of operations: something is done to its processor
directly, an event is posted, the run is paused or resumed, a tick is made. Each
operation breaks down into moves, the smallest things that happen to a pacer, and
which moves these are is a function of the pacer: `Pacer.course` is the list of
all moves of a run, in order.

The central law is `Pacer.moveAll_course`: the pacer after a run is the pacer
after the moves of its course. Whatever a single move keeps, every run keeps, and
what has happened in a run (which events were taken, which actions reached the
processor) can be read off its course.
-/

namespace ChipEight

namespace Pacer

/-! ## Moves -/

/-- The smallest things that happen to a pacer. -/
inductive Move (τ : Type) where
  /-- an event is put at the end of the queue -/
  | post (event : Event)
  /-- the first event of the queue is taken off it -/
  | take (event : Event)
  /-- the processor is acted on -/
  | act (action : Processor.Action)
  /-- the next instruction becomes due at once -/
  | hurry
  | pause
  | resume
  /-- the clock is read, so that the deadlines can be looked at -/
  | read
  /-- the deadline for instructions has passed at a time, and moves on -/
  | issue (now : τ)
  /-- the deadline for the timers has passed at a time, and moves on -/
  | count (now : τ)

/-- The action of a move on the processor, if it is one. -/
def Move.action? {τ : Type} : Move τ → Option Processor.Action
  | .act action => some action
  | _ => none

/-- The actions on the processor among moves. -/
def actions {τ : Type} (moves : List (Move τ)) : List Processor.Action :=
  moves.filterMap Move.action?

theorem actions_append {τ : Type} (first rest : List (Move τ)) :
    actions (first ++ rest) = actions first ++ actions rest :=
  List.filterMap_append

variable {κ τ : Type} [Clock κ τ] [Add τ]

/-- The pacer after a move. -/
def move (p : Pacer κ τ) : Move τ → Pacer κ τ
  | .post event => p.post event
  | .take _ => { p with queue := p.queue.tail }
  | .act action => { p with processor := p.processor.act action }
  | .hurry => p.hurry
  | .pause => p.pause
  | .resume => p.resume
  | .read => p.timed
  | .issue _ => { p with nextClock := p.nextClock + p.clockPeriod }
  | .count _ => { p with nextTimer := p.nextTimer + p.timerPeriod }

/-- The pacer after a sequence of moves. -/
def moveAll (p : Pacer κ τ) (moves : List (Move τ)) : Pacer κ τ :=
  moves.foldl move p

@[simp] theorem moveAll_nil (p : Pacer κ τ) : p.moveAll [] = p := rfl

@[simp] theorem moveAll_cons (p : Pacer κ τ) (move : Move τ) (rest : List (Move τ)) :
    p.moveAll (move :: rest) = (p.move move).moveAll rest := rfl

theorem move_take {p : Pacer κ τ} {event : Event} {rest : List Event}
    (hqueue : p.queue = event :: rest) : p.move (.take event) = { p with queue := rest } := by
  rw [move, hqueue, List.tail_cons]

theorem moveAll_append (p : Pacer κ τ) (first rest : List (Move τ)) :
    p.moveAll (first ++ rest) = (p.moveAll first).moveAll rest :=
  List.foldl_append

/-- Moves concern the processor by their actions only. -/
theorem processor_moveAll (p : Pacer κ τ) (moves : List (Move τ)) :
    (p.moveAll moves).processor = p.processor.actAll (actions moves) := by
  induction moves generalizing p with
  | nil => rfl
  | cons move rest ih =>
    rw [moveAll_cons, ih]
    cases move <;> rfl

/-! ## The moves of a tick -/

/-- The moves of pausing, or of resuming when paused. -/
def toggleMoves (p : Pacer κ τ) : List (Move τ) :=
  if p.paused then [.resume, .act (.log (·.info "Resumed"))]
  else [.pause, .act (.log (·.info "Paused"))]

/-- The moves of an event that has its effect. -/
def eventMoves (p : Pacer κ τ) : Event → List (Move τ)
  | .key number isDown =>
    .act (.key number isDown) ::
      match Machine.keyEvent number isDown p.processor.machine with
      | .ok true _ => [.hurry]
      | _ => []
  | .control .pause => p.toggleMoves
  | .control .step => if p.processor.machine.waiting then [] else [.act .step]
  | .control .quit => [.act (.log (·.info "Exit requested")), .act .halt]
  | .foreign _ => []

/-- The moves of taking the given events off the queue, one after the other. -/
def drainMoves : List Event → Pacer κ τ → List (Move τ)
  | [], _ => []
  | event :: rest, p =>
    if p.halted then []
    else
      .take event :: ({ p with queue := rest } : Pacer κ τ).eventMoves event ++
        match (Pacing.apply event : Pacing κ τ Unit) { p with queue := rest } with
        | .ok _ q => drainMoves rest q
        | .error _ _ => []

variable [LE τ] [DecidableLE τ]

/-- The moves of executing an instruction if it is due. -/
def issueMoves (now : τ) (p : Pacer κ τ) : List (Move τ) :=
  if Pacing.Due p now then [.issue now, .act .step] else []

/-- The moves of letting the timers take a step if it is due. -/
def countMoves (now : τ) (p : Pacer κ τ) : List (Move τ) :=
  if p.nextTimer ≤ now then [.count now, .act .countDown] else []

/-- The moves of meeting the deadlines. The timers are not looked at when the
instruction is refused. -/
def deadlineMoves (now : τ) (p : Pacer κ τ) : List (Move τ) :=
  issueMoves now p ++
    match Pacing.issue now p with
    | .ok _ q => countMoves now q
    | .error _ _ => []

/-- The moves of a tick. -/
def tickMoves (p : Pacer κ τ) : List (Move τ) :=
  if p.halted then []
  else
    drainMoves p.queue p ++
      match (Pacing.drain : Pacing κ τ Unit) p with
      | .error _ _ => []
      | .ok _ q =>
        if q.halted then []
        else if q.paused then []
        else .read :: deadlineMoves q.now q.timed

/-- The moves of ticks until the machine halts, but at most the given number of
them. -/
def runMoves : Nat → Pacer κ τ → List (Move τ)
  | 0, _ => []
  | more + 1, p =>
    p.tickMoves ++
      match (Pacing.tick : Pacing κ τ Bool) p with
      | .ok true q => runMoves more q
      | _ => []

/-! ## What events and ticks come to -/

section Events

omit [Add τ] [LE τ] [DecidableLE τ]

/-- What applying events can come to, and the moves that it makes. -/
inductive Drains :
    List Event → Pacer κ τ → EStateM.Result Error (Pacer κ τ) Unit → List (Move τ) → Prop
  /-- there are no more events -/
  | done (p : Pacer κ τ) : Drains [] p (.ok () p) []
  /-- a machine that has halted takes no event -/
  | halted {p : Pacer κ τ} (events : List Event) (hhalted : p.halted = true) :
    Drains events p (.ok () p) []
  /-- the first event has its effect, and then the others -/
  | applies {p q : Pacer κ τ} {event : Event} {rest : List Event}
    {result : EStateM.Result Error (Pacer κ τ) Unit} {moves : List (Move τ)}
    (hrunning : p.halted = false)
    (happly : (Pacing.apply event : Pacing κ τ Unit) { p with queue := rest } = .ok () q)
    (hrest : Drains rest q result moves) :
    Drains (event :: rest) p result
      (.take event :: ({ p with queue := rest } : Pacer κ τ).eventMoves event ++ moves)
  /-- the first event is refused -/
  | refuses {p q : Pacer κ τ} {event : Event} {rest : List Event} {error : Error}
    (hrunning : p.halted = false)
    (happly : (Pacing.apply event : Pacing κ τ Unit) { p with queue := rest } = .error error q) :
    Drains (event :: rest) p (.error error q)
      (.take event :: ({ p with queue := rest } : Pacer κ τ).eventMoves event)

theorem drains (events : List Event) (p : Pacer κ τ) :
    Drains events p (Pacing.applyAll events p) (drainMoves events p) := by
  induction events generalizing p with
  | nil => exact .done p
  | cons event rest ih =>
    rw [Pacing.applyAll_cons, drainMoves]
    by_cases hhalted : p.halted = true
    · rw [if_pos hhalted, if_pos hhalted]
      exact .halted _ hhalted
    have hrunning := Bool.eq_false_iff.mpr hhalted
    rw [if_neg hhalted, if_neg hhalted]
    rcases happly : (Pacing.apply event : Pacing κ τ Unit) { p with queue := rest } with
      ⟨_, q⟩ | ⟨error, q⟩
    · exact .applies hrunning happly (ih q)
    · simp only [List.append_nil]
      exact .refuses hrunning happly

end Events

omit [Clock κ τ] [Add τ] in
theorem issueMoves_cases (now : τ) (p : Pacer κ τ) :
    issueMoves now p = [] ∨ issueMoves now p = [.issue now, .act .step] := by
  rw [issueMoves]
  by_cases hdue : Pacing.Due p now
  · rw [if_pos hdue]
    exact .inr rfl
  · rw [if_neg hdue]
    exact .inl rfl

omit [Clock κ τ] [Add τ] in
theorem countMoves_cases (now : τ) (p : Pacer κ τ) :
    countMoves now p = [] ∨ countMoves now p = [.count now, .act .countDown] := by
  rw [countMoves]
  by_cases hdue : p.nextTimer ≤ now
  · rw [if_pos hdue]
    exact .inr rfl
  · rw [if_neg hdue]
    exact .inl rfl

omit [Clock κ τ] in
/-- Meeting the deadlines meets each one at most once. -/
theorem exists_deadlineMoves_eq (now : τ) (p : Pacer κ τ) : ∃ issued counted,
    deadlineMoves now p = issued ++ counted ∧
      (issued = [] ∨ issued = [.issue now, .act .step]) ∧
      (counted = [] ∨ counted = [.count now, .act .countDown]) := by
  rw [deadlineMoves]
  refine ⟨_, _, rfl, issueMoves_cases now p, ?_⟩
  rcases (Pacing.issue now : Pacing κ τ Unit) p with ⟨_, q⟩ | ⟨error, q⟩
  · exact countMoves_cases now q
  · exact .inl rfl

/-- What a tick can come to, and the moves that it makes. -/
inductive Turn (p : Pacer κ τ) : EStateM.Result Error (Pacer κ τ) Bool → List (Move τ) → Prop
  /-- the machine has halted before -/
  | halted (hhalted : p.halted = true) : Turn p (.ok false p) []
  /-- an event is refused -/
  | refused {q : Pacer κ τ} {error : Error} (hrunning : p.halted = false)
    (hdrain : (Pacing.drain : Pacing κ τ Unit) p = .error error q) :
    Turn p (.error error q) (drainMoves p.queue p)
  /-- an event halts the machine -/
  | stopped {q : Pacer κ τ} (hrunning : p.halted = false)
    (hdrain : (Pacing.drain : Pacing κ τ Unit) p = .ok () q) (hhalted : q.halted = true) :
    Turn p (.ok false q) (drainMoves p.queue p)
  /-- the events were applied to a machine that is paused -/
  | paused {q : Pacer κ τ} (hrunning : p.halted = false)
    (hdrain : (Pacing.drain : Pacing κ τ Unit) p = .ok () q) (hlive : q.halted = false)
    (hpaused : q.paused = true) : Turn p (.ok true q) (drainMoves p.queue p)
  /-- the deadlines are met -/
  | met {q r : Pacer κ τ} (hrunning : p.halted = false)
    (hdrain : (Pacing.drain : Pacing κ τ Unit) p = .ok () q) (hlive : q.halted = false)
    (hgoing : q.paused = false)
    (hmeet : (Pacing.meetDeadlines q.now : Pacing κ τ Unit) q.timed = .ok () r) :
    Turn p (.ok (!r.halted) r) (drainMoves p.queue p ++ .read :: deadlineMoves q.now q.timed)
  /-- the instruction that was due is refused -/
  | failed {q r : Pacer κ τ} {error : Error} (hrunning : p.halted = false)
    (hdrain : (Pacing.drain : Pacing κ τ Unit) p = .ok () q) (hlive : q.halted = false)
    (hgoing : q.paused = false)
    (hmeet : (Pacing.meetDeadlines q.now : Pacing κ τ Unit) q.timed = .error error r) :
    Turn p (.error error r) (drainMoves p.queue p ++ .read :: deadlineMoves q.now q.timed)

/-- Every tick comes to one of these. -/
theorem turn (p : Pacer κ τ) : Turn p (Pacing.tick p) p.tickMoves := by
  rw [Pacing.tick_run, tickMoves]
  by_cases hhalted : p.halted = true
  · rw [if_pos hhalted, if_pos hhalted]
    exact .halted hhalted
  have hrunning := Bool.eq_false_iff.mpr hhalted
  rw [if_neg hhalted, if_neg hhalted]
  rcases hdrain : (Pacing.drain : Pacing κ τ Unit) p with ⟨_, q⟩ | ⟨error, q⟩
  · by_cases hstopped : q.halted = true
    · simp only [if_pos hstopped, List.append_nil]
      exact .stopped hrunning hdrain hstopped
    have hlive := Bool.eq_false_iff.mpr hstopped
    by_cases hpaused : q.paused = true
    · simp only [if_neg hstopped, if_pos hpaused, List.append_nil]
      exact .paused hrunning hdrain hlive hpaused
    have hgoing := Bool.eq_false_iff.mpr hpaused
    simp only [if_neg hstopped, if_neg hpaused]
    rcases hmeet : (Pacing.meetDeadlines q.now : Pacing κ τ Unit) q.timed with
      ⟨_, r⟩ | ⟨error, r⟩
    · exact .met hrunning hdrain hlive hgoing hmeet
    · exact .failed hrunning hdrain hlive hgoing hmeet
  · simp only [List.append_nil]
    exact .refused hrunning hdrain

/-! ## Laws of the moves of ticks -/

/-- A law of moves that holds of the pieces that ticks are made of, and of pieces one after
the other. -/
structure Piecewise (κ : Type) {τ : Type} (law : List (Move τ) → Prop) : Prop where
  nil : law []
  append : ∀ {first rest}, law first → law rest → law (first ++ rest)
  event : ∀ (event : Event) (p : Pacer κ τ), law (.take event :: p.eventMoves event)
  read : law [.read]
  issue : ∀ now, law [.issue now, .act .step]
  count : ∀ now, law [.count now, .act .countDown]

section Laws

variable {law : List (Move τ) → Prop}

omit [Add τ] [LE τ] [DecidableLE τ] in
/-- Such a law holds of the moves of applying events. -/
theorem Piecewise.drain (h : Piecewise κ law) (events : List Event) (p : Pacer κ τ) :
    law (drainMoves events p) := by
  have hdrains := drains events p
  generalize (Pacing.applyAll events : Pacing κ τ Unit) p = result at hdrains
  generalize drainMoves events p = moves at hdrains ⊢
  induction hdrains with
  | done p => exact h.nil
  | halted events hhalted => exact h.nil
  | applies hrunning happly hrest ih => exact h.append (h.event _ _) ih
  | refuses hrunning happly => exact h.event _ _

omit [Clock κ τ] in
theorem Piecewise.deadline (h : Piecewise κ law) (now : τ) (p : Pacer κ τ) :
    law (deadlineMoves now p) := by
  obtain ⟨issued, counted, hmoves, hissued, hcounted⟩ := exists_deadlineMoves_eq now p
  rw [hmoves]
  refine h.append ?_ ?_
  · rcases hissued with rfl | rfl
    · exact h.nil
    · exact h.issue now
  · rcases hcounted with rfl | rfl
    · exact h.nil
    · exact h.count now

/-- It holds of the moves of a tick. -/
theorem Piecewise.tick (h : Piecewise κ law) (p : Pacer κ τ) : law p.tickMoves := by
  have hevents := h.drain p.queue p
  have hturn := turn p
  generalize (Pacing.tick : Pacing κ τ Bool) p = result at hturn
  generalize p.tickMoves = moves at hturn ⊢
  cases hturn with
  | halted _ => exact h.nil
  | refused _ _ | stopped _ _ _ | paused _ _ _ _ => exact hevents
  | met _ _ _ _ _ | failed _ _ _ _ _ =>
    exact h.append hevents (h.append h.read (h.deadline _ _))

/-- And it holds of the moves of ticks until the machine halts. -/
theorem Piecewise.run (h : Piecewise κ law) (more : Nat) (p : Pacer κ τ) :
    law (p.runMoves more) := by
  induction more generalizing p with
  | zero => exact h.nil
  | succ more ih =>
    rw [runMoves]
    refine h.append (h.tick p) ?_
    rcases (Pacing.tick : Pacing κ τ Bool) p with ⟨_ | _, q⟩ | ⟨error, q⟩
    · exact h.nil
    · exact ih q
    · exact h.nil

end Laws

/-! ## Computations make their moves -/

section Computations

omit [LE τ] [DecidableLE τ]

theorem moveAll_toggleMoves (p : Pacer κ τ) : p.moveAll p.toggleMoves = p.togglePause := by
  rw [toggleMoves, togglePause]
  cases p.paused <;> rfl

/-- An event that has its effect makes its moves. -/
theorem moveAll_eventMoves (event : Event) (p : Pacer κ τ) :
    p.moveAll (p.eventMoves event) = after (Pacing.apply event) p := by
  cases event with
  | key number isDown =>
    rw [eventMoves, moveAll_cons, after, Pacing.apply_key, move, Processor.act, after]
    rcases Machine.keyEvent number isDown p.processor.machine with ⟨_ | _, _⟩ | ⟨_, _⟩
    · rfl
    · rfl
    · rfl
  | control control =>
    cases control with
    | pause => exact p.moveAll_toggleMoves
    | step =>
      rw [eventMoves, after, Pacing.apply_step]
      by_cases hwaiting : p.processor.machine.waiting = true
      · rw [if_pos hwaiting, if_pos hwaiting]
        rfl
      · rw [if_neg hwaiting, if_neg hwaiting]
        exact (Pacing.after_step p).symm
    | quit => rfl
  | foreign value => rfl

omit [Add τ] in
/-- Events that have their effect leave the queue to whoever takes them off it. -/
theorem queue_apply (event : Event) (p : Pacer κ τ) :
    (after (Pacing.apply event) p).queue = p.queue := by
  cases event with
  | key number isDown =>
    rw [after, Pacing.apply_key]
    rcases Machine.keyEvent number isDown p.processor.machine with ⟨_ | _, _⟩ | ⟨_, _⟩
    · rfl
    · rfl
    · rfl
  | control control =>
    cases control with
    | pause =>
      rw [after, Pacing.apply_pause, togglePause]
      cases p.paused <;> rfl
    | step =>
      rw [after, Pacing.apply_step]
      by_cases hwaiting : p.processor.machine.waiting = true
      · rw [if_pos hwaiting]
      · rw [if_neg hwaiting]
        have hstep := congrArg Pacer.queue (Pacing.after_step p)
        rw [after] at hstep
        exact hstep
    | quit => rfl
  | foreign value => rfl

omit [Add τ] in
theorem queue_of_apply {event : Event} {p q : Pacer κ τ}
    (h : (Pacing.apply event : Pacing κ τ Unit) p = .ok () q) : q.queue = p.queue := by
  have hqueue := queue_apply event p
  rw [after, h] at hqueue
  exact hqueue

/-- Applying the events of a queue makes their moves. -/
theorem moveAll_drainMoves {events : List Event} {p : Pacer κ τ} (hqueue : p.queue = events) :
    p.moveAll (drainMoves events p) = after (Pacing.applyAll events) p := by
  have hdrains := drains events p
  rw [after]
  generalize (Pacing.applyAll events : Pacing κ τ Unit) p = result at hdrains ⊢
  generalize drainMoves events p = moves at hdrains ⊢
  induction hdrains with
  | done p => rfl
  | halted events hhalted => rfl
  | applies hrunning happly hrest ih =>
    rw [List.cons_append, moveAll_cons, moveAll_append, move_take hqueue, moveAll_eventMoves,
      after, happly]
    -- what the event does, it does not do to the rest of the queue
    exact ih (queue_of_apply happly)
  | refuses hrunning happly =>
    rw [moveAll_cons, move_take hqueue, moveAll_eventMoves, after, happly]

theorem moveAll_drain (p : Pacer κ τ) : p.moveAll (drainMoves p.queue p) = after Pacing.drain p :=
  moveAll_drainMoves rfl

theorem moveAll_of_drain {p q : Pacer κ τ}
    (hdrain : (Pacing.drain : Pacing κ τ Unit) p = .ok () q) :
    p.moveAll (drainMoves p.queue p) = q := by
  rw [moveAll_drain, after, hdrain]

end Computations

omit [Clock κ τ] in
theorem after_issue (now : τ) (p : Pacer κ τ) :
    after (Pacing.issue now) p =
      if Pacing.Due p now then
        after Pacing.step { p with nextClock := p.nextClock + p.clockPeriod }
      else p := by
  rw [after, Pacing.issue]
  by_cases hdue : Pacing.Due p now
  · rw [if_pos hdue, if_pos hdue]
    rfl
  · rw [if_neg hdue, if_neg hdue]

theorem moveAll_issueMoves (now : τ) (p : Pacer κ τ) :
    p.moveAll (issueMoves now p) = after (Pacing.issue now) p := by
  rw [after_issue, issueMoves]
  by_cases hdue : Pacing.Due p now
  · rw [if_pos hdue, if_pos hdue, Pacing.after_step]
    rfl
  · rw [if_neg hdue, if_neg hdue]
    rfl

theorem moveAll_countMoves (now : τ) (p : Pacer κ τ) :
    p.moveAll (countMoves now p) = Pacing.count p now := by
  rw [countMoves, Pacing.count]
  by_cases hdue : p.nextTimer ≤ now
  · rw [if_pos hdue, if_pos hdue]
    rfl
  · rw [if_neg hdue, if_neg hdue]
    rfl

/-- Meeting the deadlines makes its moves. -/
theorem moveAll_deadlineMoves (now : τ) (p : Pacer κ τ) :
    p.moveAll (deadlineMoves now p) = after (Pacing.meetDeadlines now) p := by
  rw [deadlineMoves, moveAll_append, moveAll_issueMoves, after, after, Pacing.meetDeadlines_run]
  rcases Pacing.issue now p with ⟨_, q⟩ | ⟨error, q⟩
  · exact q.moveAll_countMoves now
  · rfl

/-- A tick makes its moves. -/
theorem moveAll_tickMoves (p : Pacer κ τ) : p.moveAll p.tickMoves = after Pacing.tick p := by
  have hturn := turn p
  rw [after]
  generalize (Pacing.tick : Pacing κ τ Bool) p = result at hturn ⊢
  generalize p.tickMoves = moves at hturn ⊢
  cases hturn with
  | halted _ => rfl
  | refused _ hdrain => rw [moveAll_drain, after, hdrain]
  | stopped _ hdrain _ | paused _ hdrain _ _ => rw [moveAll_of_drain hdrain]
  | met _ hdrain _ _ hmeet | failed _ hdrain _ _ hmeet =>
    rw [moveAll_append, moveAll_of_drain hdrain, moveAll_cons, move, moveAll_deadlineMoves, after,
      hmeet]

/-- Ticking until the machine halts makes the moves of the ticks. -/
theorem moveAll_runMoves (done more : Nat) (p : Pacer κ τ) :
    p.moveAll (runMoves more p) = after (Pacing.runFrom done more) p := by
  induction more generalizing done p with
  | zero => rfl
  | succ more ih =>
    rw [runMoves, moveAll_append, moveAll_tickMoves, after, after, Pacing.runFrom_succ]
    rcases (Pacing.tick : Pacing κ τ Bool) p with ⟨_ | _, q⟩ | ⟨error, q⟩
    · rfl
    · exact ih (done + 1) q
    · rfl

/-! ## Operations -/

/-- What can be done with a pacer from outside. -/
inductive Operation where
  /-- the processor or its machine is acted on directly -/
  | act (action : Processor.Action)
  | post (event : Event)
  | pause
  | resume
  | togglePause
  | tick
  /-- ticks until the machine halts or the cap is reached -/
  | run (cap : Int)

/-- The pacer after an operation, whether or not the operation was refused. -/
def perform (p : Pacer κ τ) : Operation → Pacer κ τ
  | .act action => { p with processor := p.processor.act action }
  | .post event => p.post event
  | .pause => p.pause
  | .resume => p.resume
  | .togglePause => p.togglePause
  | .tick => after Pacing.tick p
  | .run cap => after (Pacing.run cap) p

/-- The pacer after a run: a sequence of operations. -/
def performAll (p : Pacer κ τ) (operations : List Operation) : Pacer κ τ :=
  operations.foldl perform p

/-- The moves of an operation. -/
def moves (p : Pacer κ τ) : Operation → List (Move τ)
  | .act action => [.act action]
  | .post event => [.post event]
  | .pause => [.pause]
  | .resume => [.resume]
  | .togglePause => p.toggleMoves
  | .tick => p.tickMoves
  | .run cap => p.runMoves (max cap 1).toNat

/-- The moves of a run, in order. -/
def course (p : Pacer κ τ) : List Operation → List (Move τ)
  | [] => []
  | operation :: rest => p.moves operation ++ (p.perform operation).course rest

theorem moveAll_moves (p : Pacer κ τ) (operation : Operation) :
    p.moveAll (p.moves operation) = p.perform operation := by
  cases operation with
  | act action => rfl
  | post event => rfl
  | pause => rfl
  | resume => rfl
  | togglePause => exact p.moveAll_toggleMoves
  | tick => exact p.moveAll_tickMoves
  | run cap => exact p.moveAll_runMoves 0 _

/-- **A run makes the moves of its course.** -/
theorem moveAll_course (p : Pacer κ τ) (operations : List Operation) :
    p.moveAll (p.course operations) = p.performAll operations := by
  induction operations generalizing p with
  | nil => rfl
  | cons operation rest ih =>
    rw [course, moveAll_append, moveAll_moves, ih]
    rfl

theorem performAll_append (p : Pacer κ τ) (first rest : List Operation) :
    p.performAll (first ++ rest) = (p.performAll first).performAll rest :=
  List.foldl_append

theorem course_append (p : Pacer κ τ) (first rest : List Operation) :
    p.course (first ++ rest) = p.course first ++ (p.performAll first).course rest := by
  induction first generalizing p with
  | nil => rfl
  | cons operation first ih =>
    rw [List.cons_append, course, course, ih, List.append_assoc]
    rfl

/-- A run concerns the processor by the actions of its course only. -/
theorem processor_performAll (p : Pacer κ τ) (operations : List Operation) :
    (p.performAll operations).processor =
      p.processor.actAll (actions (p.course operations)) := by
  rw [← moveAll_course, processor_moveAll]

/-- The instructions that a run completes, in order. -/
def completed (p : Pacer κ τ) (operations : List Operation) : List Instruction :=
  p.processor.completed (actions (p.course operations))

/-- A run leads from what can be reached to what can be reached. -/
theorem reachable_performAll {p : Pacer κ τ} (h : Processor.Reachable p.processor)
    (operations : List Operation) : Processor.Reachable (p.performAll operations).processor := by
  rw [processor_performAll]
  exact h.actAll _

end Pacer

end ChipEight
