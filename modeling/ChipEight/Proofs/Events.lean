import ChipEight.Proofs.Bounds
import ChipEight.Proofs.Queue

/-!
# Kinds of events

Events come to a pacer by being posted and in no other way, so what a run may meet
is settled by what was queued before it and what is posted in it. Two kinds of
events matter: controls, without which nobody pauses, resumes or quits, and foreign
values, without which a machine whose numbers are in range meets no misuse: all
that a tick can then end in is a fault.
-/

namespace ChipEight

/-- Whether an event is a control. -/
def Event.isControl : Event → Bool
  | .control _ => true
  | .key _ _ | .foreign _ => false

/-- Whether an event is a foreign value. -/
def Event.isForeign : Event → Bool
  | .foreign _ => true
  | .key _ _ | .control _ => false

namespace Pacer

variable {κ τ : Type}

/-! ## What is posted -/

theorem posted_append (first rest : List (Move τ)) :
    posted (first ++ rest) = posted first ++ posted rest :=
  List.filterMap_append

section Posted

theorem posted_toggleMoves (p : Pacer κ τ) : posted p.toggleMoves = [] := by
  rw [toggleMoves]
  cases p.paused <;> rfl

theorem posted_eventMoves (event : Event) (p : Pacer κ τ) : posted (p.eventMoves event) = [] := by
  cases event with
  | key number isDown =>
    rw [eventMoves]
    rcases Machine.keyEvent number isDown p.processor.machine with ⟨_ | _, _⟩ | ⟨_, _⟩ <;> rfl
  | control control =>
    cases control with
    | pause => exact p.posted_toggleMoves
    | step =>
      rw [eventMoves]
      cases p.processor.machine.waiting <;> rfl
    | quit => rfl
  | foreign value => rfl

/-- No piece of a tick posts an event. -/
theorem piecewise_posted : Piecewise κ fun moves : List (Move τ) => posted moves = [] where
  nil := rfl
  append := by
    intro first rest hfirst hrest
    rw [posted_append, hfirst, hrest, List.append_nil]
  event := posted_eventMoves
  read := rfl
  issue := fun _ => rfl
  count := fun _ => rfl

/-- The event that an operation posts, if it posts one. -/
def Operation.posted? : Operation → Option Event
  | .post event => some event
  | .act _ | .pause | .resume | .togglePause | .tick | .run _ => none

variable [Clock κ τ] [Add τ] [LE τ] [DecidableLE τ]

theorem posted_moves (p : Pacer κ τ) (operation : Operation) :
    posted (p.moves operation) = operation.posted?.toList := by
  cases operation with
  | post event => rfl
  | act _ | pause | resume => rfl
  | togglePause => exact p.posted_toggleMoves
  | tick => exact piecewise_posted.tick p
  | run cap => exact piecewise_posted.run _ p

/-- In a run, events are posted by the operations that do so, in order. -/
theorem posted_eq_filterMap (p : Pacer κ τ) (operations : List Operation) :
    posted (p.course operations) = operations.filterMap Operation.posted? := by
  induction operations generalizing p with
  | nil => rfl
  | cons operation rest ih =>
    rw [course, posted_append, posted_moves, ih, List.filterMap_cons]
    cases operation.posted? <;> rfl

/-- What is queued after a tick was queued before it. -/
theorem queue_tick_suffix (p : Pacer κ τ) : (after Pacing.tick p).queue <:+ p.queue := by
  have hqueue := queue_append_posted (allowsAll_tickMoves (p := p) p.now)
  rw [piecewise_posted.tick p, List.append_nil, moveAll_tickMoves] at hqueue
  exact ⟨_, hqueue.symm⟩

end Posted

/-! ## What is refused -/

section Refused

variable [Clock κ τ] {p q : Pacer κ τ} {error : Error}

/-- Moves keep a machine in range. -/
theorem bounded_moveAll [Add τ] (h : p.machine.Bounded) (moves : List (Move τ)) :
    (p.moveAll moves).machine.Bounded := by
  rw [machine, processor_moveAll]
  exact Processor.actAll_induction (motive := fun p => p.machine.Bounded)
    (fun action h => Processor.bounded_act action h) _ h

omit [Clock κ τ] in
theorem fault_of_step (hstep : (Pacing.step : Pacing κ τ Unit) p = .error error q) :
    ∃ fault, error = .fault fault := by
  rw [Pacing.step_run] at hstep
  rcases hprocessor : Processor.step p.processor with ⟨_, processor⟩ | ⟨fault, processor⟩
  · rw [hprocessor] at hstep
    cases hstep
  · rw [hprocessor] at hstep
    obtain ⟨rfl, -⟩ := EStateM.Result.error.inj hstep
    exact ⟨fault, rfl⟩

/-- A machine in range meets no misuse in an event that is one. -/
theorem fault_of_apply (hbounded : p.machine.Bounded) {event : Event}
    (hevent : event.isForeign = false)
    (happly : (Pacing.apply event : Pacing κ τ Unit) p = .error error q) :
    ∃ fault, error = .fault fault := by
  cases event with
  | key number isDown =>
    have hout := Machine.keyEvent_outcome p.processor.machine number isDown
    rw [Pacing.apply_key] at happly
    generalize Machine.keyEvent number isDown p.processor.machine = result at hout happly
    cases hout with
    | unknown _ =>
      obtain ⟨rfl, -⟩ := EStateM.Result.error.inj happly
      exact ⟨_, rfl⟩
    | noted _ _ => cases happly
    | settled _ _ _ _ => cases happly
    | misdirected _ _ _ hregister =>
      have hlow : 0 ≤ p.processor.machine.keypad.register := hbounded.register_nonneg
      have hhigh : p.processor.machine.keypad.register ≤ 15 := hbounded.register_le
      rw [Registers.index?, if_pos hlow, cell?_eq_none_iff] at hregister
      omega
  | control control =>
    cases control with
    | pause => cases happly
    | step =>
      rw [Pacing.apply_step] at happly
      by_cases hwaiting : p.processor.machine.waiting = true
      · rw [if_pos hwaiting] at happly
        cases happly
      · rw [if_neg hwaiting] at happly
        exact fault_of_step happly
    | quit => cases happly
  | foreign value => cases hevent

variable [Add τ]

theorem bounded_of_apply (hbounded : p.machine.Bounded) {event : Event}
    (happly : (Pacing.apply event : Pacing κ τ Unit) p = .ok () q) : q.machine.Bounded := by
  have hmoves := bounded_moveAll hbounded (p.eventMoves event)
  rw [moveAll_eventMoves, after, happly] at hmoves
  exact hmoves

theorem fault_of_applyAll (hbounded : p.machine.Bounded) {events : List Event}
    (hevents : ∀ event ∈ events, event.isForeign = false)
    (happly : (Pacing.applyAll events : Pacing κ τ Unit) p = .error error q) :
    ∃ fault, error = .fault fault := by
  have hdrains := drains events p
  rw [happly] at hdrains
  clear happly
  generalize hresult : (EStateM.Result.error error q : EStateM.Result Error (Pacer κ τ) Unit) =
    result at hdrains
  generalize drainMoves events p = moves at hdrains
  induction hdrains with
  | done p => cases hresult
  | halted events hhalted => cases hresult
  | @applies p _ _ rest _ _ hrunning happly hrest ih =>
    obtain ⟨-, hlater⟩ := List.forall_mem_cons.mp hevents
    exact ih (bounded_of_apply (p := { p with queue := rest }) hbounded happly) hlater hresult
  | @refuses p _ _ rest _ hrunning happly =>
    obtain ⟨hevent, -⟩ := List.forall_mem_cons.mp hevents
    obtain ⟨rfl, -⟩ := EStateM.Result.error.inj hresult
    exact fault_of_apply (p := { p with queue := rest }) hbounded hevent happly

variable [LE τ] [DecidableLE τ]

omit [Clock κ τ] in
theorem fault_of_meetDeadlines {now : τ}
    (hmeet : (Pacing.meetDeadlines now : Pacing κ τ Unit) p = .error error q) :
    ∃ fault, error = .fault fault := by
  rw [Pacing.meetDeadlines_run, Pacing.issue] at hmeet
  by_cases hdue : Pacing.Due p now
  · rw [if_pos hdue] at hmeet
    rcases hstep : (Pacing.step : Pacing κ τ Unit)
        { p with nextClock := p.nextClock + p.clockPeriod } with ⟨_, r⟩ | ⟨error', r⟩
    · rw [hstep] at hmeet
      cases hmeet
    · rw [hstep] at hmeet
      obtain ⟨rfl, -⟩ := EStateM.Result.error.inj hmeet
      exact fault_of_step hstep
  · rw [if_neg hdue] at hmeet
    cases hmeet

/-- A machine in range, and nothing queued but events. -/
structure Proper (p : Pacer κ τ) : Prop where
  bounded : p.machine.Bounded
  queue : ∀ event ∈ p.queue, event.isForeign = false

/-- A tick of a proper pacer meets no misuse: what it ends in is a fault. -/
theorem Proper.fault_of_tick (h : p.Proper)
    (htick : (Pacing.tick : Pacing κ τ Bool) p = .error error q) : ∃ fault, error = .fault fault := by
  have hturn := turn p
  rw [htick] at hturn
  generalize hresult : (EStateM.Result.error error q : EStateM.Result Error (Pacer κ τ) Bool) =
    result at hturn
  generalize p.tickMoves = moves at hturn
  cases hturn with
  | halted _ | stopped _ _ _ | paused _ _ _ _ | met _ _ _ _ _ => cases hresult
  | refused _ hdrain =>
    obtain ⟨rfl, -⟩ := EStateM.Result.error.inj hresult
    exact fault_of_applyAll h.bounded h.queue hdrain
  | failed _ _ _ _ hmeet =>
    obtain ⟨rfl, -⟩ := EStateM.Result.error.inj hresult
    exact fault_of_meetDeadlines hmeet

theorem Proper.tick (h : p.Proper) : (after Pacing.tick p).Proper where
  bounded := by
    rw [← moveAll_tickMoves]
    exact bounded_moveAll h.bounded _
  queue := fun event hevent => h.queue event ((queue_tick_suffix p).subset hevent)

omit [Clock κ τ] [Add τ] [LE τ] [DecidableLE τ] in
theorem Proper.post (h : p.Proper) {event : Event} (hevent : event.isForeign = false) :
    (p.post event).Proper where
  bounded := h.bounded
  queue := by
    intro other hother
    rcases List.mem_append.mp hother with hbefore | hlast
    · exact h.queue other hbefore
    · rwa [List.mem_singleton.mp hlast]

omit [Add τ] [LE τ] [DecidableLE τ] in
theorem proper_new {program : List UInt8} {machine : Machine}
    (hload : Machine.ofProgram program = .ok machine) (draws : Draws) (log : Log) (clock : κ)
    (clockPeriod timerPeriod : τ) :
    (new (.ofMachine machine draws log) clock clockPeriod timerPeriod).Proper where
  bounded := .ofProgram hload
  queue := List.forall_mem_nil _

/-- The result of a tick says whether the machine is still running. -/
theorem halted_of_tick {running : Bool}
    (htick : (Pacing.tick : Pacing κ τ Bool) p = .ok running q) : q.halted = !running := by
  have hturn := turn p
  rw [htick] at hturn
  generalize hresult : (EStateM.Result.ok running q : EStateM.Result Error (Pacer κ τ) Bool) =
    result at hturn
  generalize p.tickMoves = moves at hturn
  cases hturn with
  | refused _ _ | failed _ _ _ _ _ => cases hresult
  | halted hhalted | stopped _ _ hhalted =>
    obtain ⟨rfl, rfl⟩ := EStateM.Result.ok.inj hresult
    exact hhalted
  | paused _ _ hlive _ =>
    obtain ⟨rfl, rfl⟩ := EStateM.Result.ok.inj hresult
    exact hlive
  | met _ _ _ _ _ =>
    obtain ⟨rfl, rfl⟩ := EStateM.Result.ok.inj hresult
    rw [Bool.not_not]

end Refused

end Pacer

end ChipEight
