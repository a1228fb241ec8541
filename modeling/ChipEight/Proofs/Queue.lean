import ChipEight.Proofs.Allowed

/-!
# Events are taken once and in order

Two laws about the queue of events. Over a whole run, refused operations included,
nothing is lost, doubled or overtaken: at every moment the events that were taken
are the first of those that were posted, and the others are the queue.

Within one tick, the events behind one that halts the machine or is refused have
no effect. This is said by leaving them out: the tick ends with what this event
makes of the pacer when the queue ends with it, and the events behind it are the
queue. That an event neither looks at the queue nor changes it is what makes this
true (`Pacer.apply_queue`).
-/

namespace ChipEight

namespace Pacer

/-- The event that a move puts into the queue, if it does. -/
def Move.posted? {τ : Type} : Move τ → Option Event
  | .post event => some event
  | _ => none

/-- The event that a move takes off the queue, if it does. -/
def Move.taken? {τ : Type} : Move τ → Option Event
  | .take event => some event
  | _ => none

/-- The events that are posted among moves, in order. -/
def posted {τ : Type} (moves : List (Move τ)) : List Event :=
  moves.filterMap Move.posted?

/-- The events that are taken among moves, in order. -/
def taken {τ : Type} (moves : List (Move τ)) : List Event :=
  moves.filterMap Move.taken?

/-! ## Runs -/

section Runs

variable {κ τ : Type} [Clock κ τ] [Add τ] [LE τ] {p : Pacer κ τ} {latest : τ}

/-- What was queued before and posted since was taken or is queued. -/
theorem queue_append_posted {moves : List (Move τ)} (h : p.AllowsAll latest moves) :
    p.queue ++ posted moves = taken moves ++ (p.moveAll moves).queue := by
  induction moves generalizing p latest with
  | nil => exact List.append_nil _
  | cons move rest ih =>
    obtain ⟨hmove, hrest⟩ := h
    have hqueue := ih hrest
    rw [moveAll_cons]
    cases move with
    | post event =>
      calc p.queue ++ event :: posted rest
          = (p.move (.post event)).queue ++ posted rest := (List.append_cons _ _ _)
        _ = taken rest ++ ((p.move (.post event)).moveAll rest).queue := hqueue
    | take event =>
      obtain ⟨tail, htail⟩ := List.head?_eq_some_iff.mp hmove.2
      have htaken : (p.move (.take event)).queue = tail := congrArg List.tail htail
      calc p.queue ++ posted rest
          = event :: ((p.move (.take event)).queue ++ posted rest) := by rw [htail, htaken]; rfl
        _ = event :: (taken rest ++ ((p.move (.take event)).moveAll rest).queue) := by rw [hqueue]
    | act action => exact hqueue
    | hurry => exact hqueue
    | pause => exact hqueue
    | resume => exact hqueue
    | read => exact hqueue
    | issue now => exact hqueue
    | count now => exact hqueue

end Runs

/-! ## Ticks -/

section Ticks

variable {κ τ : Type} [Clock κ τ] {p q r : Pacer κ τ} {event : Event} {before rest : List Event}

/-- What an event does, it does with any queue. -/
theorem apply_queue (event : Event) (p : Pacer κ τ) (queue : List Event) :
    (Pacing.apply event : Pacing κ τ Unit) { p with queue } =
      match (Pacing.apply event : Pacing κ τ Unit) p with
      | .ok _ q => .ok () { q with queue }
      | .error error q => .error error { q with queue } := by
  cases event with
  | key number isDown =>
    rw [Pacing.apply_key, Pacing.apply_key]
    rcases Machine.keyEvent number isDown p.processor.machine with ⟨_ | _, _⟩ | ⟨_, _⟩
    · rfl
    · rfl
    · rfl
  | control control =>
    cases control with
    | pause =>
      rw [Pacing.apply_pause, Pacing.apply_pause, togglePause, togglePause]
      cases p.paused <;> rfl
    | step =>
      rw [Pacing.apply_step, Pacing.apply_step, Pacing.step_run, Pacing.step_run]
      cases p.processor.machine.waiting with
      | true => rfl
      | false => cases Processor.step p.processor <;> rfl
    | quit => rfl
  | foreign value => rfl

/-- Applying some events and then others. -/
theorem applyAll_append {more : List Event}
    (hbefore : (Pacing.applyAll before : Pacing κ τ Unit) { p with queue := before } = .ok () q)
    (hrunning : q.halted = false) :
    (Pacing.applyAll (before ++ more) : Pacing κ τ Unit) { p with queue := before ++ more } =
      (Pacing.applyAll more : Pacing κ τ Unit) { q with queue := more } := by
  induction before generalizing p with
  | nil =>
    obtain ⟨-, rfl⟩ := EStateM.Result.ok.inj hbefore
    rfl
  | cons event before ih =>
    rw [List.cons_append, Pacing.applyAll_cons]
    rw [Pacing.applyAll_cons] at hbefore
    by_cases hhalted : p.halted = true
    · have hnothing : Pacer.halted { p with queue := event :: before } = true := hhalted
      rw [if_pos hnothing] at hbefore
      obtain ⟨-, rfl⟩ := EStateM.Result.ok.inj hbefore
      rw [hnothing] at hrunning
      cases hrunning
    have hlive (queue : List Event) : ¬ Pacer.halted { p with queue } = true := hhalted
    rw [if_neg (hlive _)] at hbefore ⊢
    -- the event does the same with both queues
    rw [apply_queue event p] at hbefore ⊢
    rcases happly : (Pacing.apply event : Pacing κ τ Unit) p with ⟨_, s⟩ | ⟨error, s⟩
    · rw [happly] at hbefore
      exact ih hbefore
    · rw [happly] at hbefore
      cases hbefore

/-- The drain, at an event that is reached. -/
theorem drain_of_append (hqueue : p.queue = before ++ event :: rest)
    (hbefore : (Pacing.drain : Pacing κ τ Unit) { p with queue := before } = .ok () q)
    (hrunning : q.halted = false) :
    (Pacing.drain : Pacing κ τ Unit) p =
      match (Pacing.apply event : Pacing κ τ Unit) q with
      | .ok _ r => (Pacing.applyAll rest : Pacing κ τ Unit) { r with queue := rest }
      | .error error r => .error error { r with queue := rest } := by
  have hp : p = { p with queue := before ++ event :: rest } := by rw [← hqueue]
  have hlive : ¬ Pacer.halted { q with queue := event :: rest } = true :=
    Bool.eq_false_iff.mp hrunning
  rw [Pacing.drain_run] at hbefore ⊢
  rw [hqueue, hp, applyAll_append hbefore hrunning, Pacing.applyAll_cons, if_neg hlive]
  have happly := apply_queue event q rest
  rw [happly]
  cases (Pacing.apply event : Pacing κ τ Unit) q <;> rfl

/-- A machine that runs after some events were applied ran before. -/
theorem running_of_drain
    (hbefore : (Pacing.drain : Pacing κ τ Unit) { p with queue := before } = .ok () q)
    (hrunning : q.halted = false) : p.halted = false := by
  by_cases hhalted : p.halted = true
  · have hnothing : Pacer.halted { p with queue := before } = true := hhalted
    rw [Pacing.drain_run, applyAll_of_halted hnothing] at hbefore
    obtain ⟨-, rfl⟩ := EStateM.Result.ok.inj hbefore
    exact hrunning
  · exact Bool.eq_false_iff.mpr hhalted

variable [Add τ] [LE τ] [DecidableLE τ]

omit [Clock κ τ] in
/-- Meeting the deadlines takes no event. -/
theorem queue_meetDeadlines (now : τ) (p : Pacer κ τ) :
    (after (Pacing.meetDeadlines now) p).queue = p.queue := by
  have hissue := queue_issue (p := p) now
  rw [after] at hissue ⊢
  rw [Pacing.meetDeadlines_run]
  rcases hissued : (Pacing.issue now : Pacing κ τ Unit) p with ⟨_, q⟩ | ⟨error, q⟩
  · rw [hissued] at hissue
    show (Pacing.count q now).queue = p.queue
    rw [← hissue, Pacing.count]
    by_cases hdue : q.nextTimer ≤ now
    · rw [if_pos hdue]
      rfl
    · rw [if_neg hdue]
  · rw [hissued] at hissue
    exact hissue

/-- What a tick does with the queue. -/
structure TakesInOrder (p : Pacer κ τ) : Prop where
  /-- a halted machine takes no event -/
  halted : p.halted = true → (Pacing.tick : Pacing κ τ Bool) p = .ok false p
  /-- a tick that leaves the machine running leaves no event -/
  running : ∀ q, (Pacing.tick : Pacing κ τ Bool) p = .ok true q → q.queue = []
  /-- a tick ends with an event that is refused; those behind it stay as they are -/
  refused : ∀ before event rest q error r, p.queue = before ++ event :: rest →
    (Pacing.drain : Pacing κ τ Unit) { p with queue := before } = .ok () q → q.halted = false →
    (Pacing.apply event : Pacing κ τ Unit) q = .error error r →
    (Pacing.tick : Pacing κ τ Bool) p = .error error { r with queue := rest }
  /-- a tick ends with an event that halts the machine; those behind it stay as they
  are -/
  halting : ∀ before event rest q r, p.queue = before ++ event :: rest →
    (Pacing.drain : Pacing κ τ Unit) { p with queue := before } = .ok () q → q.halted = false →
    (Pacing.apply event : Pacing κ τ Unit) q = .ok () r → r.halted = true →
    (Pacing.tick : Pacing κ τ Bool) p = .ok false { r with queue := rest }

theorem queue_of_tick (htick : (Pacing.tick : Pacing κ τ Bool) p = .ok true q) : q.queue = [] := by
  have hturn := turn p
  rw [htick] at hturn
  generalize hresult : (EStateM.Result.ok true q : EStateM.Result Error (Pacer κ τ) Bool) = result
    at hturn
  generalize p.tickMoves = moves at hturn
  cases hturn with
  | halted _ | refused _ _ | stopped _ _ _ | failed _ _ _ _ _ => cases hresult
  | paused _ hdrain hlive _ =>
    obtain ⟨-, rfl⟩ := EStateM.Result.ok.inj hresult
    exact queue_of_drain hdrain hlive
  | @met d r _ hdrain hlive _ hmeet =>
    obtain ⟨-, rfl⟩ := EStateM.Result.ok.inj hresult
    have hempty : d.queue = [] := queue_of_drain hdrain hlive
    have hqueue := queue_meetDeadlines d.now d.timed
    rw [after, hmeet] at hqueue
    exact hqueue.trans hempty

theorem takesInOrder (p : Pacer κ τ) : p.TakesInOrder where
  halted := by
    intro hhalted
    rw [Pacing.tick_run, if_pos hhalted]
  running := fun q => queue_of_tick
  refused := by
    intro before event rest q error r hqueue hbefore hrunning happly
    have hlive := Bool.eq_false_iff.mp (running_of_drain hbefore hrunning)
    rw [Pacing.tick_run, if_neg hlive, drain_of_append hqueue hbefore hrunning, happly]
  halting := by
    intro before event rest q r hqueue hbefore hrunning happly hhalted
    have hlive := Bool.eq_false_iff.mp (running_of_drain hbefore hrunning)
    have hstopped : Pacer.halted { r with queue := rest } = true := hhalted
    rw [Pacing.tick_run, if_neg hlive, drain_of_append hqueue hbefore hrunning, happly]
    simp only [applyAll_of_halted hstopped, if_pos hstopped]

/-- **Events are taken once and in order.** Take any run of a pacer with an empty
queue. At every moment of it, the events posted so far are those taken so far
followed by the queue; where a tick issues an instruction, all of them are taken.
What a tick does with the queue holds of any pacer. -/
theorem posted_course {p : Pacer κ τ} (hempty : p.queue = []) {operations : List Operation}
    (hpaced : ∀ operation ∈ operations, operation.direct = false) :
    (∀ moves, moves <+: p.course operations →
      posted moves = taken moves ++ (p.moveAll moves).queue) ∧
    (∀ moves now later, p.course operations = moves ++ .issue now :: later →
      posted moves = taken moves) ∧
    ∀ q : Pacer κ τ, q.TakesInOrder := by
  have hallowed := allowsAll_course p.now hpaced (p := p)
  have hposted : ∀ moves, moves <+: p.course operations →
      posted moves = taken moves ++ (p.moveAll moves).queue := by
    intro moves hmoves
    have hqueue := queue_append_posted (hallowed.of_isPrefix hmoves)
    rwa [hempty, List.nil_append] at hqueue
  refine ⟨hposted, ?_, takesInOrder⟩
  intro moves now later hsplit
  have hissue : (p.moveAll moves).queue = [] := by
    rw [hsplit] at hallowed
    exact hallowed.allows.1
  rw [hposted moves ⟨_, hsplit.symm⟩, hissue, List.append_nil]

/-- A key that does not exist is refused between a key that does and a request to
halt, which stays in the queue and has no effect before the next tick. -/
theorem posted_course_of_unknown_key :
    let machine : Machine :=
      { Machine.initial with memory := Memory.blank.store Memory.programStart [0x12, 0x00] }
    let p : Pacer (HandClock Nat) Nat :=
      .new (.ofMachine machine (.ofSource fun _ => 0) (.new false)) ⟨0, 1⟩ 2 3
    let posts : List Operation :=
      [.post (.key 4 true), .post (.key 99 true), .post (.control .quit)]
    let q := p.performAll posts
    let operations := posts ++ [.tick, .tick]
    p.queue = [] ∧
    posted (p.course operations) =
      taken (p.course operations) ++ (p.performAll operations).queue ∧
    ∃ r : Pacer (HandClock Nat) Nat,
      (Pacing.tick : Pacing (HandClock Nat) Nat Bool) q = .error (.fault (.keyIndex 99)) r ∧
        r.queue = [.control .quit] ∧ r.halted = false := by
  intro machine p posts q operations
  have hpaced : ∀ operation ∈ operations, operation.direct = false := by decide
  obtain ⟨hposted, -, hticks⟩ := posted_course (p := p) rfl hpaced
  refine ⟨rfl, ?_, ?_⟩
  · rw [← moveAll_course]
    exact hposted _ (List.prefix_refl _)
  · have hrefused := (hticks q).refused [.key 4 true] (.key 99 true) [.control .quit] _ _ _ rfl
      rfl rfl rfl
    exact ⟨_, hrefused, rfl, rfl⟩

end Ticks

end Pacer

end ChipEight
