import ChipEight.Proofs.Events
import ChipEight.Proofs.Suspension

/-!
# Runs without controls

When no control is queued and none is posted, a run consists of two kinds of moves.
Some take in what comes from outside: events are posted and taken, keys go down and up,
and the end of a wait makes the next instruction due at once. The others have to do
with the deadlines, and there are none of these while the machine is paused
(`Pacer.kinds_course`). Nobody pauses or resumes in such a run, so it is paused all the
time or not at all.

Two things about the order of moves are needed besides. The next instruction becomes
due at once only directly after a press that ended a wait (`Pacer.promptly_course`). And
the steps of the processor and of the timers are those that the deadlines call for
(`Pacer.paired_course`).
-/

namespace ChipEight

/-- Whether an action is a step of the processor. -/
def Processor.Action.isStep : Action → Bool
  | .step => true
  | .key _ _ | .countDown | .halt | .log _ => false

/-- Whether an action is a step of the timers. -/
def Processor.Action.isCountDown : Action → Bool
  | .countDown => true
  | .step | .key _ _ | .halt | .log _ => false

namespace Pacer

variable {κ τ : Type} {p : Pacer κ τ} {moves first rest : List (Move τ)}
  {operations : List Operation}

/-! ## Two kinds of moves -/

/-- Whether a move takes in what comes from outside. -/
def Move.isInput : Move τ → Bool
  | .post _ | .take _ | .act (.key _ _) | .hurry => true
  | .act .step | .act .countDown | .act .halt | .act (.log _) | .pause | .resume | .read
  | .issue _ | .count _ => false

/-- Whether a move has to do with the deadlines. -/
def Move.isTiming : Move τ → Bool
  | .read | .issue _ | .count _ | .act .step | .act .countDown => true
  | .post _ | .take _ | .act (.key _ _) | .act .halt | .act (.log _) | .hurry | .pause
  | .resume => false

/-- Whether an operation is a tick or posts something that is no control. -/
def Operation.isInput : Operation → Bool
  | .tick => true
  | .post event => !event.isControl
  | .act _ | .pause | .resume | .togglePause | .run _ => false

theorem Operation.direct_of_isInput {operation : Operation} (h : operation.isInput = true) :
    operation.direct = false := by
  cases operation with
  | tick | post _ => rfl
  | act _ | pause | resume | togglePause | run _ => cases h

/-- No control is queued. -/
def Uncontrolled (p : Pacer κ τ) : Prop := ∀ event ∈ p.queue, event.isControl = false

section Kinds

theorem isInput_eventMoves {event : Event} (h : event.isControl = false) (p : Pacer κ τ) :
    ∀ move ∈ p.eventMoves event, move.isInput = true := by
  cases event with
  | key number isDown =>
    rw [eventMoves, List.forall_mem_cons]
    refine ⟨rfl, ?_⟩
    rcases Machine.keyEvent number isDown p.processor.machine with ⟨_ | _, _⟩ | ⟨_, _⟩
    · exact List.forall_mem_nil _
    · exact List.forall_mem_singleton.mpr rfl
    · exact List.forall_mem_nil _
  | control control => cases h
  | foreign value => exact List.forall_mem_nil _

variable [Clock κ τ]

theorem isInput_drainMoves {events : List Event} (h : ∀ event ∈ events, event.isControl = false)
    (p : Pacer κ τ) : ∀ move ∈ drainMoves events p, move.isInput = true := by
  have hdrains := drains events p
  generalize (Pacing.applyAll events : Pacing κ τ Unit) p = result at hdrains
  generalize drainMoves events p = moves at hdrains ⊢
  induction hdrains with
  | done p => exact List.forall_mem_nil _
  | halted events hhalted => exact List.forall_mem_nil _
  | applies hrunning happly hrest ih =>
    obtain ⟨hevent, hlater⟩ := List.forall_mem_cons.mp h
    rw [List.cons_append, List.forall_mem_cons, List.forall_mem_append]
    exact ⟨rfl, isInput_eventMoves hevent _, ih hlater⟩
  | refuses hrunning happly =>
    obtain ⟨hevent, -⟩ := List.forall_mem_cons.mp h
    rw [List.forall_mem_cons]
    exact ⟨rfl, isInput_eventMoves hevent _⟩

theorem paused_move [Add τ] {move : Move τ} (h : move.isInput = true ∨ move.isTiming = true) :
    (p.move move).paused = p.paused := by
  cases move with
  | pause | resume => rcases h with h | h <;> cases h
  | post _ | take _ | act _ | hurry | read | issue _ | count _ => rfl

theorem paused_moveAll [Add τ]
    (h : ∀ move ∈ moves, move.isInput = true ∨ move.isTiming = true) :
    (p.moveAll moves).paused = p.paused := by
  induction moves generalizing p with
  | nil => rfl
  | cons move rest ih =>
    obtain ⟨hmove, hrest⟩ := List.forall_mem_cons.mp h
    rw [moveAll_cons, ih hrest, paused_move hmove]

variable [Add τ] [LE τ] [DecidableLE τ]

omit [Clock κ τ] in
theorem isTiming_deadlineMoves (now : τ) (p : Pacer κ τ) :
    ∀ move ∈ deadlineMoves now p, move.isTiming = true := by
  obtain ⟨issued, counted, hmoves, hissued, hcounted⟩ := exists_deadlineMoves_eq now p
  rw [hmoves]
  rcases hissued with rfl | rfl <;> rcases hcounted with rfl | rfl <;> simp [Move.isTiming]

/-- A tick without controls looks at the deadlines only when the machine is not paused. -/
theorem kinds_tickMoves (h : p.Uncontrolled) :
    ∀ move ∈ p.tickMoves,
      move.isInput = true ∨ (p.paused = false ∧ move.isTiming = true) := by
  have hevents := isInput_drainMoves h p
  have hturn := turn p
  generalize (Pacing.tick : Pacing κ τ Bool) p = result at hturn
  generalize p.tickMoves = moves at hturn ⊢
  cases hturn with
  | halted _ => exact List.forall_mem_nil _
  | refused _ _ | stopped _ _ _ | paused _ _ _ _ => exact fun move hmove => .inl (hevents move hmove)
  | met _ hdrain _ hgoing _ | failed _ hdrain _ hgoing _ =>
    have hpaused : p.paused = false := by
      have hdrained := paused_moveAll (p := p) fun move hmove => .inl (hevents move hmove)
      rw [moveAll_of_drain hdrain] at hdrained
      exact hdrained.symm.trans hgoing
    rw [List.forall_mem_append, List.forall_mem_cons]
    exact ⟨fun move hmove => .inl (hevents move hmove), .inr ⟨hpaused, rfl⟩,
      fun move hmove => .inr ⟨hpaused, isTiming_deadlineMoves _ _ move hmove⟩⟩

/-- Operations without controls leave none in the queue. -/
theorem Uncontrolled.perform (h : p.Uncontrolled) {operation : Operation}
    (hinput : operation.isInput = true) : (p.perform operation).Uncontrolled := by
  cases operation with
  | tick => exact fun event hevent => h event ((queue_tick_suffix p).subset hevent)
  | post event =>
    intro other hother
    rcases List.mem_append.mp hother with hbefore | hlast
    · exact h other hbefore
    · rw [List.mem_singleton.mp hlast]
      exact (Bool.not_eq_true' _).mp hinput
  | act _ | pause | resume | togglePause | run _ => cases hinput

theorem Uncontrolled.performAll (h : p.Uncontrolled)
    (hinput : ∀ operation ∈ operations, operation.isInput = true) :
    (p.performAll operations).Uncontrolled := by
  induction operations generalizing p with
  | nil => exact h
  | cons operation rest ih =>
    obtain ⟨hfirst, hrest⟩ := List.forall_mem_cons.mp hinput
    exact ih (h.perform hfirst) hrest

/-- A run without controls takes in what comes from outside, and looks at the deadlines
unless the machine is paused. -/
theorem kinds_course (h : p.Uncontrolled)
    (hinput : ∀ operation ∈ operations, operation.isInput = true) :
    ∀ move ∈ p.course operations,
      move.isInput = true ∨ (p.paused = false ∧ move.isTiming = true) := by
  induction operations generalizing p with
  | nil => exact List.forall_mem_nil _
  | cons operation rest ih =>
    obtain ⟨hfirst, hrest⟩ := List.forall_mem_cons.mp hinput
    have hmoves : ∀ move ∈ p.moves operation,
        move.isInput = true ∨ (p.paused = false ∧ move.isTiming = true) := by
      cases operation with
      | tick => exact kinds_tickMoves h
      | post event => exact List.forall_mem_singleton.mpr (.inl rfl)
      | act _ | pause | resume | togglePause | run _ => cases hfirst
    have hpaused : (p.perform operation).paused = p.paused := by
      rw [← moveAll_moves]
      exact paused_moveAll fun move hmove => (hmoves move hmove).imp_right And.right
    have hlater := ih (h.perform hfirst) hrest
    rw [hpaused] at hlater
    rw [course, List.forall_mem_append]
    exact ⟨hmoves, hlater⟩

end Kinds

/-! ## When the next instruction becomes due at once -/

section Promptly

variable [Clock κ τ] [Add τ]

/-- The next instruction becomes due at once only directly after the press of a key that
ended a wait. -/
def Promptly (p : Pacer κ τ) (moves : List (Move τ)) : Prop :=
  ∀ before later, moves = before ++ .hurry :: later → ∃ (first : List (Move τ)) (k : Fin 16),
    before = first ++ [.act (.key k.val true)] ∧ (p.moveAll first).machine.waiting = true

theorem promptly_of_not_mem (h : .hurry ∉ moves) : p.Promptly moves := by
  intro before later hsplit
  rw [hsplit] at h
  exact absurd (List.mem_append_right before List.mem_cons_self) h

theorem Promptly.append (hfirst : p.Promptly first) (hrest : (p.moveAll first).Promptly rest) :
    p.Promptly (first ++ rest) := by
  intro before later hsplit
  have hlater (middle : List (Move τ)) (hbefore : before = first ++ middle)
      (hmiddle : rest = middle ++ .hurry :: later) :
      ∃ (earlier : List (Move τ)) (k : Fin 16), before = earlier ++ [.act (.key k.val true)] ∧
        (p.moveAll earlier).machine.waiting = true := by
    obtain ⟨earlier, k, hearlier, hwaiting⟩ := hrest middle later hmiddle
    refine ⟨first ++ earlier, k, ?_, ?_⟩
    · rw [hbefore, hearlier, List.append_assoc]
    · rwa [moveAll_append]
  rcases List.append_eq_append_iff.mp hsplit with ⟨middle, hbefore, hmiddle⟩ | ⟨middle, hfront, hend⟩
  · exact hlater middle hbefore hmiddle
  · cases middle with
    | nil => exact hlater [] (by simpa using hfront.symm) hend.symm
    | cons move middle =>
      obtain ⟨rfl, -⟩ := List.cons.inj hend
      exact hfirst before middle hfront

/-- An event that has its effect makes the next instruction due at once only when it is
the press of a key that ends a wait. -/
theorem promptly_eventMoves (event : Event) (p : Pacer κ τ) : p.Promptly (p.eventMoves event) := by
  cases event with
  | key number isDown =>
    have hout := Machine.keyEvent_outcome p.processor.machine number isDown
    rw [eventMoves]
    generalize Machine.keyEvent number isDown p.processor.machine = result at hout ⊢
    cases hout with
    | unknown _ | noted _ _ | misdirected _ _ _ _ => exact promptly_of_not_mem (by simp)
    | @settled k _ hkey hdown hwaiting _ =>
      obtain rfl : number = k.val := cell?_eq_some_iff.mp (Keypad.cell_of_key hkey)
      subst hdown
      intro before later hsplit
      obtain rfl : before = [.act (.key k.val true)] := by
        rcases before with _ | ⟨move, _ | ⟨other, before⟩⟩
        · cases hsplit
        · obtain ⟨rfl, -⟩ := List.cons.inj hsplit
          rfl
        · simp at hsplit
      exact ⟨[], k, rfl, hwaiting⟩
  | control control =>
    cases control with
    | pause =>
      refine promptly_of_not_mem ?_
      rw [eventMoves, toggleMoves]
      cases p.paused <;> simp
    | step =>
      refine promptly_of_not_mem ?_
      rw [eventMoves]
      cases p.processor.machine.waiting <;> simp
    | quit => exact promptly_of_not_mem (by simp [eventMoves])
  | foreign value => exact promptly_of_not_mem List.not_mem_nil

/-- A move that is not this one may come first. -/
theorem Promptly.cons {move : Move τ} (hmove : move ≠ .hurry) (hrest : (p.move move).Promptly rest) :
    p.Promptly (move :: rest) := by
  have hfirst : p.Promptly [move] := promptly_of_not_mem (by simpa using Ne.symm hmove)
  exact hfirst.append hrest

theorem promptly_drainMoves {events : List Event} (hqueue : p.queue = events) :
    p.Promptly (drainMoves events p) := by
  have hdrains := drains events p
  generalize (Pacing.applyAll events : Pacing κ τ Unit) p = result at hdrains
  generalize drainMoves events p = moves at hdrains ⊢
  induction hdrains with
  | done p => exact promptly_of_not_mem List.not_mem_nil
  | halted events hhalted => exact promptly_of_not_mem List.not_mem_nil
  | applies hrunning happly hrest ih =>
    rw [List.cons_append]
    refine .cons (by simp) ?_
    rw [move_take hqueue]
    refine .append (promptly_eventMoves _ _) ?_
    rw [moveAll_eventMoves, after, happly]
    exact ih (queue_of_apply happly)
  | refuses hrunning happly =>
    refine .cons (by simp) ?_
    rw [move_take hqueue]
    exact promptly_eventMoves _ _

variable [LE τ] [DecidableLE τ]

theorem promptly_tickMoves (p : Pacer κ τ) : p.Promptly p.tickMoves := by
  have hevents := promptly_drainMoves (p := p) rfl
  have hturn := turn p
  generalize (Pacing.tick : Pacing κ τ Bool) p = result at hturn
  generalize p.tickMoves = moves at hturn ⊢
  cases hturn with
  | halted _ => exact promptly_of_not_mem List.not_mem_nil
  | refused _ _ | stopped _ _ _ | paused _ _ _ _ => exact hevents
  | met _ _ _ _ _ | failed _ _ _ _ _ =>
    refine hevents.append (.cons (by simp) (promptly_of_not_mem ?_))
    intro hhurry
    cases isTiming_deadlineMoves _ _ _ hhurry

/-- The next instruction becomes due at once only directly after a press that ended a
wait. -/
theorem promptly_course (p : Pacer κ τ)
    (hinput : ∀ operation ∈ operations, operation.isInput = true) :
    p.Promptly (p.course operations) := by
  induction operations generalizing p with
  | nil => exact promptly_of_not_mem List.not_mem_nil
  | cons operation rest ih =>
    obtain ⟨hfirst, hrest⟩ := List.forall_mem_cons.mp hinput
    rw [course]
    refine .append ?_ ?_
    · cases operation with
      | tick => exact promptly_tickMoves p
      | post event => exact promptly_of_not_mem (by simp [moves])
      | act _ | pause | resume | togglePause | run _ => cases hfirst
    · rw [moveAll_moves]
      exact ih _ hrest

end Promptly

/-! ## Steps and deadlines -/

section Paired

/-- Whether a move is the deadline for instructions moving on. -/
def Move.isIssue : Move τ → Bool
  | .issue _ => true
  | .post _ | .take _ | .act _ | .hurry | .pause | .resume | .read | .count _ => false

/-- Whether a move is the deadline for the timers moving on. -/
def Move.isCount : Move τ → Bool
  | .count _ => true
  | .post _ | .take _ | .act _ | .hurry | .pause | .resume | .read | .issue _ => false

/-- The steps of the processor and of the timers are as many as the deadlines call for. -/
structure Paired (moves : List (Move τ)) : Prop where
  steps : (actions moves).countP Processor.Action.isStep = moves.countP Move.isIssue
  countDowns : (actions moves).countP Processor.Action.isCountDown = moves.countP Move.isCount

theorem Paired.append (hfirst : Paired first) (hrest : Paired rest) : Paired (first ++ rest) where
  steps := by
    rw [actions_append, List.countP_append, List.countP_append, hfirst.steps, hrest.steps]
  countDowns := by
    rw [actions_append, List.countP_append, List.countP_append, hfirst.countDowns,
      hrest.countDowns]

theorem paired_of_isInput (h : ∀ move ∈ moves, move.isInput = true) : Paired moves := by
  induction moves with
  | nil => exact ⟨rfl, rfl⟩
  | cons move rest ih =>
    obtain ⟨hmove, hrest⟩ := List.forall_mem_cons.mp h
    have hfirst : Paired [move] := by
      cases move with
      | post _ | take _ | hurry => exact ⟨rfl, rfl⟩
      | act action =>
        cases action with
        | key _ _ => exact ⟨rfl, rfl⟩
        | step | countDown | halt | log _ => cases hmove
      | pause | resume | read | issue _ | count _ => cases hmove
    exact hfirst.append (ih hrest)

variable [Add τ] [LE τ] [DecidableLE τ]

theorem paired_deadlineMoves (now : τ) (p : Pacer κ τ) : Paired (deadlineMoves now p) := by
  obtain ⟨issued, counted, hmoves, hissued, hcounted⟩ := exists_deadlineMoves_eq now p
  rw [hmoves]
  refine .append ?_ ?_
  · rcases hissued with rfl | rfl <;> exact ⟨rfl, rfl⟩
  · rcases hcounted with rfl | rfl <;> exact ⟨rfl, rfl⟩

variable [Clock κ τ]

theorem paired_tickMoves (h : p.Uncontrolled) : Paired p.tickMoves := by
  have hevents := paired_of_isInput (isInput_drainMoves h p)
  have hturn := turn p
  generalize (Pacing.tick : Pacing κ τ Bool) p = result at hturn
  generalize p.tickMoves = moves at hturn ⊢
  cases hturn with
  | halted _ => exact ⟨rfl, rfl⟩
  | refused _ _ | stopped _ _ _ | paused _ _ _ _ => exact hevents
  | met _ _ _ _ _ | failed _ _ _ _ _ =>
    have hread : Paired (τ := τ) [.read] := ⟨rfl, rfl⟩
    exact hevents.append (hread.append (paired_deadlineMoves _ _))

/-- In a run without controls, the steps of the processor and of the timers are as many as
the deadlines call for. -/
theorem paired_course (h : p.Uncontrolled)
    (hinput : ∀ operation ∈ operations, operation.isInput = true) :
    Paired (p.course operations) := by
  induction operations generalizing p with
  | nil => exact ⟨rfl, rfl⟩
  | cons operation rest ih =>
    obtain ⟨hfirst, hrest⟩ := List.forall_mem_cons.mp hinput
    refine .append ?_ (ih (h.perform hfirst) hrest)
    cases operation with
    | tick => exact paired_tickMoves h
    | post event => exact ⟨rfl, rfl⟩
    | act _ | pause | resume | togglePause | run _ => cases hfirst

end Paired

end Pacer

end ChipEight
