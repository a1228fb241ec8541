import ChipEight.Proofs.Course

/-!
# The moves that a pacer allows

A list of moves says what happens to a pacer, but not that it may happen there: an
event could be taken that is not the first of the queue, or an instruction issued
that is not due. `Pacer.Allows` says where each move belongs, and
`Pacer.allowsAll_course` that a run makes every move of its course where it
belongs, as long as nothing is done to the processor past the pacer. Laws about
runs are then inductions over lists of allowed moves, with one case for each move.
-/

namespace ChipEight

namespace Pacer

variable {κ τ : Type} [Clock κ τ] [Add τ] {p : Pacer κ τ} {first rest : List (Move τ)}

/-- The latest reading of the clock after a move. -/
def latestAfter (p : Pacer κ τ) (latest : τ) : Move τ → τ
  | .hurry | .resume | .read => p.now
  | .post _ | .take _ | .act _ | .pause | .issue _ | .count _ => latest

/-- The latest reading of the clock after a sequence of moves. -/
def latestAll (p : Pacer κ τ) (latest : τ) : List (Move τ) → τ
  | [] => latest
  | move :: rest => (p.move move).latestAll (p.latestAfter latest move) rest

variable [LE τ] {latest : τ}

/-- Where a move belongs, given the latest reading of the clock. Events are taken
from the front of the queue, and by a machine that has not halted. Steps are made
while no key is awaited. The deadlines are looked at with the latest reading and
when there are no events left, and they are met when they have passed. -/
def Allows (p : Pacer κ τ) (latest : τ) : Move τ → Prop
  | .take event => p.halted = false ∧ p.queue.head? = some event
  | .act action => action = .step → p.processor.machine.waiting = false
  | .issue now => p.queue = [] ∧ now = latest ∧ Pacing.Due p now
  | .count now => p.queue = [] ∧ now = latest ∧ p.nextTimer ≤ now
  | .post _ | .hurry | .pause | .resume | .read => True

/-- Whether each of a sequence of moves belongs where it is made. -/
def AllowsAll (p : Pacer κ τ) (latest : τ) : List (Move τ) → Prop
  | [] => True
  | move :: rest =>
    p.Allows latest move ∧ (p.move move).AllowsAll (p.latestAfter latest move) rest

theorem allowsAll_append : p.AllowsAll latest (first ++ rest) ↔
    p.AllowsAll latest first ∧
      (p.moveAll first).AllowsAll (p.latestAll latest first) rest := by
  induction first generalizing p latest with
  | nil => exact ⟨fun h => ⟨trivial, h⟩, And.right⟩
  | cons move first ih =>
    rw [List.cons_append, AllowsAll, AllowsAll, ih, and_assoc]
    rfl

/-- What is allowed is allowed up to any moment. -/
theorem AllowsAll.of_isPrefix {moves : List (Move τ)} (h : p.AllowsAll latest moves)
    (hfirst : first <+: moves) : p.AllowsAll latest first := by
  obtain ⟨rest, rfl⟩ := hfirst
  exact (allowsAll_append.mp h).1

/-- A move that is made at some moment belongs there. -/
theorem AllowsAll.allows {move : Move τ} (h : p.AllowsAll latest (first ++ move :: rest)) :
    (p.moveAll first).Allows (p.latestAll latest first) move :=
  (allowsAll_append.mp h).2.1

/-! ## Events -/

theorem allowsAll_toggleMoves (latest : τ) : p.AllowsAll latest p.toggleMoves := by
  rw [toggleMoves]
  cases p.paused with
  | true => exact ⟨trivial, by rintro ⟨⟩, trivial⟩
  | false => exact ⟨trivial, by rintro ⟨⟩, trivial⟩

theorem allowsAll_eventMoves (latest : τ) (event : Event) :
    p.AllowsAll latest (p.eventMoves event) := by
  cases event with
  | key number isDown =>
    rw [eventMoves]
    refine ⟨by rintro ⟨⟩, ?_⟩
    rcases Machine.keyEvent number isDown p.processor.machine with ⟨_ | _, _⟩ | ⟨_, _⟩
    · trivial
    · exact ⟨trivial, trivial⟩
    · trivial
  | control control =>
    cases control with
    | pause => exact allowsAll_toggleMoves latest
    | step =>
      rw [eventMoves]
      cases hwaiting : p.processor.machine.waiting with
      | true => trivial
      | false => exact ⟨fun _ => hwaiting, trivial⟩
    | quit => exact ⟨by rintro ⟨⟩, by rintro ⟨⟩, trivial⟩
  | foreign value => trivial

theorem allowsAll_drainMoves {events : List Event} (hqueue : p.queue = events) (latest : τ) :
    p.AllowsAll latest (drainMoves events p) := by
  have hdrains := drains events p
  generalize (Pacing.applyAll events : Pacing κ τ Unit) p = result at hdrains
  generalize drainMoves events p = moves at hdrains ⊢
  induction hdrains generalizing latest with
  | done p => trivial
  | halted events hhalted => trivial
  | applies hrunning happly hrest ih =>
    rw [List.cons_append]
    refine ⟨⟨hrunning, by rw [hqueue, List.head?_cons]⟩, ?_⟩
    rw [move_take hqueue, allowsAll_append, moveAll_eventMoves, after, happly]
    exact ⟨allowsAll_eventMoves _ _, ih (queue_of_apply happly) _⟩
  | refuses hrunning happly =>
    refine ⟨⟨hrunning, by rw [hqueue, List.head?_cons]⟩, ?_⟩
    rw [move_take hqueue]
    exact allowsAll_eventMoves _ _

omit [Add τ] [LE τ] in
theorem applyAll_of_halted {events : List Event} (hhalted : p.halted = true) :
    (Pacing.applyAll events : Pacing κ τ Unit) p = .ok () p := by
  cases events with
  | nil => rfl
  | cons event rest => rw [Pacing.applyAll_cons, if_pos hhalted]

omit [Add τ] [LE τ] in
/-- Unless the machine halts, all events are applied. -/
theorem queue_of_applyAll {events : List Event} {q : Pacer κ τ} (hqueue : p.queue = events)
    (happly : (Pacing.applyAll events : Pacing κ τ Unit) p = .ok () q)
    (hrunning : q.halted = false) : q.queue = [] := by
  have hdrains := drains events p
  rw [happly] at hdrains
  clear happly
  generalize hresult : (EStateM.Result.ok () q : EStateM.Result Error (Pacer κ τ) Unit) = result
    at hdrains
  generalize drainMoves events p = moves at hdrains
  induction hdrains with
  | done p =>
    obtain ⟨-, rfl⟩ := EStateM.Result.ok.inj hresult
    exact hqueue
  | halted events hhalted =>
    obtain ⟨-, rfl⟩ := EStateM.Result.ok.inj hresult
    rw [hhalted] at hrunning
    cases hrunning
  | applies _ happlied hrest ih => exact ih (queue_of_apply happlied) hresult
  | refuses _ _ => cases hresult

omit [Add τ] [LE τ] in
theorem queue_of_drain {q : Pacer κ τ} (hdrain : (Pacing.drain : Pacing κ τ Unit) p = .ok () q)
    (hrunning : q.halted = false) : q.queue = [] :=
  queue_of_applyAll rfl hdrain hrunning

/-! ## Deadlines -/

variable [DecidableLE τ]

theorem allowsAll_issueMoves {latest now : τ} (hqueue : p.queue = []) (hnow : now = latest) :
    p.AllowsAll latest (issueMoves now p) := by
  rw [issueMoves]
  by_cases hdue : Pacing.Due p now
  · rw [if_pos hdue]
    exact ⟨⟨hqueue, hnow, hdue⟩, fun _ => hdue.1, trivial⟩
  · rw [if_neg hdue]
    trivial

theorem allowsAll_countMoves {latest now : τ} (hqueue : p.queue = []) (hnow : now = latest) :
    p.AllowsAll latest (countMoves now p) := by
  rw [countMoves]
  by_cases hdue : p.nextTimer ≤ now
  · rw [if_pos hdue]
    exact ⟨⟨hqueue, hnow, hdue⟩, by rintro ⟨⟩, trivial⟩
  · rw [if_neg hdue]
    trivial

omit [Clock κ τ] in
/-- Issuing an instruction takes no events. -/
theorem queue_issue (now : τ) : (after (Pacing.issue now) p).queue = p.queue := by
  rw [after_issue]
  by_cases hdue : Pacing.Due p now
  · rw [if_pos hdue, Pacing.after_step]
  · rw [if_neg hdue]

theorem latestAll_issueMoves (latest now : τ) : p.latestAll latest (issueMoves now p) = latest := by
  rw [issueMoves]
  by_cases hdue : Pacing.Due p now
  · rw [if_pos hdue]
    rfl
  · rw [if_neg hdue]
    rfl

theorem allowsAll_deadlineMoves {latest now : τ} (hqueue : p.queue = []) (hnow : now = latest) :
    p.AllowsAll latest (deadlineMoves now p) := by
  rw [deadlineMoves, allowsAll_append, latestAll_issueMoves, moveAll_issueMoves]
  refine ⟨allowsAll_issueMoves hqueue hnow, ?_⟩
  have hrest := (queue_issue now).trans hqueue
  rw [after] at hrest ⊢
  rcases hissue : (Pacing.issue now : Pacing κ τ Unit) p with ⟨_, q⟩ | ⟨error, q⟩
  · rw [hissue] at hrest
    exact allowsAll_countMoves hrest hnow
  · trivial

/-! ## Runs -/

theorem allowsAll_tickMoves (latest : τ) : p.AllowsAll latest p.tickMoves := by
  have hevents := allowsAll_drainMoves (p := p) rfl latest
  have hturn := turn p
  generalize (Pacing.tick : Pacing κ τ Bool) p = result at hturn
  generalize p.tickMoves = moves at hturn ⊢
  cases hturn with
  | halted _ => trivial
  | refused _ _ | stopped _ _ _ | paused _ _ _ _ => exact hevents
  | met _ hdrain hlive _ _ | failed _ hdrain hlive _ _ =>
    have hqueue := queue_of_drain hdrain hlive
    rw [allowsAll_append, moveAll_of_drain hdrain]
    exact ⟨hevents, trivial, allowsAll_deadlineMoves hqueue rfl⟩

theorem allowsAll_runMoves (latest : τ) (more : Nat) : p.AllowsAll latest (runMoves more p) := by
  induction more generalizing p latest with
  | zero => trivial
  | succ more ih =>
    rw [runMoves, allowsAll_append, moveAll_tickMoves]
    refine ⟨allowsAll_tickMoves latest, ?_⟩
    rw [after]
    rcases (Pacing.tick : Pacing κ τ Bool) p with ⟨_ | _, q⟩ | ⟨error, q⟩
    · trivial
    · exact ih _
    · trivial

/-- Whether an operation acts on the processor past the pacer. -/
def Operation.direct : Operation → Bool
  | .act _ => true
  | _ => false

theorem allowsAll_moves (latest : τ) {operation : Operation} (h : operation.direct = false) :
    p.AllowsAll latest (p.moves operation) := by
  cases operation with
  | act action => cases h
  | post event => exact ⟨trivial, trivial⟩
  | pause => exact ⟨trivial, trivial⟩
  | resume => exact ⟨trivial, trivial⟩
  | togglePause => exact allowsAll_toggleMoves latest
  | tick => exact allowsAll_tickMoves latest
  | run cap => exact allowsAll_runMoves latest _

/-- **A run makes its moves where they belong**, unless the processor is acted on
past the pacer. -/
theorem allowsAll_course (latest : τ) {operations : List Operation}
    (h : ∀ operation ∈ operations, operation.direct = false) :
    p.AllowsAll latest (p.course operations) := by
  induction operations generalizing p latest with
  | nil => trivial
  | cons operation rest ih =>
    obtain ⟨hfirst, hrest⟩ := List.forall_mem_cons.mp h
    rw [course, allowsAll_append, moveAll_moves]
    exact ⟨allowsAll_moves latest hfirst, ih _ hrest⟩

end Pacer

end ChipEight
