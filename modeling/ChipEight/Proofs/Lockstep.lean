import ChipEight.Proofs.Course

/-!
# Pacers in lockstep

Two processors may differ in something that nothing depends on. A relation says in what
they differ, and it is a `Processor.Lockstep` when everything that is done to related
processors comes to the same result and leaves them related. Pacers that are the same but
for related processors (`Pacer.Matches`) then go in lockstep: each computation on a pacer,
from the single event up to whole runs, has the same result on both.

So what a relation has to be shown to keep is what is done to processors, and no
computation on pacers has to be looked at again.
-/

namespace ChipEight

/-! ## Results -/

/-- Two results are the same, but for states that may differ by a relation. -/
inductive SameResult {ε σ α : Type} (R : σ → σ → Prop) :
    EStateM.Result ε σ α → EStateM.Result ε σ α → Prop
  | ok (a : α) {s t : σ} (h : R s t) : SameResult R (.ok a s) (.ok a t)
  | error (e : ε) {s t : σ} (h : R s t) : SameResult R (.error e s) (.error e t)

/-- What a computation answers, apart from the state that it leaves behind. -/
def answer {ε σ α : Type} (act : EStateM ε σ α) (s : σ) : Except ε α :=
  match act s with
  | .ok a _ => .ok a
  | .error e _ => .error e

/-- A computation by its answer and by what it leaves behind. -/
theorem run_of_answer {ε σ α : Type} {act : EStateM ε σ α} {s : σ} {a : α}
    (h : (answer act s).toOption = some a) : act s = .ok a (after act s) := by
  rw [answer] at h
  rw [after]
  generalize act s = result at h ⊢
  cases result with
  | ok b t =>
    obtain rfl := Option.some.inj h
    rfl
  | error e t => cases h

namespace SameResult

variable {ε σ α : Type} {R S : σ → σ → Prop} {first second : EStateM.Result ε σ α} {t : σ}

theorem of_ok {a : α} (h : SameResult R first (.ok a t)) : ∃ s, first = .ok a s ∧ R s t := by
  cases h with
  | ok _ h => exact ⟨_, rfl, h⟩

theorem of_error {e : ε} (h : SameResult R first (.error e t)) :
    ∃ s, first = .error e s ∧ R s t := by
  cases h with
  | error _ h => exact ⟨_, rfl, h⟩

theorem mono (h : SameResult R first second) (himp : ∀ {s t}, R s t → S s t) :
    SameResult S first second := by
  cases h with
  | ok a h => exact .ok a (himp h)
  | error e h => exact .error e (himp h)

/-- What is left behind is related. -/
theorem after {act act' : EStateM ε σ α} {s : σ} (h : SameResult R (act s) (act' t)) :
    R (after act s) (after act' t) := by
  rw [ChipEight.after, ChipEight.after]
  generalize act s = first at h ⊢
  generalize act' t = second at h ⊢
  cases h with
  | ok _ h => exact h
  | error _ h => exact h

/-- The answers are the same. -/
theorem answer_eq {act act' : EStateM ε σ α} {s : σ} (h : SameResult R (act s) (act' t)) :
    answer act s = answer act' t := by
  rw [answer, answer]
  generalize act s = first at h ⊢
  generalize act' t = second at h ⊢
  cases h with
  | ok _ _ => rfl
  | error _ _ => rfl

end SameResult

/-! ## Processors -/

namespace Processor

/-- Let a key of the machine go down or up. -/
def keyEvent (number : Int) (isDown : Bool) : EStateM Error Processor Bool := fun p =>
  match Machine.keyEvent number isDown p.machine with
  | .ok settled machine => .ok settled { p with machine }
  | .error error machine => .error error { p with machine }

theorem after_keyEvent (number : Int) (isDown : Bool) (p : Processor) :
    after (keyEvent number isDown) p = p.act (.key number isDown) := by
  rw [after, keyEvent, act, after]
  cases Machine.keyEvent number isDown p.machine <;> rfl

/-- What is done to related processors comes to the same result and leaves them related. -/
structure Lockstep (R : Processor → Processor → Prop) : Prop where
  halted : ∀ {p q}, R p q → p.machine.halted = q.machine.halted
  waiting : ∀ {p q}, R p q → p.machine.waiting = q.machine.waiting
  step : ∀ {p q}, R p q → SameResult R (step p) (step q)
  key : ∀ {p q}, R p q → ∀ number isDown,
    SameResult R (keyEvent number isDown p) (keyEvent number isDown q)
  countDown : ∀ {p q}, R p q → R (p.act .countDown) (q.act .countDown)
  halt : ∀ {p q}, R p q → R (p.act .halt) (q.act .halt)
  log : ∀ {p q}, R p q → ∀ change, R (p.act (.log change)) (q.act (.log change))

/-- Every action leaves related processors related. -/
theorem Lockstep.act {R : Processor → Processor → Prop} (hlock : Lockstep R) {p q : Processor}
    (h : R p q) (action : Action) : R (p.act action) (q.act action) := by
  cases action with
  | step => exact (hlock.step h).after
  | key number isDown =>
    have hkey := (hlock.key h number isDown).after
    rwa [after_keyEvent, after_keyEvent] at hkey
  | countDown => exact hlock.countDown h
  | halt => exact hlock.halt h
  | log change => exact hlock.log h change

end Processor

/-! ## Pacers -/

namespace Pacing

variable {κ τ : Type} [Clock κ τ]

/-- A key event has its effect on the processor, and the end of a wait on the deadline. -/
theorem apply_key_processor (number : Int) (isDown : Bool) (p : Pacer κ τ) :
    (apply (.key number isDown) : Pacing κ τ Unit) p =
      match Processor.keyEvent number isDown p.processor with
      | .ok true processor => .ok () { p with processor }.hurry
      | .ok false processor => .ok () { p with processor }
      | .error error processor => .error error { p with processor } := by
  rw [apply_key, Processor.keyEvent]
  rcases Machine.keyEvent number isDown p.processor.machine with ⟨_ | _, _⟩ | ⟨_, _⟩
  · rfl
  · rfl
  · rfl

end Pacing

namespace Pacer

variable {κ τ : Type} {R : Processor → Processor → Prop}

/-- Two pacers are the same but for their processors, which are related. -/
def Matches (R : Processor → Processor → Prop) (p q : Pacer κ τ) : Prop :=
  ∃ processor, R p.processor processor ∧ q = { p with processor }

/-- Matching pacers make the same step. -/
theorem step_lockstep (hlock : Processor.Lockstep R) {p q : Pacer κ τ} (h : p.Matches R q) :
    SameResult (Matches R) ((Pacing.step : Pacing κ τ Unit) p) (Pacing.step q) := by
  obtain ⟨processor, hR, rfl⟩ := h
  have hstep := hlock.step hR
  rw [Pacing.step_run, Pacing.step_run]
  generalize Processor.step p.processor = first at hstep ⊢
  generalize Processor.step processor = second at hstep ⊢
  cases hstep with
  | ok _ hR => exact .ok () ⟨_, hR, rfl⟩
  | error fault hR => exact .error (Error.fault fault) ⟨_, hR, rfl⟩

variable [Clock κ τ]

theorem togglePause_lockstep (hlock : Processor.Lockstep R) {p q : Pacer κ τ}
    (h : p.Matches R q) : p.togglePause.Matches R q.togglePause := by
  obtain ⟨processor, hR, rfl⟩ := h
  rw [togglePause, togglePause]
  cases p.paused with
  | true => exact ⟨_, hlock.log hR (·.info "Resumed"), rfl⟩
  | false => exact ⟨_, hlock.log hR (·.info "Paused"), rfl⟩

/-- An event does the same to matching pacers. -/
theorem apply_lockstep (hlock : Processor.Lockstep R) (event : Event) {p q : Pacer κ τ}
    (h : p.Matches R q) :
    SameResult (Matches R) ((Pacing.apply event : Pacing κ τ Unit) p) (Pacing.apply event q) := by
  cases event with
  | key number isDown =>
    obtain ⟨processor, hR, rfl⟩ := h
    have hkey := hlock.key hR number isDown
    rw [Pacing.apply_key_processor, Pacing.apply_key_processor]
    generalize Processor.keyEvent number isDown p.processor = first at hkey ⊢
    generalize Processor.keyEvent number isDown processor = second at hkey ⊢
    cases hkey with
    | ok settled hR =>
      cases settled with
      | true => exact .ok () ⟨_, hR, rfl⟩
      | false => exact .ok () ⟨_, hR, rfl⟩
    | error error hR => exact .error error ⟨_, hR, rfl⟩
  | control control =>
    cases control with
    | pause =>
      rw [Pacing.apply_pause, Pacing.apply_pause]
      exact .ok () (togglePause_lockstep hlock h)
    | step =>
      have hwaiting : p.processor.machine.waiting = q.processor.machine.waiting := by
        obtain ⟨processor, hR, rfl⟩ := h
        exact hlock.waiting hR
      rw [Pacing.apply_step, Pacing.apply_step, ← hwaiting]
      cases p.processor.machine.waiting with
      | true => exact .ok () h
      | false => exact step_lockstep hlock h
    | quit =>
      obtain ⟨processor, hR, rfl⟩ := h
      rw [Pacing.apply_quit, Pacing.apply_quit]
      exact .ok () ⟨_, hlock.halt (hlock.log hR (·.info "Exit requested")), rfl⟩
  | foreign value =>
    rw [Pacing.apply_foreign, Pacing.apply_foreign]
    exact .error _ h

omit [Clock κ τ] in
theorem Matches.halted (hlock : Processor.Lockstep R) {p q : Pacer κ τ} (h : p.Matches R q) :
    p.halted = q.halted := by
  obtain ⟨processor, hR, rfl⟩ := h
  exact hlock.halted hR

/-- Applying events does the same to matching pacers. -/
theorem applyAll_lockstep (hlock : Processor.Lockstep R) (events : List Event) {p q : Pacer κ τ}
    (h : p.Matches R q) :
    SameResult (Matches R) ((Pacing.applyAll events : Pacing κ τ Unit) p)
      (Pacing.applyAll events q) := by
  induction events generalizing p q with
  | nil => exact .ok () h
  | cons event rest ih =>
    rw [Pacing.applyAll_cons, Pacing.applyAll_cons, ← h.halted hlock]
    by_cases hhalted : p.halted = true
    · rw [if_pos hhalted, if_pos hhalted]
      exact .ok () h
    rw [if_neg hhalted, if_neg hhalted]
    have htaken : Matches R { p with queue := rest } { q with queue := rest } := by
      obtain ⟨processor, hR, rfl⟩ := h
      exact ⟨processor, hR, rfl⟩
    have happly := apply_lockstep hlock event htaken
    generalize (Pacing.apply event : Pacing κ τ Unit) { p with queue := rest } = first
      at happly ⊢
    generalize (Pacing.apply event : Pacing κ τ Unit) { q with queue := rest } = second
      at happly ⊢
    cases happly with
    | ok _ h => exact ih h
    | error error h => exact .error error h

variable [Add τ] [LE τ] [DecidableLE τ]

omit [Clock κ τ] in
theorem issue_lockstep (hlock : Processor.Lockstep R) (now : τ) {p q : Pacer κ τ}
    (h : p.Matches R q) :
    SameResult (Matches R) ((Pacing.issue now : Pacing κ τ Unit) p) (Pacing.issue now q) := by
  obtain ⟨processor, hR, rfl⟩ := h
  have hsame : Pacing.Due { p with processor } now ↔ Pacing.Due p now := by
    rw [Pacing.Due, Pacing.Due, hlock.waiting hR]
  rw [Pacing.issue, Pacing.issue]
  by_cases hdue : Pacing.Due p now
  · rw [if_pos hdue, if_pos (hsame.mpr hdue)]
    exact step_lockstep hlock ⟨processor, hR, rfl⟩
  · rw [if_neg hdue, if_neg (mt hsame.mp hdue)]
    exact .ok () ⟨processor, hR, rfl⟩

omit [Clock κ τ] in
theorem count_lockstep (hlock : Processor.Lockstep R) (now : τ) {p q : Pacer κ τ}
    (h : p.Matches R q) : (Pacing.count p now).Matches R (Pacing.count q now) := by
  obtain ⟨processor, hR, rfl⟩ := h
  have hnext : ({ p with processor } : Pacer κ τ).nextTimer = p.nextTimer := rfl
  rw [Pacing.count, Pacing.count, hnext]
  by_cases hdue : p.nextTimer ≤ now
  · rw [if_pos hdue, if_pos hdue]
    exact ⟨_, hlock.countDown hR, rfl⟩
  · rw [if_neg hdue, if_neg hdue]
    exact ⟨processor, hR, rfl⟩

omit [Clock κ τ] in
/-- Meeting the deadlines does the same to matching pacers. -/
theorem meetDeadlines_lockstep (hlock : Processor.Lockstep R) (now : τ) {p q : Pacer κ τ}
    (h : p.Matches R q) :
    SameResult (Matches R) ((Pacing.meetDeadlines now : Pacing κ τ Unit) p)
      (Pacing.meetDeadlines now q) := by
  have hissue := issue_lockstep hlock now h
  rw [Pacing.meetDeadlines_run, Pacing.meetDeadlines_run]
  generalize (Pacing.issue now : Pacing κ τ Unit) p = first at hissue ⊢
  generalize (Pacing.issue now : Pacing κ τ Unit) q = second at hissue ⊢
  cases hissue with
  | ok _ h => exact .ok () (count_lockstep hlock now h)
  | error error h => exact .error error h

/-- **Matching pacers tick alike.** -/
theorem tick_lockstep (hlock : Processor.Lockstep R) {p q : Pacer κ τ} (h : p.Matches R q) :
    SameResult (Matches R) ((Pacing.tick : Pacing κ τ Bool) p) (Pacing.tick q) := by
  have hqueue : p.queue = q.queue := by
    obtain ⟨processor, -, rfl⟩ := h
    rfl
  have hdrain := applyAll_lockstep hlock p.queue h
  rw [Pacing.tick_run, Pacing.tick_run, Pacing.drain_run, Pacing.drain_run, ← h.halted hlock,
    ← hqueue]
  by_cases hhalted : p.halted = true
  · rw [if_pos hhalted, if_pos hhalted]
    exact .ok false h
  rw [if_neg hhalted, if_neg hhalted]
  generalize (Pacing.applyAll p.queue : Pacing κ τ Unit) p = first at hdrain ⊢
  generalize (Pacing.applyAll p.queue : Pacing κ τ Unit) q = second at hdrain ⊢
  cases hdrain with
  | error error h => exact .error error h
  | @ok _ r _ h =>
    have hstopped := h.halted hlock
    obtain ⟨processor, hR, rfl⟩ := h
    simp only [← hstopped]
    by_cases hhalted : r.halted = true
    · simp only [if_pos hhalted]
      exact .ok false ⟨processor, hR, rfl⟩
    by_cases hpaused : r.paused = true
    · simp only [if_neg hhalted, if_pos hpaused]
      exact .ok true ⟨processor, hR, rfl⟩
    simp only [if_neg hhalted, if_neg hpaused]
    have htimed : r.timed.Matches R { r.timed with processor } := ⟨processor, hR, rfl⟩
    have hmeet := meetDeadlines_lockstep hlock r.now htimed
    have hnow : ({ r with processor } : Pacer κ τ).now = r.now := rfl
    have htime : ({ r with processor } : Pacer κ τ).timed = { r.timed with processor } := rfl
    rw [hnow, htime]
    generalize (Pacing.meetDeadlines r.now : Pacing κ τ Unit) r.timed = first at hmeet ⊢
    generalize (Pacing.meetDeadlines r.now : Pacing κ τ Unit) _ = second at hmeet ⊢
    cases hmeet with
    | error error h => exact .error error h
    | ok _ h =>
      simp only [← h.halted hlock]
      exact .ok _ h

/-- Ticks until the machine halts are as many for matching pacers. -/
theorem runFrom_lockstep (hlock : Processor.Lockstep R) (done more : Nat) {p q : Pacer κ τ}
    (h : p.Matches R q) :
    SameResult (Matches R) ((Pacing.runFrom done more : Pacing κ τ Nat) p)
      (Pacing.runFrom done more q) := by
  induction more generalizing done p q with
  | zero => exact .ok done h
  | succ more ih =>
    have htick := tick_lockstep hlock h
    rw [Pacing.runFrom_succ, Pacing.runFrom_succ]
    generalize (Pacing.tick : Pacing κ τ Bool) p = first at htick ⊢
    generalize (Pacing.tick : Pacing κ τ Bool) q = second at htick ⊢
    cases htick with
    | error error h => exact .error error h
    | ok running h =>
      cases running with
      | true => exact ih (done + 1) h
      | false => exact .ok done h

/-- Every operation leaves matching pacers matching. -/
theorem perform_lockstep (hlock : Processor.Lockstep R) (operation : Operation) {p q : Pacer κ τ}
    (h : p.Matches R q) : (p.perform operation).Matches R (q.perform operation) := by
  cases operation with
  | tick => exact (tick_lockstep hlock h).after
  | run cap => exact (runFrom_lockstep hlock 0 _ h).after
  | togglePause => exact togglePause_lockstep hlock h
  | act action =>
    obtain ⟨processor, hR, rfl⟩ := h
    exact ⟨_, hlock.act hR action, rfl⟩
  | post event =>
    obtain ⟨processor, hR, rfl⟩ := h
    exact ⟨processor, hR, rfl⟩
  | pause =>
    obtain ⟨processor, hR, rfl⟩ := h
    exact ⟨processor, hR, rfl⟩
  | resume =>
    obtain ⟨processor, hR, rfl⟩ := h
    exact ⟨processor, hR, rfl⟩

/-- What an operation answers to whoever asks for it. -/
inductive Answer where
  | nothing
  /-- a step completed an instruction, or halted, or was refused -/
  | stepped (result : Except Fault (Option Instruction))
  /-- a key event ended a wait or not, or was refused -/
  | noted (result : Except Error Bool)
  /-- a tick left the machine running or not, or was refused -/
  | ticked (result : Except Error Bool)
  /-- so many ticks left the machine running, or one was refused -/
  | ran (result : Except Error Nat)

/-- The answer to an operation. -/
def answer (p : Pacer κ τ) : Operation → Answer
  | .act .step => .stepped (ChipEight.answer Processor.step p.processor)
  | .act (.key number isDown) =>
    .noted (ChipEight.answer (Processor.keyEvent number isDown) p.processor)
  | .tick => .ticked (ChipEight.answer Pacing.tick p)
  | .run cap => .ran (ChipEight.answer (Pacing.run cap) p)
  | .act .countDown | .act .halt | .act (.log _) => .nothing
  | .post _ | .pause | .resume | .togglePause => .nothing

/-- The answers to a run, in order. -/
def answers (p : Pacer κ τ) : List Operation → List Answer
  | [] => []
  | operation :: rest => p.answer operation :: (p.perform operation).answers rest

/-- An operation answers the same to matching pacers. -/
theorem answer_lockstep (hlock : Processor.Lockstep R) (operation : Operation) {p q : Pacer κ τ}
    (h : p.Matches R q) : p.answer operation = q.answer operation := by
  cases operation with
  | act action =>
    obtain ⟨processor, hR, rfl⟩ := h
    cases action with
    | step => exact congrArg Answer.stepped (hlock.step hR).answer_eq
    | key number isDown => exact congrArg Answer.noted (hlock.key hR number isDown).answer_eq
    | countDown => rfl
    | halt => rfl
    | log change => rfl
  | tick => exact congrArg Answer.ticked (tick_lockstep hlock h).answer_eq
  | run cap => exact congrArg Answer.ran (runFrom_lockstep hlock 0 _ h).answer_eq
  | post event => rfl
  | pause => rfl
  | resume => rfl
  | togglePause => rfl

theorem answers_lockstep (hlock : Processor.Lockstep R) (operations : List Operation)
    {p q : Pacer κ τ} (h : p.Matches R q) : p.answers operations = q.answers operations := by
  induction operations generalizing p q with
  | nil => rfl
  | cons operation rest ih =>
    have hrest := ih (perform_lockstep hlock operation h)
    rw [answers, answers, answer_lockstep hlock operation h, hrest]

/-- **Matching pacers run alike.** -/
theorem performAll_lockstep (hlock : Processor.Lockstep R) (operations : List Operation)
    {p q : Pacer κ τ} (h : p.Matches R q) :
    (p.performAll operations).Matches R (q.performAll operations) := by
  induction operations generalizing p q with
  | nil => exact h
  | cons operation rest ih => exact ih (perform_lockstep hlock operation h)

end Pacer

end ChipEight
