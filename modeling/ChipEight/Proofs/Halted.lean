import ChipEight.Proofs.Capped

/-!
# A machine that has halted

A machine halts for good. Whatever is done to its pacer afterwards, short of acting on the
machine past it, the machine stays what it was and the queue only grows (`Pacer.Stopped`). A tick
makes no move at all, and neither does a run, so that not even the clock is read. One operation
at a time this is a case distinction; a run of operations is the sum of its operations.

The other direction is what a tick says: it says that the machine has stopped running just when
that is the case after it, at whichever point of the tick the machine halted.
-/

namespace ChipEight

namespace Pacer

variable {κ τ : Type} {p q r : Pacer κ τ} {first rest events : List Event}

/-- What is left alone once the machine has halted, and the events that were put at the end of the
queue. Only the log, the clock, the deadlines and the pause may differ besides. -/
structure Stopped (p q : Pacer κ τ) (events : List Event) : Prop where
  /-- memory, registers, timers, screen and keypad, and that it has halted -/
  machine : q.machine = p.machine
  draws : q.processor.draws = p.processor.draws
  cycles : q.processor.cycles = p.processor.cycles
  queue : q.queue = p.queue ++ events

namespace Stopped

theorem refl (p : Pacer κ τ) : p.Stopped p [] := ⟨rfl, rfl, rfl, (List.append_nil _).symm⟩

theorem trans (h : p.Stopped q first) (h' : q.Stopped r rest) : p.Stopped r (first ++ rest) where
  machine := h'.machine.trans h.machine
  draws := h'.draws.trans h.draws
  cycles := h'.cycles.trans h.cycles
  queue := by rw [h'.queue, h.queue, List.append_assoc]

theorem halted (h : p.Stopped q events) (hhalted : p.halted = true) : q.halted = true := by
  rw [Pacer.halted, h.machine]
  exact hhalted

end Stopped

variable [Clock κ τ]

theorem stopped_resume (p : Pacer κ τ) : p.Stopped p.resume [] :=
  ⟨rfl, rfl, rfl, (List.append_nil _).symm⟩

theorem stopped_togglePause (p : Pacer κ τ) : p.Stopped p.togglePause [] := by
  rw [togglePause]
  cases p.paused with
  | true => exact ⟨rfl, rfl, rfl, (List.append_nil _).symm⟩
  | false => exact ⟨rfl, rfl, rfl, (List.append_nil _).symm⟩

variable [Add τ] [LE τ] [DecidableLE τ]

theorem tickMoves_of_halted (h : p.halted = true) : p.tickMoves = [] := if_pos h

theorem runMoves_of_halted (h : p.halted = true) (more : Nat) : p.runMoves more = [] := by
  cases more with
  | zero => rfl
  | succ more => rw [runMoves, tickMoves_of_halted h, Pacing.tick_of_halted h, List.nil_append]

/-- What one operation leaves alone. -/
theorem stopped_perform (h : p.halted = true) {operation : Operation}
    (hpaced : operation.direct = false) :
    p.Stopped (p.perform operation) operation.posted?.toList := by
  cases operation with
  -- only past its pacer can a machine that has halted be acted on
  | act action => cases hpaced
  | post event => exact ⟨rfl, rfl, rfl, rfl⟩
  | pause => exact ⟨rfl, rfl, rfl, (List.append_nil _).symm⟩
  | resume => exact p.stopped_resume
  | togglePause => exact p.stopped_togglePause
  | tick =>
    rw [perform, after, Pacing.tick_of_halted h]
    exact .refl p
  | run cap =>
    rw [perform, after, Pacing.run, Pacing.runFrom_of_halted h]
    exact .refl p

/-- What a run of operations leaves alone. -/
theorem stopped_of_halted (h : p.halted = true) {operations : List Operation}
    (hpaced : ∀ operation ∈ operations, operation.direct = false) :
    p.Stopped (p.performAll operations) (operations.filterMap Operation.posted?) := by
  induction operations generalizing p with
  | nil => exact .refl p
  | cons operation rest ih =>
    obtain ⟨hfirst, hrest⟩ := List.forall_mem_cons.mp hpaced
    have hstopped := stopped_perform h hfirst
    have hlater := hstopped.trans (ih (hstopped.halted h) hrest)
    rw [List.filterMap_cons]
    cases hposted : operation.posted? with
    | none => rwa [hposted] at hlater
    | some event => rwa [hposted] at hlater

/-- **Halting is final.** Take a machine that has halted, for whatever reason, and any later run
of operations on its pacer. At the end of it the machine and its count of cycles are what they
were, and the queue has grown by what was posted. A tick then says that the machine is not running
and a run returns zero, with a cap or without one; neither makes a move, however many ticks a run
may make, so neither reads the clock.

And of any pacer, a tick that is not refused says that the machine is not running just when the
machine has halted after it. -/
theorem stopped_performAll (h : p.halted = true) {operations : List Operation}
    (hpaced : ∀ operation ∈ operations, operation.direct = false) :
    let q := p.performAll operations
    p.Stopped q (operations.filterMap Operation.posted?) ∧
    ((Pacing.tick : Pacing κ τ Bool) q = .ok false q ∧ q.tickMoves = []) ∧
    (∀ cap, (Pacing.run cap : Pacing κ τ Nat) q = .ok 0 q) ∧
    (∀ result, Pacing.RunsOut 0 q result ↔ result = .ok 0 q) ∧
    (∀ more, (Pacing.runFrom 0 more : Pacing κ τ Nat) q = .ok 0 q ∧ q.runMoves more = []) ∧
    ∀ (r s : Pacer κ τ) (running : Bool), (Pacing.tick : Pacing κ τ Bool) r = .ok running s →
      (running = false ↔ s.halted = true) := by
  intro q
  have hstopped := stopped_of_halted h hpaced
  have hhalted : q.halted = true := hstopped.halted h
  refine ⟨hstopped, ⟨Pacing.tick_of_halted hhalted, tickMoves_of_halted hhalted⟩,
    fun cap => Pacing.runFrom_of_halted hhalted 0 _, Pacing.runsOut_of_halted hhalted 0,
    fun more => ⟨Pacing.runFrom_of_halted hhalted 0 more, runMoves_of_halted hhalted more⟩, ?_⟩
  intro r s running htick
  rw [halted_of_tick htick, Bool.not_eq_true']

/-- The second instruction of a program halts the machine. A key and a request to halt that come
later stay in the queue, through ticks, a pause and a run. -/
theorem stopped_performAll_of_halt_word :
    let machine : Machine :=
      { Machine.initial with
        memory := Memory.blank.store Memory.programStart [0x60, 0x05, 0x00, 0x00] }
    let start : Pacer (HandClock Nat) Nat :=
      new (.ofMachine machine (.ofSource fun _ => 0) (.new false)) ⟨0, 1⟩ 1 3
    let p := start.performAll [.tick, .tick]
    let operations : List Operation :=
      [.post (.key 3 true), .tick, .togglePause, .resume, .run 4, .post (.control .quit), .tick]
    let q := p.performAll operations
    p.halted = true ∧ q.machine.registers.v.get 0 = 5 ∧ q.processor.cycles = 1 ∧
    q.queue = [.key 3 true, .control .quit] ∧
    (Pacing.tick : Pacing (HandClock Nat) Nat Bool) q = .ok false q ∧
    (Pacing.run 10 : Pacing (HandClock Nat) Nat Nat) q = .ok 0 q := by
  intro machine start p operations q
  have hpaced : ∀ operation ∈ operations, operation.direct = false := by decide
  obtain ⟨hhalted, hv, hcycles, hqueue⟩ :
      p.halted = true ∧ p.machine.registers.v.get 0 = 5 ∧ p.processor.cycles = 1 ∧
      p.queue = [] := by
    decide +kernel
  obtain ⟨hstopped, ⟨htick, -⟩, hrun, -⟩ := stopped_performAll hhalted hpaced
  have hq : p.performAll operations = q := rfl
  rw [hq] at hstopped htick
  have hten := hrun 10
  rw [hq] at hten
  -- nothing has to be computed any more
  clear_value q p
  refine ⟨hhalted, ?_, hstopped.cycles.trans hcycles, ?_, htick, hten⟩
  · rw [hstopped.machine, hv]
  · rw [hstopped.queue, hqueue]
    rfl

end Pacer

end ChipEight
