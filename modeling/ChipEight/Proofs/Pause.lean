import ChipEight.Proofs.Deadlines
import ChipEight.Proofs.Timers

/-!
# Pauses

While the machine is paused, events are applied all the same, and nothing else happens:
the program, its timers and the deadline for the timers are frozen. Of what is left, the
byte registers and the wait change only when a key ends the wait, and the deadline for
instructions only right after that.

Going on sets both deadlines to the time of the clock, so nothing of the pause is made
up for. Until a period has passed, a deadline is met once at most: then it is a period
after that time, and no reading reaches it (`Pacer.met_moveAll`). Each tick looks at the
deadline for the timers, so with one tick it is met.
-/

namespace ChipEight

/-! ## While the machine is paused -/

namespace Machine

variable {m n o : Machine}

/-- Two machines differ at most in the byte registers and the keypad. -/
structure Frozen (m n : Machine) : Prop where
  pc : n.registers.pc = m.registers.pc
  i : n.registers.i = m.registers.i
  /-- the slots of the call stack and how many are in use -/
  stack : n.registers.stack = m.registers.stack
  memory : n.memory = m.memory
  screen : n.screen = m.screen
  delay : n.registers.delay = m.registers.delay
  sound : n.registers.sound = m.registers.sound
  halted : n.halted = m.halted

namespace Frozen

theorem refl (m : Machine) : m.Frozen m := ⟨rfl, rfl, rfl, rfl, rfl, rfl, rfl, rfl⟩

theorem trans (h : m.Frozen n) (h' : n.Frozen o) : m.Frozen o where
  pc := h'.pc.trans h.pc
  i := h'.i.trans h.i
  stack := h'.stack.trans h.stack
  memory := h'.memory.trans h.memory
  screen := h'.screen.trans h.screen
  delay := h'.delay.trans h.delay
  sound := h'.sound.trans h.sound
  halted := h'.halted.trans h.halted

theorem keyEvent (m : Machine) (number : Int) (isDown : Bool) :
    m.Frozen (after (Machine.keyEvent number isDown) m) := by
  obtain ⟨v, keypad, h⟩ := m.after_keyEvent number isDown
  rw [h]
  exact ⟨rfl, rfl, rfl, rfl, rfl, rfl, rfl, rfl⟩

end Frozen

/-- A key event leaves the byte registers and the wait alone, unless it is the press of a key
that exists while one is awaited. -/
theorem v_keyEvent (hbounded : m.Bounded) (number : Int) (isDown : Bool) :
    let n := after (keyEvent number isDown) m
    (n.registers.v = m.registers.v ∧ n.waiting = m.waiting) ∨
      (m.waiting = true ∧ isDown = true ∧ ∃ k : Fin 16, number = k.val) := by
  have hout := keyEvent_outcome m number isDown
  rw [after]
  generalize keyEvent number isDown m = result at hout ⊢
  cases hout with
  | unknown _ | noted _ _ => exact .inl ⟨rfl, rfl⟩
  | settled hkey hdown hwaiting _ =>
    exact .inr ⟨hwaiting, hdown, _, cell?_eq_some_iff.mp (Keypad.cell_of_key hkey)⟩
  | misdirected _ _ _ hregister =>
    obtain ⟨x, hx⟩ := hbounded.exists_register
    rw [hx, Registers.index?_of_fin] at hregister
    cases hregister

end Machine

namespace Pacer

variable {κ τ : Type} {p q r : Pacer κ τ} {moves : List (Move τ)}

/-- Two pacers differ at most in the byte registers, the keypad, the deadline for
instructions, the queue, the clock and the log. -/
structure Frozen (p q : Pacer κ τ) : Prop where
  machine : p.machine.Frozen q.machine
  cycles : q.processor.cycles = p.processor.cycles
  nextTimer : q.nextTimer = p.nextTimer
  paused : q.paused = p.paused

namespace Frozen

theorem refl (p : Pacer κ τ) : p.Frozen p := ⟨.refl _, rfl, rfl, rfl⟩

theorem trans (h : p.Frozen q) (h' : q.Frozen r) : p.Frozen r :=
  ⟨h.machine.trans h'.machine, h'.cycles.trans h.cycles, h'.nextTimer.trans h.nextTimer,
    h'.paused.trans h.paused⟩

end Frozen

variable [Clock κ τ]

section Frozen

variable [Add τ]

/-- What comes from outside leaves the program and the timers alone. -/
theorem frozen_move {move : Move τ} (h : move.isInput = true) : p.Frozen (p.move move) := by
  cases move with
  | post _ | take _ | hurry => exact ⟨.refl _, rfl, rfl, rfl⟩
  | act action =>
    cases action with
    | key number isDown => exact ⟨.keyEvent _ number isDown, rfl, rfl, rfl⟩
    | step | countDown | halt | log _ => cases h
  | pause | resume | read | issue _ | count _ => cases h

theorem frozen_moveAll (h : ∀ move ∈ moves, move.isInput = true) : p.Frozen (p.moveAll moves) := by
  induction moves generalizing p with
  | nil => exact .refl p
  | cons move rest ih =>
    obtain ⟨hmove, hrest⟩ := List.forall_mem_cons.mp h
    exact (frozen_move hmove).trans (ih hrest)

/-- A move that is a press that ends a wait: the key goes to the register that waits for it,
and nothing is awaited any more. -/
def EndsWait (p : Pacer κ τ) (move : Move τ) : Prop :=
  p.machine.waiting = true ∧ ∃ k x : Fin 16,
    move = .act (.key k.val true) ∧ p.machine.keypad.register = x.val ∧
    (p.move move).machine.registers.v = fill p.machine.registers.v x (UInt8.ofNat k.val) ∧
    (p.move move).machine.waiting = false

theorem endsWait_of_waiting (hbounded : p.machine.Bounded) (hwaiting : p.machine.waiting = true)
    (k : Fin 16) : p.EndsWait (.act (.key k.val true)) := by
  obtain ⟨x, hx⟩ := hbounded.exists_register
  have hmachine : (p.move (.act (.key k.val true))).machine =
      after (Machine.keyEvent k.val true) p.machine := rfl
  rw [after, Machine.keyEvent_of_waiting k x hwaiting hx] at hmachine
  refine ⟨hwaiting, k, x, rfl, hx, ?_, ?_⟩
  · rw [hmachine]
  · rw [hmachine, Machine.waiting]

/-- What comes from outside changes the byte registers and the wait only by ending a wait. -/
theorem v_move (hbounded : p.machine.Bounded) {move : Move τ} (h : move.isInput = true) :
    ((p.move move).machine.registers.v = p.machine.registers.v ∧
      (p.move move).machine.waiting = p.machine.waiting) ∨ p.EndsWait move := by
  cases move with
  | post _ | take _ | hurry => exact .inl ⟨rfl, rfl⟩
  | act action =>
    cases action with
    | key number isDown =>
      refine (Machine.v_keyEvent hbounded number isDown).imp_right ?_
      rintro ⟨hwaiting, rfl, k, rfl⟩
      exact endsWait_of_waiting hbounded hwaiting k
    | step | countDown | halt | log _ => cases h
  | pause | resume | read | issue _ | count _ => cases h

/-- What comes from outside changes the deadline for instructions only by making the next
one due at once. -/
theorem nextClock_move {move : Move τ} (h : move.isInput = true) :
    (p.move move).nextClock = p.nextClock ∨
      (move = .hurry ∧ (p.move move).nextClock = p.now) := by
  cases move with
  | post _ | take _ | act _ => exact .inl rfl
  | hurry => exact .inr ⟨rfl, rfl⟩
  | pause | resume | read | issue _ | count _ => cases h

variable [LE τ] [DecidableLE τ] {operations : List Operation}

/-- While the machine is paused, a run without controls takes in what comes from outside and
does nothing else. -/
theorem isInput_course (hpaused : p.paused = true) (hqueue : p.Uncontrolled)
    (hinput : ∀ operation ∈ operations, operation.isInput = true) :
    ∀ move ∈ p.course operations, move.isInput = true := by
  intro move hmove
  refine (kinds_course hqueue hinput move hmove).resolve_right ?_
  rintro ⟨hgoing, -⟩
  rw [hpaused] at hgoing
  cases hgoing

/-- While the machine is paused, the byte registers and the wait change only by a press that
ends the wait, and the deadline for instructions only right after that. -/
theorem endsWait_of_isPrefix (hbounded : p.machine.Bounded)
    (hinputs : ∀ move ∈ p.course operations, move.isInput = true)
    (hinput : ∀ operation ∈ operations, operation.isInput = true) {move : Move τ}
    (hmoves : moves ++ [move] <+: p.course operations) :
    let q := p.moveAll moves
    (((q.move move).machine.registers.v = q.machine.registers.v ∧
      (q.move move).machine.waiting = q.machine.waiting) ∨ q.EndsWait move) ∧
    ((q.move move).nextClock = q.nextClock ∨
      (move = .hurry ∧ (q.move move).nextClock = q.now ∧
        ∃ first press, moves = first ++ [press] ∧ (p.moveAll first).EndsWait press)) := by
  intro q
  have hmove : move.isInput = true := hinputs move (hmoves.subset (by simp))
  refine ⟨v_move (bounded_moveAll hbounded moves) hmove, (nextClock_move hmove).imp_right ?_⟩
  rintro ⟨rfl, hnow⟩
  obtain ⟨rest, hcourse⟩ := hmoves
  obtain ⟨first, k, hfirst, hwaiting⟩ := promptly_course p hinput moves rest (by
    rw [← hcourse, List.append_assoc, List.singleton_append])
  exact ⟨rfl, hnow, first, _, hfirst,
    endsWait_of_waiting (bounded_moveAll hbounded first) hwaiting k⟩

/-- A tick of a machine that is paused says that it is running, unless it is refused. -/
theorem running_of_tick (hpaused : p.paused = true) (hlive : p.halted = false)
    (hqueue : p.Uncontrolled) {running : Bool}
    (htick : (Pacing.tick : Pacing κ τ Bool) p = .ok running q) : running = true := by
  have hfrozen : p.Frozen (p.performAll [.tick]) := by
    rw [← moveAll_course]
    exact frozen_moveAll (isInput_course hpaused hqueue (List.forall_mem_singleton.mpr rfl))
  have hhalted : (after Pacing.tick p).halted = p.halted := hfrozen.machine.halted
  rw [after, htick, halted_of_tick htick, hlive] at hhalted
  exact (Bool.not_eq_false' _).mp hhalted

end Frozen

/-! ## After the pause -/

section Within

variable [Add τ] [Preorder τ] {start latest : τ} {times : Nat} {d : Deadline}

/-- Whether a move is a deadline moving on. -/
def Deadline.isMetBy : Deadline → Move τ → Bool
  | .instruction => Move.isIssue
  | .timers => Move.isCount

/-- A reading is not before `start`, and no deadline that was set then and met once has
passed at it. -/
def Within (p : Pacer κ τ) (start now : τ) : Prop :=
  start ≤ now ∧ ∀ d, now < start + p.period d

/-- How often a deadline was met since it was set to `start`, if at most once. -/
inductive Met (start period : τ) : τ → Nat → Prop
  | never : Met start period start 0
  | once : Met start period (start + period) 1

omit [Preorder τ] in
theorem Met.le_one {start period due : τ} (h : Met start period due times) : times ≤ 1 := by
  cases h with
  | never => exact Nat.zero_le 1
  | once => exact Nat.le_refl 1

/-- A deadline that was met once is not met again as long as no reading reaches it. -/
theorem Met.meet {start period due now : τ} (h : Met start period due times)
    (hdue : due ≤ now) (hwithin : now < start + period) :
    Met start period (due + period) (times + 1) := by
  cases h with
  | never => exact .once
  | once => exact absurd hdue (not_le_of_gt hwithin)

theorem met_move {move : Move τ} (hallowed : p.Allows latest move)
    (hkind : move.isInput = true ∨ move.isTiming = true) (hhurry : move ≠ .hurry)
    (hlatest : p.Within start latest) (h : Met start (p.period d) (p.due d) times) :
    Met start (p.period d) ((p.move move).due d) (times + if d.isMetBy move then 1 else 0) := by
  cases move with
  | post _ | take _ | act _ | read => cases d <;> exact h
  | hurry => exact absurd rfl hhurry
  | pause | resume => rcases hkind with hkind | hkind <;> cases hkind
  | issue now =>
    obtain ⟨-, rfl, -, hdue⟩ := hallowed
    cases d with
    | instruction => exact h.meet hdue (hlatest.2 .instruction)
    | timers => exact h
  | count now =>
    obtain ⟨-, rfl, hdue⟩ := hallowed
    cases d with
    | instruction => exact h
    | timers => exact h.meet hdue (hlatest.2 .timers)

/-- As long as the readings of the clock are within a period of the start, a deadline that
was set then is met once at most. -/
theorem met_moveAll (hallowed : p.AllowsAll latest moves)
    (hkinds : ∀ move ∈ moves, move.isInput = true ∨ move.isTiming = true)
    (hhurry : .hurry ∉ moves) (hlatest : p.Within start latest)
    (hreads : ∀ first, first ++ [.read] <+: moves → p.Within start (p.moveAll first).now)
    (h : Met start (p.period d) (p.due d) times) :
    Met start (p.period d) ((p.moveAll moves).due d) (times + moves.countP d.isMetBy) := by
  induction moves generalizing p latest times with
  | nil => exact h
  | cons move rest ih =>
    obtain ⟨hmove, hrest⟩ := hallowed
    obtain ⟨hkind, hkinds⟩ := List.forall_mem_cons.mp hkinds
    rw [List.mem_cons, not_or] at hhurry
    have hperiod : (p.move move).Within start = p.Within start := by
      funext now
      simp only [Within, period_move]
    have hnext := met_move hmove hkind (Ne.symm hhurry.1) hlatest h
    rw [← period_move p move] at hnext ⊢
    rw [List.countP_cons, Nat.add_comm (rest.countP _), ← Nat.add_assoc]
    refine ih hrest hkinds hhurry.2 ?_ ?_ hnext
    · rw [hperiod]
      cases move with
      | read => exact hreads [] ⟨rest, rfl⟩
      | hurry => exact absurd rfl hhurry.1
      | pause | resume => rcases hkind with hkind | hkind <;> cases hkind
      | post _ | take _ | act _ | issue _ | count _ => exact hlatest
    · intro first hfirst
      rw [hperiod]
      exact hreads (move :: first) (List.cons_prefix_cons.mpr ⟨rfl, hfirst⟩)

end Within

section Count

variable [Add τ] [LE τ] [DecidableLE τ]

omit [Clock κ τ] in
/-- Issuing an instruction leaves the deadline for the timers alone. -/
theorem nextTimer_issue (now : τ) (p : Pacer κ τ) :
    (after (Pacing.issue now) p).nextTimer = p.nextTimer := by
  rw [after_issue]
  by_cases hdue : Pacing.Due p now
  · rw [if_pos hdue, Pacing.after_step]
  · rw [if_neg hdue]

omit [Clock κ τ] in
/-- Deadlines that are met let the timers take a step if that is due. -/
theorem countP_deadlineMoves {now : τ}
    (hmeet : (Pacing.meetDeadlines now : Pacing κ τ Unit) p = .ok () q) (hdue : p.nextTimer ≤ now) :
    1 ≤ (deadlineMoves now p).countP Move.isCount := by
  have hnext := nextTimer_issue now p
  rw [Pacing.meetDeadlines_run] at hmeet
  rw [deadlineMoves, List.countP_append]
  rw [after] at hnext
  rcases hissue : (Pacing.issue now : Pacing κ τ Unit) p with ⟨_, r⟩ | ⟨error, r⟩
  · rw [hissue] at hnext
    have hpassed : r.nextTimer ≤ now := hnext ▸ hdue
    simp only [countMoves, if_pos hpassed]
    exact Nat.le_add_left 1 _
  · rw [hissue] at hmeet
    cases hmeet

/-- A tick that leaves the machine running lets the timers take a step if that is due when
the clock is read. -/
theorem countP_tickMoves (hqueue : p.Uncontrolled) (hgoing : p.paused = false)
    (htick : (Pacing.tick : Pacing κ τ Bool) p = .ok true q)
    (hreads : ∀ first, first ++ [.read] <+: p.tickMoves → p.nextTimer ≤ (p.moveAll first).now) :
    1 ≤ p.tickMoves.countP Move.isCount := by
  have hevents := isInput_drainMoves hqueue p
  have hturn := turn p
  rw [htick] at hturn
  generalize hresult : (EStateM.Result.ok true q : EStateM.Result Error (Pacer κ τ) Bool) =
    result at hturn
  generalize p.tickMoves = moves at hturn hreads ⊢
  cases hturn with
  | halted _ | refused _ _ | stopped _ _ _ | failed _ _ _ _ _ => cases hresult
  | paused _ hdrain _ hpaused =>
    have hkept := (frozen_moveAll (p := p) hevents).paused
    rw [moveAll_of_drain hdrain, hpaused, hgoing] at hkept
    cases hkept
  | @met s r _ hdrain _ _ hmeet =>
    have hkept := (frozen_moveAll (p := p) hevents).nextTimer
    have hdue := hreads (drainMoves p.queue p) (by simp)
    rw [moveAll_of_drain hdrain] at hkept hdue
    rw [← hkept] at hdue
    rw [List.countP_append, List.countP_cons_of_neg (by rintro ⟨⟩)]
    exact Nat.le_add_left_of_le (countP_deadlineMoves (p := s.timed) hmeet hdue)

end Count

section Runs

variable [Add τ] [LE τ] [DecidableLE τ]

/-- A tick is not refused and leaves the machine running. -/
def Runs (p : Pacer κ τ) : Prop := ∃ q, (Pacing.tick : Pacing κ τ Bool) p = .ok true q

instance (p : Pacer κ τ) : Decidable p.Runs :=
  match htick : (Pacing.tick : Pacing κ τ Bool) p with
  | .ok true q => isTrue ⟨q, htick⟩
  | .ok false q => isFalse fun ⟨_, hruns⟩ => by cases htick.symm.trans hruns
  | .error error q => isFalse fun ⟨_, hruns⟩ => by cases htick.symm.trans hruns

end Runs

section Early

variable [Add τ] [Preorder τ] [DecidableLE τ] {start : τ} {operations : List Operation}

/-- A run from `p` without controls, and without the end of a wait, that takes place within
a period of the time `start` that both deadlines are set to. -/
structure Early (p : Pacer κ τ) (start : τ) (operations : List Operation) : Prop where
  due : ∀ d, p.due d = start
  latest : p.Within start start
  going : p.paused = false
  queue : p.Uncontrolled
  input : ∀ operation ∈ operations, operation.isInput = true
  settled : .hurry ∉ p.course operations
  reads : ∀ moves, moves ++ [.read] <+: p.course operations →
    p.Within start (p.moveAll moves).now

namespace Early

/-- At any moment of such a run, each deadline was met once at most. -/
theorem met (h : p.Early start operations) (hmoves : moves <+: p.course operations) (d : Deadline) :
    Met start (p.period d) ((p.moveAll moves).due d) (moves.countP d.isMetBy) := by
  have hpaced : ∀ operation ∈ operations, operation.direct = false := fun operation hmem =>
    Operation.direct_of_isInput (h.input operation hmem)
  have hallowed : p.AllowsAll start moves := (allowsAll_course start hpaced).of_isPrefix hmoves
  have hkinds : ∀ move ∈ moves, move.isInput = true ∨ move.isTiming = true := fun move hmove =>
    (kinds_course h.queue h.input move (hmoves.subset hmove)).imp_right And.right
  have hnone : Met start (p.period d) (p.due d) 0 := by
    rw [h.due d]
    exact .never
  have hmet := met_moveAll hallowed hkinds (fun hhurry => h.settled (hmoves.subset hhurry))
    h.latest (fun first hfirst => h.reads first (hfirst.trans hmoves)) hnone
  rwa [Nat.zero_add] at hmet

/-- One instruction is issued at most. -/
theorem countP_isStep_le_one (h : p.Early start operations) :
    (actions (p.course operations)).countP Processor.Action.isStep ≤ 1 := by
  rw [(paired_course h.queue h.input).steps]
  exact (h.met (List.prefix_refl _) .instruction).le_one

/-- With a tick that leaves the machine running, the timers take one step. -/
theorem countP_isCountDown_eq_one (h : p.Early start operations)
    {before rest : List Operation} (hsplit : operations = before ++ .tick :: rest)
    (hruns : (p.performAll before).Runs) :
    (actions (p.course operations)).countP Processor.Action.isCountDown = 1 := by
  obtain ⟨q, htick⟩ := hruns
  rw [(paired_course h.queue h.input).countDowns]
  have hinput := h.input
  rw [hsplit, List.forall_mem_append] at hinput
  have hcourse : p.course operations =
      p.course before ++ ((p.performAll before).tickMoves ++ q.course rest) := by
    have hq : (p.performAll before).perform .tick = q := by rw [perform, after, htick]
    rw [hsplit, course_append, course, hq, moves]
  have hmoves : p.course before <+: p.course operations := ⟨_, hcourse.symm⟩
  have hgoing : (p.performAll before).paused = false := by
    rw [← moveAll_course, paused_moveAll, h.going]
    exact fun move hmove =>
      (kinds_course h.queue h.input move (hmoves.subset hmove)).imp_right And.right
  refine Nat.le_antisymm (h.met (List.prefix_refl _) .timers).le_one ?_
  have hmet := h.met hmoves .timers
  rw [moveAll_course] at hmet
  rw [hcourse, List.countP_append, List.countP_append]
  generalize htimes : (p.course before).countP Move.isCount = times
  generalize hdue : (p.performAll before).due .timers = due at hmet
  rw [Deadline.isMetBy, htimes] at hmet
  -- the deadline was met before this tick, or it is where it was set and the tick meets it
  cases hmet with
  | once => exact Nat.le_add_right 1 _
  | never =>
    have hcount : 1 ≤ (p.performAll before).tickMoves.countP Move.isCount := by
      refine countP_tickMoves (h.queue.performAll hinput.1) hgoing htick fun first hfirst => ?_
      have hread := h.reads (p.course before ++ first) (by
        rw [hcourse, List.append_assoc]
        exact (List.prefix_append_right_inj _).mpr (hfirst.trans (List.prefix_append _ _)))
      rw [moveAll_append, moveAll_course] at hread
      exact hdue.le.trans hread.1
    omega

end Early

end Early

section Pause

variable [AddCommGroup τ] [LinearOrder τ] [IsOrderedAddMonoid τ] {operations : List Operation}

/-- A run that begins with going on is within a period when its readings are before the
earlier one of the two next deadlines. -/
theorem early_resume (hclock : Monotone (Clock.reading p.clock)) (hinstruction : 0 < p.clockPeriod)
    (htimers : 0 < p.timerPeriod) (hqueue : p.Uncontrolled)
    (hinput : ∀ operation ∈ operations, operation.isInput = true)
    (hsettled : .hurry ∉ p.resume.course operations)
    (hreads : ∀ moves, moves ++ [.read] <+: p.resume.course operations →
      (p.resume.moveAll moves).now < p.now + min p.clockPeriod p.timerPeriod) :
    p.resume.Early p.now operations where
  due := by
    intro d
    cases d <;> rfl
  latest := by
    refine ⟨le_refl _, fun d => lt_add_of_pos_right _ ?_⟩
    cases d with
    | instruction => exact hinstruction
    | timers => exact htimers
  going := rfl
  queue := hqueue
  input := hinput
  settled := hsettled
  reads := by
    intro moves hmoves
    have hforward : p.Forward p.now := ⟨hclock, le_refl _⟩
    have hnow : (p.resume.moveAll moves).Forward p.now := (hforward.move .resume).moveAll moves
    refine ⟨hnow.latest_le, fun d => (hreads moves hmoves).trans_le (add_le_add_right ?_ _)⟩
    cases d with
    | instruction => exact min_le_left _ _
    | timers => exact min_le_right _ _

/-- **A pause freezes the machine, and going on forgets it.** Take a machine that can be
reached and has not halted, in a pacer that is paused with no control queued, and any run in
which nothing happens but that ticks are made and events posted that are no controls. A tick
that is not refused says that the machine is running, and at any moment the program, the timers
and the deadline for the timers are what they were. The byte registers and the wait change only
by a press that ends the wait, and the deadline for instructions only right after that.

Going on then sets both deadlines to the time of the clock. As long as the readings are less
than the shorter period after that time, and no wait ends, the processor takes at most one step,
and with a tick the timers take exactly one: a timer that nothing is stored to meanwhile then
shows one less, unless it showed zero. -/
theorem frozen_course (hreach : Processor.Reachable p.processor) (hpaused : p.paused = true)
    (hlive : p.halted = false) (hqueue : p.Uncontrolled)
    (hinput : ∀ operation ∈ operations, operation.isInput = true) :
    (∀ before rest running q, operations = before ++ .tick :: rest →
      (Pacing.tick : Pacing κ τ Bool) (p.performAll before) = .ok running q → running = true) ∧
    (∀ moves, moves <+: p.course operations → p.Frozen (p.moveAll moves)) ∧
    (∀ moves move, moves ++ [move] <+: p.course operations →
      let q := p.moveAll moves
      (((q.move move).machine.registers.v = q.machine.registers.v ∧
        (q.move move).machine.waiting = q.machine.waiting) ∨ q.EndsWait move) ∧
      ((q.move move).nextClock = q.nextClock ∨
        (move = .hurry ∧ (q.move move).nextClock = q.now ∧
          ∃ first press, moves = first ++ [press] ∧ (p.moveAll first).EndsWait press))) ∧
    (Monotone (Clock.reading p.clock) → 0 < p.clockPeriod → 0 < p.timerPeriod →
      let start := (p.performAll operations).now
      let r := (p.performAll operations).resume
      r.nextClock = start ∧ r.nextTimer = start ∧
      ∀ later : List Operation, (∀ operation ∈ later, operation.isInput = true) →
        .hurry ∉ r.course later →
        (∀ moves, moves ++ [.read] <+: r.course later →
          (r.moveAll moves).now < start + min p.clockPeriod p.timerPeriod) →
        (actions (r.course later)).countP Processor.Action.isStep ≤ 1 ∧
        (.tick ∈ later →
          (∀ before rest, later = before ++ .tick :: rest → (r.performAll before).Runs) →
          (actions (r.course later)).countP Processor.Action.isCountDown = 1 ∧
          ∀ t : Timer, t.stored r.processor (actions (r.course later)) = [] →
            (t.value (r.performAll later).machine).toNat = (t.value r.machine).toNat - 1)) := by
  have hinputs := isInput_course hpaused hqueue hinput
  have hfrozen (moves : List (Move τ)) (hmoves : moves <+: p.course operations) :
      p.Frozen (p.moveAll moves) :=
    frozen_moveAll fun move hmove => hinputs move (hmoves.subset hmove)
  refine ⟨?_, hfrozen, ?_, ?_⟩
  · intro before rest running q hsplit htick
    rw [hsplit, List.forall_mem_append] at hinput
    have hkept : p.Frozen (p.performAll before) := by
      rw [← moveAll_course]
      refine hfrozen _ ?_
      rw [hsplit, course_append]
      exact List.prefix_append _ _
    exact running_of_tick (hkept.paused.trans hpaused) (hkept.machine.halted.trans hlive)
      (hqueue.performAll hinput.1) htick
  · intro moves move hmoves
    exact endsWait_of_isPrefix hreach.bounded hinputs hinput hmoves
  · intro hclock hinstruction htimers start r
    refine ⟨rfl, rfl, ?_⟩
    intro later hlater hsettled hreads
    have hmonotone : Monotone (Clock.reading (p.performAll operations).clock) := by
      have hforward : p.Forward p.now := ⟨hclock, le_refl _⟩
      rw [← moveAll_course]
      exact (hforward.moveAll _).monotone
    have hperiod (d : Deadline) : (p.performAll operations).period d = p.period d := by
      rw [← moveAll_course, period_moveAll]
    have hclockPeriod : (p.performAll operations).clockPeriod = p.clockPeriod :=
      hperiod .instruction
    have htimerPeriod : (p.performAll operations).timerPeriod = p.timerPeriod :=
      hperiod .timers
    have hearly : r.Early start later := by
      refine early_resume hmonotone ?_ ?_ (hqueue.performAll hinput) hlater hsettled ?_
      · rwa [hclockPeriod]
      · rwa [htimerPeriod]
      · rwa [hclockPeriod, htimerPeriod]
    refine ⟨hearly.countP_isStep_le_one, ?_⟩
    intro htick hticks
    obtain ⟨before, rest, hsplit⟩ := List.append_of_mem htick
    have hone := hearly.countP_isCountDown_eq_one hsplit (hticks before rest hsplit)
    refine ⟨hone, fun t hstored => ?_⟩
    rw [Pacer.machine, processor_performAll, Timer.toNat_value_actAll hstored, hone]
    rfl

/-- `F10A` waits for a key when the machine is paused, and key `B` ends the wait. The pause
lasts for a thousand units of time; the two ticks after it step the timers once. -/
theorem frozen_course_of_key_wait :
    let machine : Machine :=
      { Machine.initial with
        memory := Memory.blank.store Memory.programStart [0xF1, 0x0A, 0x62, 0x05, 0x63, 0x06] }
    let clock : Timetable ℚ := ⟨fun n => if n < 3 then n else n + 1000, 0⟩
    let start : Pacer (Timetable ℚ) ℚ :=
      new (.ofMachine machine (.ofSource fun _ => 0) (.new false)) clock 4 5
    let p := start.performAll [.tick, .pause]
    let operations : List Operation :=
      [.tick, .post (.key 99 true), .tick, .post (.key 11 true), .tick, .post (.key 12 true), .tick]
    let q := p.performAll operations
    let later : List Operation := [.tick, .post (.key 3 true), .tick]
    q.machine.registers.v.get 1 = 11 ∧ q.nextClock = 2 ∧ q.machine.registers.pc = 0x202 ∧
    q.nextTimer = 5 ∧ q.resume.nextClock = 1003 ∧ q.resume.nextTimer = 1003 ∧
    (actions (q.resume.course later)).countP Processor.Action.isStep ≤ 1 ∧
    (actions (q.resume.course later)).countP Processor.Action.isCountDown = 1 := by
  intro machine clock start p operations q later
  have hload : Machine.ofProgram [0xF1, 0x0A, 0x62, 0x05, 0x63, 0x06] = .ok machine :=
    Machine.ofProgram_of_le (by decide)
  have hstart : Processor.Reachable start.processor := .start hload _ _
  have hreach : Processor.Reachable p.processor := reachable_performAll hstart _
  have hreading : Monotone clock.reading := by
    refine monotone_nat_of_le_succ fun n => ?_
    show (if n < 3 then (n : ℚ) else n + 1000) ≤ if n + 1 < 3 then ((n + 1 : ℕ) : ℚ) else _
    push_cast
    split_ifs <;> linarith
  have hforward : start.Forward start.now :=
    ⟨Clock.monotone_reading_read (Timetable.monotone_reading hreading), le_refl _⟩
  have hclock : Monotone (Clock.reading p.clock) := by
    have hmoves := (hforward.moveAll (start.course [.tick, .pause])).monotone
    rwa [moveAll_course] at hmoves
  have hinput : ∀ operation ∈ operations, operation.isInput = true := by decide
  have hlater : ∀ operation ∈ later, operation.isInput = true := by decide
  -- the facts are computed together, for the machine is the same in all of them
  obtain ⟨hpaused, hlive, hempty, hclockPeriod, htimerPeriod, hpc, hnextTimer, hv, hnextClock,
      hnow, hnone, hend, hfirst, hsecond⟩ :
      p.paused = true ∧ p.halted = false ∧ p.queue = [] ∧ p.clockPeriod = 4 ∧ p.timerPeriod = 5 ∧
      p.machine.registers.pc = 0x202 ∧ p.nextTimer = 5 ∧
      q.machine.registers.v.get 1 = 11 ∧ q.nextClock = 2 ∧ q.now = 1003 ∧
      (∀ move ∈ q.resume.course later, (match move with | .hurry => false | _ => true) = true) ∧
      (q.resume.performAll later).now = 1006 ∧
      q.resume.Runs ∧ (q.resume.performAll [.tick, .post (.key 3 true)]).Runs := by
    decide +kernel
  have hqueue : p.Uncontrolled := by
    rw [Uncontrolled, hempty]
    exact List.forall_mem_nil _
  obtain ⟨-, hfrozen, -, hresume⟩ := frozen_course hreach hpaused hlive hqueue hinput
  have hkept := hfrozen _ (List.prefix_refl _)
  have hforward : p.Forward p.now := ⟨hclock, le_refl _⟩
  have hmonotone := (hforward.moveAll (p.course operations)).monotone
  have hq : p.performAll operations = q := rfl
  rw [moveAll_course, hq] at hkept hmonotone
  rw [hclockPeriod, htimerPeriod, hq] at hresume
  clear_value q p
  obtain ⟨hstartClock, hstartTimer, hrest⟩ := hresume hclock (by norm_num) (by norm_num)
  have hreads (moves : List (Move ℚ)) (hmoves : moves ++ [.read] <+: q.resume.course later) :
      (q.resume.moveAll moves).now < q.now + min 4 5 := by
    obtain ⟨rest, hcourse⟩ := hmoves
    have hresumed : q.resume.Forward q.now := Forward.move ⟨hmonotone, le_refl _⟩ .resume
    have hread : (q.resume.moveAll moves).Forward (q.resume.moveAll moves).now :=
      ⟨(hresumed.moveAll moves).monotone, le_refl _⟩
    have hle := (hread.moveAll ([.read] ++ rest)).latest_le
    rw [← moveAll_append, ← List.append_assoc, hcourse, moveAll_course, hend] at hle
    rw [hnow]
    exact hle.trans_lt (by norm_num)
  have hticks (before rest : List Operation) (hsplit : later = before ++ .tick :: rest) :
      (q.resume.performAll before).Runs := by
    rcases before with _ | ⟨_, _ | ⟨_, _ | ⟨_, before⟩⟩⟩
    · exact hfirst
    · simp [later] at hsplit
    · obtain ⟨rfl, rfl, -⟩ : _ ∧ _ ∧ _ := by simpa [later] using hsplit
      exact hsecond
    · simp [later] at hsplit
  have hsettled : .hurry ∉ q.resume.course later := fun hmem =>
    Bool.false_ne_true (hnone _ hmem)
  obtain ⟨hsteps, hcounts⟩ := hrest later hlater hsettled hreads
  exact ⟨hv, hnextClock, hkept.machine.pc.trans hpc, hkept.nextTimer.trans hnextTimer,
    hstartClock.trans hnow, hstartTimer.trans hnow, hsteps,
    (hcounts List.mem_cons_self hticks).1⟩

end Pause

end Pacer

end ChipEight
