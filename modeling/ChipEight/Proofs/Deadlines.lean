import Mathlib.Algebra.Order.Floor.Ring
import Mathlib.Data.Rat.Floor
import Mathlib.Order.Monotone.Basic
import Mathlib.Tactic.Linarith
import ChipEight.Proofs.Allowed

/-!
# Deadlines

A deadline is set to the time that the clock shows, and each time it is met it moves
on by its period. An account says what has happened to a deadline: the reading that
it was last set to, and the readings at which it was met since then. Both can be read
off the course of a run without looking at the deadline.

The law is that accounts balance (`Pacer.Account.Balanced`): the deadline is as many
periods after its start as it was met since then, and it was never met before it had
passed. So with clocks that do not go back it was not met more often than its periods
fit into the time since its start, and once more. This is an induction over
allowed moves, and the three moves that set or meet a deadline are the only ones
where something happens.
-/

namespace ChipEight

/-! ## Clocks that do not go back -/

namespace Clock

variable {κ τ : Type} [Clock κ τ]

/-- The readings of a clock, one after the other. -/
def reading (clock : κ) : Nat → τ
  | 0 => (read clock).1
  | n + 1 => reading (read clock).2 n

theorem monotone_reading_read [Preorder τ] {clock : κ} (h : Monotone (reading clock)) :
    Monotone (reading (read clock).2) := fun _ _ hle => h (Nat.succ_le_succ hle)

end Clock

/-- A clock that every reading moves on does not go back. -/
theorem HandClock.monotone_reading {τ : Type} [AddMonoid τ] [Preorder τ] [AddLeftMono τ]
    {c : HandClock τ} (h : 0 ≤ c.drift) : Monotone (Clock.reading c) := by
  refine monotone_nat_of_le_succ fun n => ?_
  induction n generalizing c with
  | zero => exact le_add_of_nonneg_right h
  | succ n ih => exact ih h

/-- A clock whose readings are given beforehand does not go back if they do not. -/
theorem Timetable.monotone_reading {τ : Type} [Preorder τ] {c : Timetable τ}
    (h : Monotone c.reading) : Monotone (Clock.reading c) := by
  have hreading (n : Nat) : Clock.reading c n = c.reading (c.made + n) := by
    induction n generalizing c with
    | zero => rfl
    | succ n ih =>
      have hlater := ih (c := { c with made := c.made + 1 }) h
      rwa [Nat.add_assoc, Nat.add_comm 1 n] at hlater
  intro m n hle
  rw [hreading, hreading]
  exact h (Nat.add_le_add_left hle _)

namespace Pacer

/-! ## Accounts -/

/-- The two deadlines of a pacer. -/
inductive Deadline where
  /-- for the next instruction -/
  | instruction
  /-- for the next step of the timers -/
  | timers

/-- What has happened to a deadline. -/
structure Account (τ : Type) where
  /-- the reading of the clock that the deadline was last set to -/
  start : τ
  /-- the readings at which it was met since then, in order -/
  met : List τ
  deriving DecidableEq

namespace Account

variable {τ : Type}

/-- The account of a deadline that was just set to a reading. -/
def opened (now : τ) : Account τ := ⟨now, []⟩

/-- The account after the deadline was met once more. -/
def meet (a : Account τ) (now : τ) : Account τ := { a with met := a.met ++ [now] }

variable [Field τ] [LinearOrder τ]

/-- An account balances, given when the deadline passes, its period and the latest
reading of the clock. -/
structure Balanced (a : Account τ) (due period latest : τ) : Prop where
  due_eq : due = a.start + a.met.length * period
  le_met : ∀ i (_ : i < a.met.length), a.start + i * period ≤ a.met[i]
  met_le : ∀ now ∈ a.met, now ≤ latest
  start_le : a.start ≤ latest

namespace Balanced

variable {a : Account τ} {due period latest now : τ}

theorem opened (now period : τ) : (Account.opened now).Balanced now period now where
  due_eq := by
    have hnone : (Account.opened now).met.length = 0 := rfl
    rw [hnone, Nat.cast_zero, zero_mul, add_zero]
    rfl
  le_met := fun i hi => absurd hi (Nat.not_lt_zero i)
  met_le := fun _ hmem => absurd hmem List.not_mem_nil
  start_le := le_refl now

/-- Meeting a deadline that has passed keeps the balance when the deadline moves on
by its period. -/
theorem meet (h : a.Balanced due period latest) (hdue : due ≤ latest) :
    (a.meet latest).Balanced (due + period) period latest where
  due_eq := by
    have hlength : (a.meet latest).met.length = a.met.length + 1 := List.length_append
    rw [hlength, h.due_eq, Nat.cast_succ, add_mul, one_mul, add_assoc]
    rfl
  le_met := by
    intro i hi
    change i < (a.met ++ [latest]).length at hi
    show a.start + i * period ≤ (a.met ++ [latest])[i]
    by_cases hlast : i < a.met.length
    · rw [List.getElem_append_left hlast]
      exact h.le_met i hlast
    · have hend : i = a.met.length := by
        rw [List.length_append, List.length_singleton] at hi
        omega
      rw [List.getElem_append_right (Nat.le_of_not_lt hlast), List.getElem_singleton, hend,
        ← h.due_eq]
      exact hdue
  met_le := by
    intro now hmem
    rcases List.mem_append.mp hmem with hbefore | hlast
    · exact h.met_le now hbefore
    · rw [List.mem_singleton.mp hlast]
  start_le := h.start_le

theorem mono {later : τ} (h : a.Balanced due period latest) (hlater : latest ≤ later) :
    a.Balanced due period later where
  due_eq := h.due_eq
  le_met := h.le_met
  met_le := fun now hmem => (h.met_le now hmem).trans hlater
  start_le := h.start_le.trans hlater

/-- A deadline is met as often as its periods fit into the time since its start, and
once more, but not more often. -/
theorem length_met_le [IsStrictOrderedRing τ] [FloorRing τ] (h : a.Balanced due period latest)
    (hperiod : 0 < period) : (a.met.length : ℤ) ≤ ⌊(latest - a.start) / period⌋ + 1 := by
  rcases hlength : a.met.length with _ | n
  · have hstart : 0 ≤ (latest - a.start) / period :=
      div_nonneg (sub_nonneg.mpr h.start_le) hperiod.le
    have hfloor : 0 ≤ ⌊(latest - a.start) / period⌋ := Int.floor_nonneg.mpr hstart
    omega
  · have hlast : n < a.met.length := by omega
    have hle : a.start + n * period ≤ latest :=
      (h.le_met n hlast).trans (h.met_le _ (List.getElem_mem hlast))
    have hfit : (n : τ) ≤ (latest - a.start) / period := by
      rw [le_div_iff₀ hperiod]
      linarith
    have hfloor : (n : ℤ) ≤ ⌊(latest - a.start) / period⌋ := by
      rw [Int.le_floor, Int.cast_natCast]
      exact hfit
    omega

end Balanced

end Account

section Accounts

variable {κ τ : Type}

/-- When a deadline passes. -/
def due (p : Pacer κ τ) : Deadline → τ
  | .instruction => p.nextClock
  | .timers => p.nextTimer

/-- By how much a deadline moves on when it is met. -/
def period (p : Pacer κ τ) : Deadline → τ
  | .instruction => p.clockPeriod
  | .timers => p.timerPeriod

variable [Clock κ τ]

/-- The account of a deadline after a move. Going on after a pause sets both
deadlines to the time of the clock, the end of a wait only the one for
instructions. -/
def accountAfter (p : Pacer κ τ) (d : Deadline) (a : Account τ) : Move τ → Account τ
  | .resume => .opened p.now
  | .hurry => match d with
    | .instruction => .opened p.now
    | .timers => a
  | .issue now => match d with
    | .instruction => a.meet now
    | .timers => a
  | .count now => match d with
    | .instruction => a
    | .timers => a.meet now
  | .post _ | .take _ | .act _ | .pause | .read => a

/-- The account of a deadline after a sequence of moves. -/
def accountAll [Add τ] (p : Pacer κ τ) (d : Deadline) (a : Account τ) : List (Move τ) → Account τ
  | [] => a
  | move :: rest => (p.move move).accountAll d (p.accountAfter d a move) rest

theorem period_move [Add τ] (p : Pacer κ τ) (move : Move τ) (d : Deadline) :
    (p.move move).period d = p.period d := by
  cases move <;> rfl

/-- The periods never change. -/
theorem period_moveAll [Add τ] (p : Pacer κ τ) (moves : List (Move τ)) (d : Deadline) :
    (p.moveAll moves).period d = p.period d := by
  induction moves generalizing p with
  | nil => rfl
  | cons move rest ih => rw [moveAll_cons, ih, period_move]

end Accounts

/-! ## Runs -/

section Readings

variable {κ τ : Type} [Clock κ τ] [Preorder τ]

/-- The clock of a pacer does not go back, and has not. -/
structure Forward (p : Pacer κ τ) (latest : τ) : Prop where
  monotone : Monotone (Clock.reading p.clock)
  latest_le : latest ≤ p.now

variable {p : Pacer κ τ} {latest : τ}

/-- After a reading, the next one shows no earlier time. -/
theorem Forward.timed (h : p.Forward latest) : p.timed.Forward p.now where
  monotone := Clock.monotone_reading_read h.monotone
  latest_le := h.monotone (Nat.zero_le 1)

theorem Forward.move [Add τ] (h : p.Forward latest) (move : Move τ) :
    (p.move move).Forward (p.latestAfter latest move) := by
  cases move with
  | hurry => exact ⟨h.timed.monotone, h.timed.latest_le⟩
  | resume => exact ⟨h.timed.monotone, h.timed.latest_le⟩
  | read => exact h.timed
  | post event => exact ⟨h.monotone, h.latest_le⟩
  | take event => exact ⟨h.monotone, h.latest_le⟩
  | act action => exact ⟨h.monotone, h.latest_le⟩
  | pause => exact ⟨h.monotone, h.latest_le⟩
  | issue now => exact ⟨h.monotone, h.latest_le⟩
  | count now => exact ⟨h.monotone, h.latest_le⟩

theorem Forward.le_latestAfter [Add τ] (h : p.Forward latest) (move : Move τ) :
    latest ≤ p.latestAfter latest move := by
  cases move with
  | hurry | resume | read => exact h.latest_le
  | post _ | take _ | act _ | pause | issue _ | count _ => exact le_refl latest

/-- Moves do not take the clock back. -/
theorem Forward.moveAll [Add τ] (h : p.Forward latest) (moves : List (Move τ)) :
    (p.moveAll moves).Forward latest := by
  induction moves generalizing p with
  | nil => exact h
  | cons move rest ih =>
    have hnext := h.move move
    exact ih ⟨hnext.monotone, (h.le_latestAfter move).trans hnext.latest_le⟩

end Readings

section Runs

variable {κ τ : Type} [Clock κ τ] [Field τ] [LinearOrder τ] {p : Pacer κ τ} {latest : τ}

/-- An allowed move keeps the balance of both accounts. -/
theorem balanced_move {d : Deadline} {a : Account τ} {move : Move τ} (hforward : p.Forward latest)
    (hallowed : p.Allows latest move) (h : a.Balanced (p.due d) (p.period d) latest) :
    (p.accountAfter d a move).Balanced ((p.move move).due d) (p.period d)
      (p.latestAfter latest move) := by
  cases move with
  | resume =>
    cases d with
    | instruction => exact .opened _ _
    | timers => exact .opened _ _
  | hurry =>
    cases d with
    | instruction => exact .opened _ _
    | timers => exact h.mono hforward.latest_le
  | issue now =>
    obtain ⟨-, rfl, -, hdue⟩ := hallowed
    cases d with
    | instruction => exact h.meet hdue
    | timers => exact h
  | count now =>
    obtain ⟨-, rfl, hdue⟩ := hallowed
    cases d with
    | instruction => exact h
    | timers => exact h.meet hdue
  | read => exact h.mono hforward.latest_le
  | post event => exact h
  | take event => exact h
  | act action => exact h
  | pause => exact h

/-- Allowed moves keep the balance of both accounts. -/
theorem balanced_moveAll {d : Deadline} {a : Account τ} {moves : List (Move τ)}
    (hforward : p.Forward latest) (hallowed : p.AllowsAll latest moves)
    (h : a.Balanced (p.due d) (p.period d) latest) :
    (p.accountAll d a moves).Balanced ((p.moveAll moves).due d) (p.period d)
      (p.latestAll latest moves) := by
  induction moves generalizing p a latest with
  | nil => exact h
  | cons move rest ih =>
    obtain ⟨hmove, hrest⟩ := hallowed
    have hnext := balanced_move hforward hmove h
    rw [← period_move p move] at hnext ⊢
    exact ih (hforward.move move) hrest hnext

end Runs

/-! ## Ticks -/

section Ticks

variable {κ τ : Type}

/-- Whether a move has to do with meeting a deadline. -/
def Move.meets : Move τ → Bool
  | .issue _ | .count _ | .act .countDown => true
  | _ => false

/-- That moves meet each deadline at most once, and after everything else. Meeting the
one for instructions is one step of the processor, and meeting the other one is one
step of the timers, which take no others. -/
def MeetsOnce (moves : List (Move τ)) : Prop :=
  ∃ events issued counted, moves = events ++ issued ++ counted ∧
    (∀ move ∈ events, move.meets = false) ∧
    (issued = [] ∨ ∃ now, issued = [.issue now, .act .step]) ∧
    (counted = [] ∨ ∃ now, counted = [.count now, .act .countDown])

theorem meets_eventMoves (event : Event) (p : Pacer κ τ) :
    ∀ move ∈ p.eventMoves event, move.meets = false := by
  cases event with
  | key number isDown =>
    rw [eventMoves, List.forall_mem_cons]
    refine ⟨rfl, ?_⟩
    rcases Machine.keyEvent number isDown p.processor.machine with ⟨_ | _, _⟩ | ⟨_, _⟩
    · exact List.forall_mem_nil _
    · exact List.forall_mem_singleton.mpr rfl
    · exact List.forall_mem_nil _
  | control control =>
    cases control with
    | pause =>
      rw [eventMoves, toggleMoves]
      cases p.paused with
      | true => exact List.forall_mem_cons.mpr ⟨rfl, List.forall_mem_singleton.mpr rfl⟩
      | false => exact List.forall_mem_cons.mpr ⟨rfl, List.forall_mem_singleton.mpr rfl⟩
    | step =>
      rw [eventMoves]
      cases p.processor.machine.waiting with
      | true => exact List.forall_mem_nil _
      | false => exact List.forall_mem_singleton.mpr rfl
    | quit => exact List.forall_mem_cons.mpr ⟨rfl, List.forall_mem_singleton.mpr rfl⟩
  | foreign value => exact List.forall_mem_nil _

/-- Applying events meets no deadline. -/
theorem meets_drainMoves [Clock κ τ] (events : List Event) (p : Pacer κ τ) :
    ∀ move ∈ drainMoves events p, move.meets = false := by
  have hdrains := drains events p
  generalize (Pacing.applyAll events : Pacing κ τ Unit) p = result at hdrains
  generalize drainMoves events p = moves at hdrains ⊢
  induction hdrains with
  | done p => exact List.forall_mem_nil _
  | halted events hhalted => exact List.forall_mem_nil _
  | applies hrunning happly hrest ih =>
    rw [List.cons_append, List.forall_mem_cons, List.forall_mem_append]
    exact ⟨rfl, meets_eventMoves _ _, ih⟩
  | refuses hrunning happly =>
    rw [List.forall_mem_cons]
    exact ⟨rfl, meets_eventMoves _ _⟩

variable [Clock κ τ] [Add τ] [LE τ] [DecidableLE τ]

/-- A tick meets each deadline at most once. -/
theorem meetsOnce_tickMoves (p : Pacer κ τ) : MeetsOnce p.tickMoves := by
  have hevents := meets_drainMoves p.queue p
  have hturn := turn p
  generalize (Pacing.tick : Pacing κ τ Bool) p = result at hturn
  generalize p.tickMoves = moves at hturn ⊢
  cases hturn with
  | halted _ => exact ⟨[], [], [], rfl, List.forall_mem_nil _, .inl rfl, .inl rfl⟩
  | refused _ _ | stopped _ _ _ | paused _ _ _ _ =>
    exact ⟨_, [], [], by rw [List.append_nil, List.append_nil], hevents, .inl rfl, .inl rfl⟩
  | @met q _ _ _ _ _ _ | @failed q _ _ _ _ _ _ _ =>
    obtain ⟨issued, counted, hmoves, hissued, hcounted⟩ := exists_deadlineMoves_eq q.now q.timed
    refine ⟨drainMoves p.queue p ++ [.read], issued, counted, ?_, ?_, ?_, ?_⟩
    · rw [hmoves, List.append_assoc, List.append_assoc, List.singleton_append]
    · rw [List.forall_mem_append]
      exact ⟨hevents, List.forall_mem_singleton.mpr rfl⟩
    · exact hissued.imp_right fun h => ⟨_, h⟩
    · exact hcounted.imp_right fun h => ⟨_, h⟩

end Ticks

/-! ## The law -/

section Law

variable {κ τ : Type} [Clock κ τ] [Field τ] [LinearOrder τ] [IsStrictOrderedRing τ] [FloorRing τ]

/-- **Deadlines are kept.** Take a new pacer with positive periods and a clock that
does not go back, and any moment of any run of it. Each deadline is as many periods
after the reading that it was last set to as it was met since then; the `i`-th
meeting, counted from zero, was made with a reading of at least `i` periods after it;
and so a deadline was not met more often than its periods fit into the time that has
passed, and once more. And every tick meets each deadline at most once; meeting the one
for the timers lets each timer that is not zero show one less. -/
theorem deadlines_course {processor : Processor} {clock : κ} {clockPeriod timerPeriod : τ}
    {p : Pacer κ τ} (hp : p = new processor clock clockPeriod timerPeriod)
    (hclock : Monotone (Clock.reading clock)) (hinstruction : 0 < clockPeriod)
    (htimers : 0 < timerPeriod) {operations : List Operation}
    (hpaced : ∀ operation ∈ operations, operation.direct = false) :
    let start := (Clock.read clock).1
    (∀ moves, moves <+: p.course operations → ∀ d : Deadline,
      let a := p.accountAll d (.opened start) moves
      (p.moveAll moves).due d = a.start + a.met.length * p.period d ∧
      (∀ i (_ : i < a.met.length), a.start + i * p.period d ≤ a.met[i]) ∧
      (a.met.length : ℤ) ≤ ⌊(p.latestAll start moves - a.start) / p.period d⌋ + 1) ∧
    ∀ q : Pacer κ τ, MeetsOnce q.tickMoves ∧
      q.machine.CountedDown (q.move (.act .countDown)).machine := by
  intro start
  refine ⟨?_, fun q => ⟨meetsOnce_tickMoves q, q.machine.countedDown_countDown⟩⟩
  intro moves hmoves d a
  have hforward : p.Forward start := by
    rw [hp]
    exact ⟨Clock.monotone_reading_read hclock, hclock (Nat.zero_le 1)⟩
  have hallowed : p.AllowsAll start moves := (allowsAll_course start hpaced).of_isPrefix hmoves
  have hopened : (Account.opened start).Balanced (p.due d) (p.period d) start := by
    rw [hp]
    cases d with
    | instruction => exact .opened _ _
    | timers => exact .opened _ _
  have hperiod : 0 < p.period d := by
    rw [hp]
    cases d with
    | instruction => exact hinstruction
    | timers => exact htimers
  have hbalanced : a.Balanced ((p.moveAll moves).due d) (p.period d) (p.latestAll start moves) :=
    balanced_moveAll hforward hallowed hopened
  exact ⟨hbalanced.due_eq, hbalanced.le_met, hbalanced.length_met_le hperiod⟩

/-- A host that is too slow: between two ticks the clock moves on by two instructions
and three steps of the timers. The first instruction waits for a key, and the press
that comes sets the deadline for instructions to `3` and leaves the other one
alone. -/
theorem deadlines_course_of_key_wait :
    let machine : Machine :=
      { Machine.initial with
        memory := Memory.blank.store Memory.programStart [0xF1, 0x0A, 0x12, 0x02] }
    let clock : HandClock ℚ := ⟨0, 1⟩
    let start := (Clock.read clock).1
    let p : Pacer (HandClock ℚ) ℚ :=
      new (.ofMachine machine (.ofSource fun _ => 0) (.new false)) clock (1 / 2) (1 / 3)
    let operations : List Operation := [.tick, .tick, .post (.key 5 true), .tick, .tick]
    let q := p.performAll operations
    p.accountAll .instruction (.opened start) (p.course operations) = ⟨3, [4, 5]⟩ ∧
    p.accountAll .timers (.opened start) (p.course operations) = ⟨0, [1, 2, 4, 5]⟩ ∧
    q.nextClock = 3 + 2 * (1 / 2) ∧ q.nextTimer = 0 + 4 * (1 / 3) := by
  intro machine clock start p operations q
  have hclock : Monotone (Clock.reading clock) := HandClock.monotone_reading zero_le_one
  have hpaced : ∀ operation ∈ operations, operation.direct = false := by decide
  have hhalf : (0 : ℚ) < 1 / 2 := by norm_num
  have hthird : (0 : ℚ) < 1 / 3 := by norm_num
  -- the accounts are computed together, for the run is the same in both of them
  obtain ⟨hinstruction, htimers⟩ :
      p.accountAll .instruction (.opened start) (p.course operations) = ⟨3, [4, 5]⟩ ∧
      p.accountAll .timers (.opened start) (p.course operations) = ⟨0, [1, 2, 4, 5]⟩ := by
    decide +kernel
  have hp : p = new p.processor clock (1 / 2) (1 / 3) := rfl
  obtain ⟨hlaw, -⟩ := deadlines_course hp hclock hhalf hthird hpaced
  obtain ⟨hissue, -, -⟩ := hlaw _ (List.prefix_refl _) .instruction
  obtain ⟨hcount, -, -⟩ := hlaw _ (List.prefix_refl _) .timers
  rw [hinstruction, moveAll_course] at hissue
  rw [htimers, moveAll_course] at hcount
  refine ⟨hinstruction, htimers, hissue.trans ?_, hcount.trans ?_⟩
  · show (3 : ℚ) + ((2 : ℕ) : ℚ) * (1 / 2) = 3 + 2 * (1 / 2)
    rw [Nat.cast_ofNat]
  · show (0 : ℚ) + ((4 : ℕ) : ℚ) * (1 / 3) = 0 + 4 * (1 / 3)
    rw [Nat.cast_ofNat]

end Law

end Pacer

end ChipEight
