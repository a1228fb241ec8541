import ChipEight.Proofs.Deadlines
import ChipEight.Proofs.Uncontrolled
import ChipEight.Proofs.WriteSet

/-!
# What the timers show

Nothing but a store and a step of the timers touches a timer. So what it shows is settled
by two things: the value that it was last given, and how many steps the timers took since.
`Timer.account` reads both off the actions of a run, whatever else is among them
(`Timer.account_of_stored`), and the timer shows their difference, or zero once the steps
are the more (`Timer.Shows.actAll`).

The steps themselves come from the deadlines alone. They go on while a key is awaited,
and neither a single step nor any other event lets the timers take one.
-/

namespace ChipEight

/-- The two timers. -/
inductive Timer where
  | delay
  | sound

namespace Timer

/-- What a timer shows. -/
def value (t : Timer) (m : Machine) : UInt8 :=
  match t with
  | delay => m.registers.delay
  | sound => m.registers.sound

/-- The opcode that gives the timer a value. -/
def store : Timer → Opcode
  | delay => .setDelay
  | sound => .setSound

/-- The part of a machine that a timer is. -/
def part : Timer → Part
  | delay => .delay
  | sound => .sound

/-! ## Instructions -/

section Instructions

variable {t : Timer} {ins : Instruction} {byte : UInt8} {m m' : Machine}

/-- An instruction leaves a timer alone unless it is the one that stores to it. -/
theorem value_effect (hop : ins.opcode ≠ t.store) (heffect : ins.effect byte m = .ok m') :
    t.value m' = t.value m := by
  have hsame := Instruction.keeps_effect heffect t.part (by cases t <;> exact hop)
  cases t <;> exact hsame

/-- What is stored is the value of a register. -/
theorem value_effect_of_store (hop : ins.opcode = t.store)
    (heffect : ins.effect byte m = .ok m') : t.value m' = m.registers.v.get ins.x := by
  obtain ⟨word, opcode⟩ := ins
  obtain rfl : opcode = t.store := hop
  cases t with
  | delay =>
    obtain rfl := Except.ok.inj heffect
    rfl
  | sound =>
    obtain rfl := Except.ok.inj heffect
    rfl

/-- A step of the timers takes one off what a timer shows, unless it shows zero. -/
theorem toNat_value_countDown (t : Timer) (m : Machine) :
    (t.value m.countDown).toNat = (t.value m).toNat - 1 := by
  cases t with
  | delay => exact m.countedDown_countDown.delay
  | sound => exact m.countedDown_countDown.sound

theorem value_keyEvent (t : Timer) (m : Machine) (number : Int) (isDown : Bool) :
    t.value (after (Machine.keyEvent number isDown) m) = t.value m := by
  obtain ⟨v, keypad, h⟩ := m.after_keyEvent number isDown
  rw [h]
  cases t <;> rfl

end Instructions

/-! ## Actions -/

section Actions

variable {t : Timer} {p : Processor} {action : Processor.Action} {v : UInt8}

/-- The value that an action gives to a timer, if it completes a store to it. -/
def stored? (t : Timer) (p : Processor) (action : Processor.Action) : Option UInt8 :=
  match p.completedBy action with
  | some ins => if ins.opcode = t.store then some (p.machine.registers.v.get ins.x) else none
  | none => none

theorem value_act_of_stored (h : t.stored? p action = some v) :
    t.value (p.act action).machine = v := by
  rw [stored?] at h
  rcases hdone : p.completedBy action with _ | ins
  · rw [hdone] at h
    cases h
  · simp only [hdone] at h
    obtain rfl := Processor.eq_step_of_completedBy hdone
    obtain ⟨-, machine, heffect, hact⟩ := Processor.of_completedBy_eq_some hdone
    by_cases hop : ins.opcode = t.store
    · rw [if_pos hop] at h
      obtain rfl := Option.some.inj h
      rw [hact]
      exact value_effect_of_store hop heffect
    · rw [if_neg hop] at h
      cases h

/-- An action that completes no store leaves a timer alone, unless it is a step of the
timers. -/
theorem toNat_value_act (h : t.stored? p action = none) :
    (t.value (p.act action).machine).toNat =
      (t.value p.machine).toNat - if action.isCountDown then 1 else 0 := by
  cases action with
  | step =>
    rw [Processor.Action.isCountDown, if_neg Bool.false_ne_true, Nat.sub_zero]
    congr 1
    have hout := Processor.step_outcome p
    rw [stored?, Processor.completedBy] at h
    rw [Processor.act, after]
    generalize Processor.step p = result at hout h ⊢
    cases hout with
    | unavailable _ => rfl
    | halts _ => cases t <;> rfl
    | refused _ _ => rfl
    | @completes ins _ _ heffect =>
      have hop : ins.opcode ≠ t.store := by
        intro hop
        simp [hop] at h
      exact value_effect hop heffect
  | key number isDown => exact congrArg UInt8.toNat (t.value_keyEvent p.machine number isDown)
  | countDown => exact t.toNat_value_countDown p.machine
  | halt => cases t <;> rfl
  | log change => rfl

/-- The value that a timer was last given, and the steps of the timers since. -/
structure Account where
  value : Nat
  steps : Nat
  deriving DecidableEq

/-- The account after one more action. -/
def enter (t : Timer) (p : Processor) (account : Account) (action : Processor.Action) : Account :=
  match t.stored? p action with
  | some v => ⟨v.toNat, 0⟩
  | none => if action.isCountDown then { account with steps := account.steps + 1 } else account

/-- The account after a sequence of actions. -/
def account (t : Timer) : Processor → List Processor.Action → Account → Account
  | _, [], account => account
  | p, action :: rest, account => t.account (p.act action) rest (t.enter p account action)

/-- The values that a sequence of actions gives to a timer, in order. -/
def stored (t : Timer) : Processor → List Processor.Action → List UInt8
  | _, [] => []
  | p, action :: rest => (t.stored? p action).toList ++ t.stored (p.act action) rest

theorem account_append (first rest : List Processor.Action) (account : Account) :
    t.account p (first ++ rest) account =
      t.account (p.actAll first) rest (t.account p first account) := by
  induction first generalizing p account with
  | nil => rfl
  | cons action first ih => exact ih _

/-- As long as nothing is stored, the steps of the timers are counted. -/
theorem account_of_not_stored {actions : List Processor.Action}
    (h : t.stored p actions = []) (account : Account) : t.account p actions account =
      { account with steps := account.steps + actions.countP Processor.Action.isCountDown } := by
  induction actions generalizing p account with
  | nil => rfl
  | cons action rest ih =>
    obtain ⟨hfirst, hrest⟩ := List.append_eq_nil_iff.mp h
    have hnone : t.stored? p action = none := by simpa using hfirst
    rw [Timer.account, ih hrest, enter, hnone, List.countP_cons]
    by_cases hcount : action.isCountDown = true
    · simp only [if_pos hcount]
      rw [Nat.add_assoc, Nat.add_comm 1]
    · simp only [if_neg hcount, Nat.add_zero]

/-- What was stored last is the value, and the steps of the timers are counted from there. -/
theorem account_of_stored {before later : List Processor.Action}
    (hstored : t.stored? (p.actAll before) action = some v)
    (hlater : t.stored ((p.actAll before).act action) later = []) (account : Account) :
    t.account p (before ++ action :: later) account =
      ⟨v.toNat, later.countP Processor.Action.isCountDown⟩ := by
  rw [account_append, Timer.account, account_of_not_stored hlater, enter, hstored]
  simp only [Nat.zero_add]

/-- A timer shows the value that it was last given less the steps since, or zero. -/
def Shows (t : Timer) (m : Machine) (account : Account) : Prop :=
  (t.value m).toNat = account.value - account.steps

/-- Every action keeps a timer and its account in line. -/
theorem Shows.act {account : Account} (h : t.Shows p.machine account)
    (action : Processor.Action) : t.Shows (p.act action).machine (t.enter p account action) := by
  rw [Shows] at h
  rw [Shows, enter]
  rcases hstored : t.stored? p action with _ | v
  · rw [toNat_value_act hstored, h]
    by_cases hcount : action.isCountDown = true
    · simp only [if_pos hcount]
      exact Nat.sub_sub _ _ _
    · simp only [if_neg hcount, Nat.sub_zero]
  · rw [value_act_of_stored hstored, Nat.sub_zero]

/-- So does a sequence of actions. -/
theorem Shows.actAll {account : Account} (h : t.Shows p.machine account)
    (actions : List Processor.Action) :
    t.Shows (p.actAll actions).machine (t.account p actions account) := by
  induction actions generalizing p account with
  | nil => exact h
  | cons action rest ih => exact ih (h.act action)

/-- As long as nothing is stored to it, a timer shows one less for each step of the timers. -/
theorem toNat_value_actAll {actions : List Processor.Action} (h : t.stored p actions = []) :
    (t.value (p.actAll actions).machine).toNat =
      (t.value p.machine).toNat - actions.countP Processor.Action.isCountDown := by
  have hstart : t.Shows p.machine ⟨(t.value p.machine).toNat, 0⟩ := rfl
  have hshows := hstart.actAll actions
  rw [account_of_not_stored h, Nat.zero_add] at hshows
  exact hshows

/-- A timer rises only by a store. -/
theorem value_act_le (h : t.stored? p action = none) :
    t.value (p.act action).machine ≤ t.value p.machine := by
  rw [UInt8.le_iff_toNat_le, toNat_value_act h]
  exact Nat.sub_le _ _

end Actions

/-- The timers of a machine that was just built show zero. -/
theorem shows_ofProgram {program : List UInt8} {machine : Machine}
    (hload : Machine.ofProgram program = .ok machine) (t : Timer) : t.Shows machine ⟨0, 0⟩ := by
  obtain ⟨memory, -, rfl⟩ := Machine.of_ofProgram_eq_ok hload
  cases t <;> rfl

end Timer

/-! ## Ticks -/

namespace Pacer

variable {κ τ : Type} [Clock κ τ]

/-- Events let the timers take no step. -/
theorem not_countDown_drainMoves (events : List Event) (p : Pacer κ τ) :
    .countDown ∉ actions (drainMoves events p) := by
  intro hmem
  obtain ⟨move, hmove, haction⟩ := List.mem_filterMap.mp hmem
  have hmeets := meets_drainMoves events p move hmove
  cases move with
  | act action =>
    obtain rfl := Option.some.inj haction
    cases hmeets
  | post _ | take _ | hurry | pause | resume | read | issue _ | count _ => cases haction

variable [Add τ] [LE τ] [DecidableLE τ]

theorem paused_meetDeadlines (now : τ) (p : Pacer κ τ) :
    (after (Pacing.meetDeadlines now) p).paused = p.paused := by
  rw [← moveAll_deadlineMoves]
  exact paused_moveAll fun move hmove => .inr (isTiming_deadlineMoves now p move hmove)

/-- In a tick that leaves the machine paused, the timers take no step. -/
theorem not_countDown_tickMoves {p : Pacer κ τ} (hpaused : (after Pacing.tick p).paused = true) :
    .countDown ∉ actions p.tickMoves := by
  have hevents := not_countDown_drainMoves p.queue p
  have hturn := turn p
  rw [after] at hpaused
  generalize (Pacing.tick : Pacing κ τ Bool) p = result at hturn hpaused
  generalize p.tickMoves = moves at hturn ⊢
  cases hturn with
  | halted _ => exact List.not_mem_nil
  | refused _ _ | stopped _ _ _ | paused _ _ _ _ => exact hevents
  | @met q _ _ _ _ hgoing hmeet | @failed q _ _ _ _ _ hgoing hmeet =>
    -- meeting the deadlines does not pause the machine
    have hkept := paused_meetDeadlines q.now q.timed
    rw [after, hmeet] at hkept
    rw [hkept.trans hgoing] at hpaused
    cases hpaused

/-- While a key is awaited, a tick in which the timers are due lets them take a step and
does nothing else to the machine. -/
theorem machine_tick_of_waiting {p q : Pacer κ τ} (hrunning : p.halted = false)
    (hdrain : (Pacing.drain : Pacing κ τ Unit) p = .ok () q) (hlive : q.halted = false)
    (hgoing : q.paused = false) (hwaiting : q.machine.waiting = true)
    (hdue : q.nextTimer ≤ q.now) : (after Pacing.tick p).machine = q.machine.countDown := by
  have hnot : ¬ Pacing.Due q.timed q.now := by
    rintro ⟨hidle, -⟩
    cases hwaiting.symm.trans hidle
  have hmeet : (Pacing.meetDeadlines q.now : Pacing κ τ Unit) q.timed =
      .ok () (Pacing.count q.timed q.now) := by
    rw [Pacing.meetDeadlines_run, Pacing.issue, if_neg hnot]
  have hcount : (Pacing.count q.timed q.now).machine = q.machine.countDown := by
    have htimed : q.timed.nextTimer ≤ q.now := hdue
    rw [Pacing.count, if_pos htimed]
    rfl
  rw [after, Pacing.tick_run]
  simp only [hrunning, hdrain, hlive, hgoing, hmeet, Bool.false_eq_true, if_false]
  exact hcount

/-- **What the timers show.** Start a pacer with any program. At every moment of every run,
each timer shows the value that it was last given less the steps of the timers since, or zero
once these are the more. It rises only by a store. While a key is awaited, a tick in which the
timers are due still lets it take a step, and in a tick that leaves the machine paused it
takes none, whatever single steps are made. -/
theorem shows_course {program : List UInt8} {machine : Machine}
    (hload : Machine.ofProgram program = .ok machine) (draws : Draws) (log : Log) (clock : κ)
    (clockPeriod timerPeriod : τ) (operations : List Operation) (t : Timer) :
    let p := new (.ofMachine machine draws log) clock clockPeriod timerPeriod
    (∀ moves, moves <+: p.course operations →
      t.Shows (p.moveAll moves).machine (t.account p.processor (actions moves) ⟨0, 0⟩)) ∧
    (∀ (r : Processor) (action : Processor.Action), t.stored? r action = none →
      t.value (r.act action).machine ≤ t.value r.machine) ∧
    (∀ r s : Pacer κ τ, r.halted = false → (Pacing.drain : Pacing κ τ Unit) r = .ok () s →
      s.halted = false → s.paused = false → s.machine.waiting = true → s.nextTimer ≤ s.now →
      (t.value (after Pacing.tick r).machine).toNat = (t.value s.machine).toNat - 1) ∧
    (∀ r : Pacer κ τ, (after Pacing.tick r).paused = true →
      .countDown ∉ actions r.tickMoves) := by
  intro p
  refine ⟨?_, fun r action => Timer.value_act_le, ?_, fun r => not_countDown_tickMoves⟩
  · intro moves _
    have hshows : t.Shows p.processor.machine ⟨0, 0⟩ := Timer.shows_ofProgram hload t
    rw [Pacer.machine, processor_moveAll]
    exact hshows.actAll _
  · intro r s hrunning hdrain hlive hgoing hwaiting hdue
    rw [machine_tick_of_waiting hrunning hdrain hlive hgoing hwaiting hdue]
    exact t.toNat_value_countDown s.machine

/-- `F015` stores a five, and `F10A` waits for a key; the delay timer runs on, unless the
machine is paused. -/
theorem shows_course_of_key_wait :
    let machine : Machine :=
      { Machine.initial with
        memory := Memory.blank.store Memory.programStart [0x60, 0x05, 0xF0, 0x15, 0xF1, 0x0A] }
    let p : Pacer (HandClock Nat) Nat :=
      new (.ofMachine machine (.ofSource fun _ => 0) (.new false)) ⟨0, 1⟩ 1 1
    let q := p.performAll [.tick, .tick, .tick, .tick]
    let paused := { q with paused := true, queue := [.control .step] }
    q.machine.waiting = true ∧ (Timer.delay.value q.machine).toNat = 2 ∧
      (Timer.delay.value (after Pacing.tick q).machine).toNat = 1 ∧
      Processor.Action.countDown ∉ actions paused.tickMoves := by
  intro machine p q paused
  have hload : Machine.ofProgram [0x60, 0x05, 0xF0, 0x15, 0xF1, 0x0A] = .ok machine :=
    Machine.ofProgram_of_le (by decide)
  obtain ⟨hshows, -, hticks, hpaused⟩ := shows_course hload (.ofSource fun _ => 0) (.new false)
    (⟨0, 1⟩ : HandClock Nat) 1 1 [.tick, .tick, .tick, .tick] .delay
  have hshows := hshows _ (List.prefix_refl _)
  rw [moveAll_course, Timer.Shows] at hshows
  -- the facts are computed together, for the machine is the same in all of them
  obtain ⟨haccount, hrunning, hgoing, hwaiting, hdue, hqueue, hstays⟩ :
      Timer.delay.account p.processor
        (actions (p.course [.tick, .tick, .tick, .tick])) ⟨0, 0⟩ = ⟨5, 3⟩ ∧
      q.halted = false ∧ q.paused = false ∧ q.machine.waiting = true ∧ q.nextTimer ≤ q.now ∧
      q.queue = [] ∧ (after Pacing.tick paused).paused = true := by
    decide +kernel
  have hvalue : (Timer.delay.value q.machine).toNat = 2 := by
    refine hshows.trans ?_
    rw [haccount]
    rfl
  have hdrain : (Pacing.drain : Pacing (HandClock Nat) Nat Unit) q = .ok () q := by
    rw [Pacing.drain_run, hqueue, Pacing.applyAll_nil]
  have htick := hticks q q hrunning hdrain hrunning hgoing hwaiting hdue
  rw [hvalue] at htick
  exact ⟨hwaiting, hvalue, htick, hpaused paused hstays⟩

end Pacer

end ChipEight
