import ChipEight.Proofs.Allowed
import ChipEight.Proofs.Bounds
import ChipEight.Proofs.Isolation

/-!
# Waiting for a key

While a key is awaited, no tick and no single step executes anything, and what
reaches the machine from outside is noted apart from the program: a release, a key
that does not exist, a step of the timers. So the program stands still until the
first press of a key that exists (`Pacer.agrees_moveAll_of_waiting`).

That press does three things at once, in three different places: the key goes to
the register that waits for it, the wait is over, and the next instruction is due
at the time that the clock shows. A press that comes later finds nothing that
waits, until another `Fx0A` is executed.
-/

namespace ChipEight

/-! ## Keys and registers by their numbers -/

theorem Keypad.cell_of_key {number : Int} {k : Fin 16} (h : key number = .ok k) :
    cell? number = some k := by
  rcases hcell : cell? number with _ | j
  · rw [key_of_no_cell hcell] at h
    cases h
  · rw [key_of_cell hcell] at h
    rw [Except.ok.inj h]

theorem Registers.index?_of_fin (x : Fin 16) : index? x.val = some x := by
  rw [index?, if_pos (Int.natCast_nonneg _)]
  exact cell?_eq_some_iff.mpr rfl

namespace Machine

variable {m : Machine}

/-- The register that a key goes to exists. -/
theorem Bounded.exists_register (h : m.Bounded) : ∃ x : Fin 16, m.keypad.register = x.val := by
  have hlow : 0 ≤ m.keypad.register := h.register_nonneg
  have hhigh : m.keypad.register ≤ 15 := h.register_le
  exact ⟨⟨m.keypad.register.toNat, by omega⟩, (Int.toNat_of_nonneg hlow).symm⟩

/-- A press that is awaited goes to the register that waits for it. -/
theorem keyEvent_of_waiting (k x : Fin 16) (hwaiting : m.waiting = true)
    (hregister : m.keypad.register = x.val) :
    keyEvent k.val true m = .ok true { m with
      registers := { m.registers with v := fill m.registers.v x (UInt8.ofNat k.val) }
      keypad := { m.keypad with down := fill m.keypad.down k true, waiting := false } } := by
  have hcell : Keypad.key k.val = .ok k := Keypad.key_of_cell (cell?_eq_some_iff.mpr rfl)
  have hindex : Registers.index? m.keypad.register = some x := by
    rw [hregister, Registers.index?_of_fin]
  have hout := keyEvent_outcome m k.val true
  generalize keyEvent k.val true m = result at hout ⊢
  cases hout with
  | unknown hkey =>
    rw [hcell] at hkey
    cases hkey
  | noted _ hidle =>
    rw [hwaiting] at hidle
    cases hidle
  | settled hkey _ _ hregister' =>
    rw [hcell] at hkey
    obtain rfl := Except.ok.inj hkey
    rw [hindex] at hregister'
    obtain rfl := Option.some.inj hregister'
    rfl
  | misdirected _ _ _ hregister' =>
    rw [hindex] at hregister'
    cases hregister'

/-- A key event that nothing waits for leaves the registers alone. -/
theorem registers_keyEvent_of_idle (hidle : m.waiting = false) (number : Int) (isDown : Bool) :
    (after (keyEvent number isDown) m).registers = m.registers := by
  have hout := keyEvent_outcome m number isDown
  rw [after]
  generalize keyEvent number isDown m = result at hout ⊢
  cases hout with
  | unknown _ => rfl
  | noted _ _ => rfl
  | settled _ _ hwaiting _ =>
    rw [hidle] at hwaiting
    cases hwaiting
  | misdirected _ _ _ _ => rfl

end Machine

/-! ## Actions -/

namespace Processor

/-- Whether an action is a press of a key that exists. -/
def Action.presses : Action → Bool
  | .key number isDown => isDown && (cell? number).isSome
  | .step | .countDown | .halt | .log _ => false

variable {p : Processor} {action : Action} {actions : List Action}

/-- Neither the program nor what it waits for is affected by anything but steps and
presses. -/
theorem agrees_act_of_not_presses (hstep : action ≠ .step) (hpress : action.presses = false) :
    (p.act action).Agrees p ∧
      (p.act action).machine.keypad.register = p.machine.keypad.register := by
  cases action with
  | step => exact absurd rfl hstep
  | key number isDown =>
    have hout := Machine.keyEvent_outcome p.machine number isDown
    rw [act, after]
    rw [Action.presses] at hpress
    generalize Machine.keyEvent number isDown p.machine = result at hout ⊢
    cases hout with
    | unknown _ => exact ⟨⟨rfl, rfl, rfl⟩, rfl⟩
    | noted _ _ => exact ⟨⟨rfl, rfl, rfl⟩, rfl⟩
    | settled hkey hdown _ _ =>
      rw [hdown, Keypad.cell_of_key hkey] at hpress
      cases hpress
    | misdirected hkey hdown _ _ =>
      rw [hdown, Keypad.cell_of_key hkey] at hpress
      cases hpress
  | countDown =>
    rw [act, Machine.countDown, Registers.decrementTimers]
    exact ⟨⟨rfl, rfl, rfl⟩, rfl⟩
  | halt => exact ⟨⟨rfl, rfl, rfl⟩, rfl⟩
  | log change => exact ⟨⟨rfl, rfl, rfl⟩, rfl⟩

/-- A wait begins with an instruction that waits for a key. -/
theorem waiting_act (hidle : p.machine.waiting = false)
    (hwait : ∀ ins ∈ p.completedBy action, ins.opcode ≠ .waitKey) :
    (p.act action).machine.waiting = false := by
  rcases hdone : p.completedBy action with _ | ins
  · exact (agrees_act_of_idle hidle hdone).waiting.trans hidle
  · obtain rfl := eq_step_of_completedBy hdone
    obtain ⟨-, machine, heffect, hact⟩ := of_completedBy_eq_some hdone
    have hkeypad : machine.keypad = p.machine.keypad :=
      Instruction.keypad_effect (hwait ins hdone) heffect
    rw [hact, Machine.waiting, hkeypad]
    exact hidle

theorem waiting_actAll (hidle : p.machine.waiting = false)
    (hwait : ∀ ins ∈ p.completed actions, ins.opcode ≠ .waitKey) :
    (p.actAll actions).machine.waiting = false := by
  induction actions generalizing p with
  | nil => exact hidle
  | cons action rest ih =>
    rw [completed] at hwait
    have hfirst : ∀ ins ∈ p.completedBy action, ins.opcode ≠ .waitKey := fun ins hins =>
      hwait ins (List.mem_append_left _ (Option.mem_toList.mpr hins))
    exact ih (waiting_act hidle hfirst) fun ins hins =>
      hwait ins (List.mem_append_right _ hins)

end Processor

/-! ## Runs -/

namespace Pacer

variable {κ τ : Type} [Clock κ τ]

/-- The pacer after the press of a key that ends a wait: the key is down, its number
is in the register, nothing is awaited, and the next instruction is due at the time
that the clock shows. -/
def pressed (p : Pacer κ τ) (x k : Fin 16) : Pacer κ τ :=
  let m := p.processor.machine
  { p with
    processor := { p.processor with machine := { m with
      registers := { m.registers with v := fill m.registers.v x (UInt8.ofNat k.val) }
      keypad := { m.keypad with down := fill m.keypad.down k true, waiting := false } } }
    clock := (Clock.read p.clock).2
    nextClock := (Clock.read p.clock).1 }

theorem apply_press {p : Pacer κ τ} (k x : Fin 16) (hwaiting : p.machine.waiting = true)
    (hregister : p.machine.keypad.register = x.val) :
    (Pacing.apply (.key k.val true) : Pacing κ τ Unit) p = .ok () (p.pressed x k) := by
  have hkey := Machine.keyEvent_of_waiting k x hwaiting hregister
  rw [Pacer.machine] at hkey
  rw [Pacing.apply_key, hkey]
  rfl

theorem registers_apply_key_of_idle {p : Pacer κ τ} (hidle : p.machine.waiting = false)
    (number : Int) (isDown : Bool) :
    (after (Pacing.apply (.key number isDown)) p).machine.registers = p.machine.registers := by
  have hkey := Machine.registers_keyEvent_of_idle hidle number isDown
  rw [after, Pacer.machine] at hkey
  rw [after, Pacing.apply_key]
  rcases hevent : Machine.keyEvent number isDown p.processor.machine with
    ⟨_ | _, machine⟩ | ⟨error, machine⟩
  · rw [hevent] at hkey
    exact hkey
  · rw [hevent] at hkey
    exact hkey
  · rw [hevent] at hkey
    exact hkey

variable [Add τ] [LE τ] {p : Pacer κ τ}

/-- While a key is awaited and none is pressed, moves that are allowed leave the
program as it is. -/
theorem agrees_moveAll_of_waiting {latest : τ} {moves : List (Move τ)}
    (hallowed : p.AllowsAll latest moves) (hwaiting : p.machine.waiting = true)
    (hpress : ∀ action ∈ actions moves, action.presses = false) :
    (p.moveAll moves).processor.Agrees p.processor ∧
      (p.moveAll moves).machine.keypad.register = p.machine.keypad.register := by
  induction moves generalizing p latest with
  | nil => exact ⟨⟨rfl, rfl, rfl⟩, rfl⟩
  | cons move rest ih =>
    obtain ⟨hmove, hrest⟩ := hallowed
    cases move with
    | act action =>
      obtain ⟨hfirst, hlater⟩ := List.forall_mem_cons.mp hpress
      have hstep : action ≠ .step := by
        intro hstep
        have hidle : p.machine.waiting = false := hmove hstep
        rw [hwaiting] at hidle
        cases hidle
      obtain ⟨hagrees, hregister⟩ := Processor.agrees_act_of_not_presses (p := p.processor)
        hstep hfirst
      obtain ⟨hagrees', hregister'⟩ := ih hrest (hagrees.waiting.trans hwaiting) hlater
      exact ⟨hagrees'.trans hagrees, hregister'.trans hregister⟩
    | post event => exact ih hrest hwaiting hpress
    | take event => exact ih hrest hwaiting hpress
    | hurry => exact ih hrest hwaiting hpress
    | pause => exact ih hrest hwaiting hpress
    | resume => exact ih hrest hwaiting hpress
    | read => exact ih hrest hwaiting hpress
    | issue now => exact ih hrest hwaiting hpress
    | count now => exact ih hrest hwaiting hpress

variable [DecidableLE τ]

/-- **Waiting for a key.** Take a pacer whose machine waits for a key, and any moment
of any run from it before a key that exists was pressed. What the program can see is
what it was, no instruction was completed, and the machine still waits for the same
register `x`. The press of a key that is applied then does what `Pacer.pressed`
says and nothing else; and whatever happens after it, as long as no `Fx0A` is
completed, further presses leave the registers alone. -/
theorem suspended_course (hreach : Processor.Reachable p.processor)
    (hwaiting : p.machine.waiting = true) {operations : List Operation}
    (hpaced : ∀ operation ∈ operations, operation.direct = false)
    {moves : List (Move τ)} (hmoves : moves <+: p.course operations)
    (hpress : ∀ action ∈ actions moves, action.presses = false) :
    let q := p.moveAll moves
    ∃ x : Fin 16, p.machine.keypad.register = x.val ∧
      q.machine.view = p.machine.view ∧ q.processor.cycles = p.processor.cycles ∧
      q.machine.waiting = true ∧ q.machine.keypad.register = x.val ∧
      ∀ k : Fin 16,
        (Pacing.apply (.key k.val true) : Pacing κ τ Unit) q = .ok () (q.pressed x k) ∧
        ∀ later : List (Move τ),
          (∀ ins ∈ (q.pressed x k).processor.completed (actions later), ins.opcode ≠ .waitKey) →
          ∀ (number : Int) (isDown : Bool),
            (after (Pacing.apply (.key number isDown))
              ((q.pressed x k).moveAll later)).machine.registers =
              ((q.pressed x k).moveAll later).machine.registers := by
  intro q
  obtain ⟨x, hx⟩ := hreach.bounded.exists_register
  have hallowed := allowsAll_course p.now hpaced (p := p)
  obtain ⟨hagrees, hregister⟩ :=
    agrees_moveAll_of_waiting (hallowed.of_isPrefix hmoves) hwaiting hpress
  have hstill : q.machine.waiting = true := hagrees.waiting.trans hwaiting
  refine ⟨x, hx, hagrees.view, hagrees.cycles, hstill, hregister.trans hx, ?_⟩
  intro k
  refine ⟨apply_press k x hstill (hregister.trans hx), ?_⟩
  intro later hwait number isDown
  have hidle : ((q.pressed x k).moveAll later).machine.waiting = false := by
    rw [Pacer.machine, processor_moveAll]
    exact Processor.waiting_actAll rfl hwait
  exact registers_apply_key_of_idle hidle number isDown

/-- `F10A` waits through a release, a single step, a pause and a key that does not
exist. Key `B` then goes to register 1 and key `C`, an instruction later, to none. -/
theorem suspended_course_of_release :
    let machine : Machine :=
      { Machine.initial with
        memory := Memory.blank.store Memory.programStart [0xF1, 0x0A, 0x62, 0x05] }
    let start : Pacer (HandClock Nat) Nat :=
      new (.ofMachine machine (.ofSource fun _ => 0) (.new false)) ⟨0, 1⟩ 2 3
    let p := start.performAll [.tick]
    let operations : List Operation :=
      [.post (.key 3 false), .post (.control .step), .tick, .pause, .post (.key 99 true), .tick,
       .togglePause, .tick]
    let q := p.performAll operations
    q.machine.view = p.machine.view ∧ q.processor.cycles = p.processor.cycles ∧
    ∃ r : Pacer (HandClock Nat) Nat,
      (Pacing.apply (.key 11 true) : Pacing (HandClock Nat) Nat Unit) q = .ok () r ∧
      r.machine.registers.v.get 1 = 11 ∧ r.nextClock = q.now ∧
      (after (Pacing.apply (.key 12 true)) (r.moveAll [.act .step])).machine.registers =
        (r.moveAll [.act .step]).machine.registers := by
  intro machine start p operations q
  have hload : Machine.ofProgram [0xF1, 0x0A, 0x62, 0x05] = .ok machine :=
    Machine.ofProgram_of_le (by decide)
  have hstart : Processor.Reachable start.processor := .start hload _ _
  have hreach : Processor.Reachable p.processor := reachable_performAll hstart [.tick]
  have hpaced : ∀ operation ∈ operations, operation.direct = false := by decide
  -- the facts are computed together, for the machine is the same in all of them
  obtain ⟨hwaiting, hregister, hpress, hwait⟩ :
      p.machine.waiting = true ∧ p.machine.keypad.register = 1 ∧
      (∀ action ∈ actions (p.course operations), action.presses = false) ∧
      (∀ ins ∈ (Pacer.pressed (p.moveAll (p.course operations)) 1 11).processor.completed
        (actions (τ := Nat) [.act .step]), ins.opcode ≠ .waitKey) := by
    decide +kernel
  obtain ⟨x, hx, hview, hcycles, -, -, hkey⟩ :=
    suspended_course hreach hwaiting hpaced (List.prefix_refl _) hpress
  obtain rfl : x = 1 := Fin.ext (Int.ofNat.inj (hx.symm.trans hregister))
  obtain ⟨hpressed, hlater⟩ := hkey 11
  have hq : p.moveAll (p.course operations) = q := moveAll_course p operations
  rw [hq] at hview hcycles hpressed hlater hwait
  clear_value q
  refine ⟨hview, hcycles, _, hpressed, ?_, rfl, hlater _ hwait 12 true⟩
  exact (get_fill _ _ _ _).trans (if_pos rfl)

end Pacer

end ChipEight
