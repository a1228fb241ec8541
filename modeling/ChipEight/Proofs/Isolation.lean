import ChipEight.Proofs.Course

/-!
# Timing and input reach a program through four instructions

What a program can see of its machine, apart from the timers and the keys, is a
`View`. Only `Fx07`, `Fx0A`, `Ex9E` and `ExA1` carry something from the timers and
the keys over into the view; every other instruction makes of a view what it would
make of it with the timers at zero and all keys up (`Instruction.effect_view`). And
nothing but a completed instruction changes the view as long as no key is awaited.

So two runs from the same program that complete equally many instructions show the
same view, whatever else happened to either of them. The proof goes through both
runs at once: what completes no instruction is skipped in the run it occurs in, and
completed instructions are taken in pairs.
-/

namespace ChipEight

/-! ## Views -/

/-- What a program can see of its machine, apart from the timers and the keys. -/
structure View where
  memory : Memory
  v : Vector UInt8 16
  i : Int
  pc : Int
  /-- the slots of the call stack and how many are in use -/
  stack : CallStack
  /-- the pixels, and whether they have to be shown again -/
  screen : Screen
  waiting : Bool
  /-- the register that a key is awaited for, or was last -/
  register : Int

namespace Machine

/-- The view of a machine. -/
def view (m : Machine) : View where
  memory := m.memory
  v := m.registers.v
  i := m.registers.i
  pc := m.registers.pc
  stack := m.registers.stack
  screen := m.screen
  waiting := m.keypad.waiting
  register := m.keypad.register

/-- The machine with its timers at zero, all keys up, and not halted. -/
def atRest (m : Machine) : Machine :=
  { m with
    registers := { m.registers with delay := 0, sound := 0 }
    keypad := { m.keypad with down := Keypad.idle.down }
    halted := false }

variable {m m' : Machine}

/-- Machines with the same view are the same at rest. -/
theorem atRest_eq (h : m.view = m'.view) : m.atRest = m'.atRest := by
  simp only [view, View.mk.injEq] at h
  obtain ⟨hmemory, hv, hi, hpc, hstack, hscreen, hwaiting, hregister⟩ := h
  simp only [atRest, hmemory, hv, hi, hpc, hstack, hscreen, hwaiting, hregister]

/-- Going on with the next instruction can be seen. -/
theorem view_next (m : Machine) :
    (m.withRegisters m.registers.next).view = { m.view with pc := m.view.pc + 2 } := rfl

theorem view_drawn (m : Machine) (x y : Fin 16) (rows : List UInt8) :
    (m.drawn x y rows).view = (m.atRest.drawn x y rows).view := by
  let r := m.registers.setV Registers.flag 0
  have hdrawn : ∀ sprite : Bool × Screen,
      Machine.view { m with
        screen := sprite.2, registers := if sprite.1 then r.setV Registers.flag 1 else r } =
      Machine.view { m.atRest with
        screen := sprite.2
        registers :=
          if sprite.1 then (m.atRest.registers.setV Registers.flag 0).setV Registers.flag 1
          else m.atRest.registers.setV Registers.flag 0 } := by
    rintro ⟨_ | _, screen⟩ <;> rfl
  exact hdrawn _

/-- What is upcoming can be seen. -/
theorem upcoming_eq (h : m.view = m'.view) : m.upcoming = m'.upcoming := by
  simp only [view, View.mk.injEq] at h
  obtain ⟨hmemory, -, -, hpc, -, -, -, -⟩ := h
  rw [upcoming, upcoming, hmemory, hpc]

end Machine

/-! ## Instructions -/

/-- Whether an opcode carries something from the timers or the keys over. -/
def Opcode.senses (op : Opcode) : Bool :=
  op = readDelay || op = waitKey || op = skipKeyDown || op = skipKeyUp

namespace Instruction

variable {ins : Instruction} {byte : UInt8} {m m' n : Machine}

/-- The other instructions make of a view what they would make of it at rest. -/
theorem effect_view (h : ins.opcode.senses = false) :
    (ins.effect byte m).map Machine.view = (ins.effect byte m.atRest).map Machine.view := by
  obtain ⟨word, opcode⟩ := ins
  cases opcode
  case readDelay => cases h
  case waitKey => cases h
  case skipKeyDown => cases h
  case skipKeyUp => cases h
  case ret =>
    simp only [effect, Registers.pop, Machine.atRest]
    cases m.registers.stack.pop? <;> rfl
  case call =>
    simp only [effect, Registers.push, Machine.atRest]
    cases m.registers.stack.push? _ <;> rfl
  case draw =>
    simp only [effect, Machine.atRest]
    rcases m.memory.readBlock m.registers.i _ with fault | rows
    · rfl
    · refine congrArg Except.ok ?_
      rw [Machine.view_next, Machine.view_drawn]
      rfl
  case decimal =>
    simp only [effect, Machine.atRest]
    cases m.memory.writeBytes m.registers.i _ <;> rfl
  case storeRegs =>
    simp only [effect, Machine.atRest]
    cases m.memory.writeBytes m.registers.i _ <;> rfl
  case loadRegs =>
    simp only [effect, Machine.atRest, Registers.loadV]
    cases m.memory.readBlock m.registers.i _ <;> rfl
  all_goals rfl

/-- On machines with the same view the other instructions are completed alike. -/
theorem effect_eq_ok_of_view (h : ins.opcode.senses = false) (hview : m.view = m'.view)
    (heffect : ins.effect byte m = .ok n) :
    ∃ n', ins.effect byte m' = .ok n' ∧ n'.view = n.view := by
  have hmap : (ins.effect byte m').map Machine.view = .ok n.view := by
    rw [effect_view h, ← Machine.atRest_eq hview, ← effect_view h, heffect]
    rfl
  exact of_map_eq_ok hmap

/-- None of the other instructions begins to wait for a key. -/
theorem waiting_effect (h : ins.opcode.senses = false) (heffect : ins.effect byte m = .ok n) :
    n.waiting = m.waiting := by
  have hwait : ins.opcode ≠ .waitKey := by
    intro hwait
    rw [hwait] at h
    cases h
  rw [Machine.waiting, keypad_effect hwait heffect]
  rfl

end Instruction

/-! ## Actions -/

namespace Processor

/-- Two processors show the same view, have the same draws ahead of them and have
completed equally many instructions. -/
structure Agrees (p q : Processor) : Prop where
  view : p.machine.view = q.machine.view
  draws : p.draws = q.draws
  cycles : p.cycles = q.cycles

variable {p q : Processor} {action : Action} {ins : Instruction}

namespace Agrees

theorem symm (h : p.Agrees q) : q.Agrees p := ⟨h.view.symm, h.draws.symm, h.cycles.symm⟩

theorem trans {r : Processor} (h : p.Agrees q) (h' : q.Agrees r) : p.Agrees r :=
  ⟨h.view.trans h'.view, h.draws.trans h'.draws, h.cycles.trans h'.cycles⟩

theorem waiting (h : p.Agrees q) : p.machine.waiting = q.machine.waiting :=
  congrArg View.waiting h.view

end Agrees

/-- As long as no key is awaited, what completes no instruction cannot be seen. -/
theorem agrees_act_of_idle (hwaiting : p.machine.waiting = false)
    (hidle : p.completedBy action = none) : (p.act action).Agrees p := by
  cases action with
  | step =>
    have hout := step_outcome p
    rw [completedBy] at hidle
    rw [act, after]
    generalize step p = result at hout hidle ⊢
    cases hout with
    | unavailable _ => exact ⟨rfl, rfl, rfl⟩
    | halts _ => exact ⟨rfl, rfl, rfl⟩
    | refused _ _ => exact ⟨rfl, rfl, rfl⟩
    | completes _ _ => cases hidle
  | key number isDown =>
    have hout := Machine.keyEvent_outcome p.machine number isDown
    rw [act, after]
    generalize Machine.keyEvent number isDown p.machine = result at hout ⊢
    cases hout with
    | unknown _ => exact ⟨rfl, rfl, rfl⟩
    | noted _ _ => exact ⟨rfl, rfl, rfl⟩
    | settled _ _ hwaits _ =>
      rw [hwaiting] at hwaits
      cases hwaits
    | misdirected _ _ hwaits _ =>
      rw [hwaiting] at hwaits
      cases hwaits
  | countDown =>
    rw [act, Machine.countDown, Registers.decrementTimers]
    exact ⟨rfl, rfl, rfl⟩
  | halt => exact ⟨rfl, rfl, rfl⟩
  | log change => exact ⟨rfl, rfl, rfl⟩

/-- Instructions are completed by steps only. -/
theorem eq_step_of_completedBy (h : p.completedBy action = some ins) : action = .step := by
  cases action with
  | step => rfl
  | key number isDown => cases h
  | countDown => cases h
  | halt => cases h
  | log change => cases h

/-- What a step that completes an instruction is. -/
theorem of_completedBy_eq_some (h : p.completedBy .step = some ins) :
    p.machine.upcoming = .ok (some ins) ∧
      ∃ machine, ins.effect p.draws.next p.machine = .ok machine ∧
        p.act .step = { machine, draws := ins.drawsAfter p.draws, cycles := p.cycles + 1,
                        log := ins.logged p.machine.registers machine.registers p.log } := by
  have hout := step_outcome p
  rw [completedBy] at h
  rw [act, after]
  generalize step p = result at hout h ⊢
  cases hout with
  | unavailable _ => cases h
  | halts _ => cases h
  | refused _ _ => cases h
  | completes hup heffect =>
    obtain rfl := Option.some.inj h
    exact ⟨hup, _, heffect, rfl⟩

/-- Where two processors agree and both complete an instruction, they agree
afterwards, unless it is one that looks at the timers or the keys. -/
theorem Agrees.act_step {other : Instruction} (h : p.Agrees q)
    (hp : p.completedBy .step = some ins) (hq : q.completedBy .step = some other)
    (hsenses : ins.opcode.senses = false) :
    (p.act .step).Agrees (q.act .step) ∧
      (p.act .step).machine.waiting = p.machine.waiting := by
  obtain ⟨hup, machine, heffect, hact⟩ := of_completedBy_eq_some hp
  obtain ⟨hup', machine', heffect', hact'⟩ := of_completedBy_eq_some hq
  rw [← Machine.upcoming_eq h.view, hup] at hup'
  obtain rfl := Option.some.inj (Except.ok.inj hup')
  obtain ⟨seen, hseen, hview⟩ := Instruction.effect_eq_ok_of_view hsenses h.view heffect
  rw [← h.draws, hseen] at heffect'
  obtain rfl := Except.ok.inj heffect'
  rw [hact, hact']
  exact ⟨⟨hview.symm, congrArg ins.drawsAfter h.draws, congrArg (· + 1) h.cycles⟩,
    Instruction.waiting_effect hsenses heffect⟩

/-! ## Runs -/

/-- **Two runs side by side.** From processors that agree, two sequences of actions
that complete equally many instructions lead to processors that agree, if the first
completes none that looks at the timers or the keys. -/
theorem Agrees.actAll {first second : List Action} (h : p.Agrees q)
    (hwaiting : p.machine.waiting = false)
    (hsenses : ∀ ins ∈ p.completed first, ins.opcode.senses = false)
    (hcycles : (p.actAll first).cycles = (q.actAll second).cycles) :
    (p.actAll first).Agrees (q.actAll second) := by
  -- the outer induction is on the first run; for each instruction that it completes,
  -- the inner one looks for the instruction of the second run that goes with it
  induction first generalizing p q second with
  | nil =>
    induction second generalizing q with
    | nil => exact h
    | cons action second ih =>
      rcases hdone : q.completedBy action with _ | ins
      · have hidle := agrees_act_of_idle (h.waiting ▸ hwaiting) hdone
        exact ih (h.trans hidle.symm) hcycles
      · -- the second run would stay ahead
        have hahead := h.cycles
        rw [actAll_nil, actAll_cons, cycles_actAll, cycles_act, hdone] at hcycles
        simp only [Option.toList_some, List.length_cons] at hcycles
        omega
  | cons action first ih =>
    rw [completed] at hsenses
    rcases hdone : p.completedBy action with _ | ins
    · have hidle := agrees_act_of_idle hwaiting hdone
      rw [hdone] at hsenses
      exact ih (hidle.trans h) (hidle.waiting.trans hwaiting) hsenses hcycles
    · obtain rfl := eq_step_of_completedBy hdone
      rw [hdone] at hsenses
      obtain ⟨hins, hrest⟩ := List.forall_mem_cons.mp hsenses
      induction second generalizing q with
      | nil =>
        -- the second run would stay behind
        have hbehind := h.cycles
        rw [actAll_nil, actAll_cons, cycles_actAll, cycles_act, hdone] at hcycles
        simp only [Option.toList_some, List.length_cons] at hcycles
        omega
      | cons other second ihSecond =>
        rcases hother : q.completedBy other with _ | ins'
        · have hidle := agrees_act_of_idle (h.waiting ▸ hwaiting) hother
          exact ihSecond (h.trans hidle.symm) hcycles
        · obtain rfl := eq_step_of_completedBy hother
          obtain ⟨hagrees, hstill⟩ := h.act_step hdone hother hins
          rw [actAll_cons, actAll_cons] at hcycles ⊢
          exact ih hagrees (hstill.trans hwaiting) hrest hcycles

end Processor

namespace Pacer

variable {κ τ κ' τ' : Type} [Clock κ τ] [Add τ] [LE τ] [DecidableLE τ]
  [Clock κ' τ'] [Add τ'] [LE τ'] [DecidableLE τ']

/-- **Isolation from timing and input.** Take two pacers over fresh processors with
the same program and the same draws; their clocks, periods, deadlines and logs may
differ, even in type, and so may everything that is done with them. If both have
completed equally many instructions, and the first has completed none of the four
that look at the timers or the keys, their machines show the same view, and the draws
ahead of them are the same. -/
theorem view_performAll {program : List UInt8} {machine : Machine}
    (hload : Machine.ofProgram program = .ok machine) {draws : Draws} {log log' : Log}
    {p : Pacer κ τ} (hp : p.processor = .ofMachine machine draws log)
    {q : Pacer κ' τ'} (hq : q.processor = .ofMachine machine draws log')
    {operations operations' : List Operation}
    (hcycles : (p.performAll operations).processor.cycles =
      (q.performAll operations').processor.cycles)
    (hsenses : ∀ ins ∈ p.completed operations, ins.opcode.senses = false) :
    (p.performAll operations).machine.view = (q.performAll operations').machine.view ∧
      (p.performAll operations).processor.draws = (q.performAll operations').processor.draws := by
  have hagrees : p.processor.Agrees q.processor := by
    rw [hp, hq]
    exact ⟨rfl, rfl, rfl⟩
  have hwaiting : p.processor.machine.waiting = false := by
    obtain ⟨memory, -, rfl⟩ := Machine.of_ofProgram_eq_ok hload
    rw [hp]
    rfl
  rw [processor_performAll, processor_performAll] at hcycles
  rw [Pacer.machine, Pacer.machine, processor_performAll, processor_performAll]
  have hboth := hagrees.actAll hwaiting hsenses hcycles
  exact ⟨hboth.view, hboth.draws⟩

/-- Two ticks show the same as a tick and a single step while paused, with a key
down and on another clock, and the same draws are ahead. -/
theorem view_performAll_of_two_ticks :
    let machine : Machine :=
      { Machine.initial with
        memory := Memory.blank.store Memory.programStart [0x60, 0x05, 0xF0, 0x15] }
    let p : Pacer (HandClock Nat) Nat :=
      .new (.ofMachine machine (.ofSource fun _ => 0) (.new false)) ⟨0, 1⟩ 1 1
    let q : Pacer (HandClock Int) Int :=
      .new (.ofMachine machine (.ofSource fun _ => 0) (.new true)) ⟨-5, 2⟩ 30 7
    (p.performAll [.tick, .tick]).machine.view =
      (q.performAll
        [.post (.key 3 true), .tick, .pause, .post (.control .step), .tick]).machine.view ∧
    (p.performAll [.tick, .tick]).processor.draws =
      (q.performAll
        [.post (.key 3 true), .tick, .pause, .post (.control .step), .tick]).processor.draws := by
  intro machine p q
  have hload : Machine.ofProgram [0x60, 0x05, 0xF0, 0x15] = .ok machine :=
    Machine.ofProgram_of_le (by decide)
  have hp : p.processor = .ofMachine machine (.ofSource fun _ => 0) (.new false) := rfl
  have hq : q.processor = .ofMachine machine (.ofSource fun _ => 0) (.new true) := rfl
  exact view_performAll hload hp hq (by decide +kernel) (by decide +kernel)

end Pacer

end ChipEight
