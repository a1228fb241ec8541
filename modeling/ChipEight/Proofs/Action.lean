import ChipEight.Proofs.Step

/-!
# What can be done to a processor

Everything that ever happens to a processor is one of five actions: it makes a
step, a key goes down or up, the timers take a step, the machine is halted, or
something is logged. `Processor.act` is what an action leaves behind, refused or
not, and `Processor.Reachable` are the processors that actions lead to from a
machine that was just built. Laws about all runs are proved of single actions
and carried over to lists of them.
-/

namespace ChipEight

/-! ## Key events -/

namespace Keypad

/-- The keypad after a key of it went down or up. -/
def record (p : Keypad) (k : Fin 16) (isDown : Bool) : Keypad :=
  { p with down := fill p.down k isDown }

theorem key_of_cell {number : Int} {k : Fin 16} (h : cell? number = some k) :
    key number = .ok k := by
  rw [key, h]

theorem key_of_no_cell {number : Int} (h : cell? number = none) :
    key number = .error (.keyIndex number) := by
  rw [key, h]

theorem set_eq (p : Keypad) (number : Int) (isDown : Bool) :
    p.set number isDown = (key number).map fun k => p.record k isDown := by
  rw [set]
  cases key number <;> rfl

end Keypad

namespace Machine

/-- What a key event can come to. -/
inductive KeyOutcome (m : Machine) (number : Int) (isDown : Bool) :
    EStateM.Result Error Machine Bool → Prop
  /-- there is no such key -/
  | unknown (hkey : Keypad.key number = .error (.keyIndex number)) :
    KeyOutcome m number isDown (.error (.fault (.keyIndex number)) m)
  /-- the key is noted and nothing waits for it -/
  | noted {k : Fin 16} (hkey : Keypad.key number = .ok k)
    (hidle : (isDown && m.waiting) = false) :
    KeyOutcome m number isDown (.ok false { m with keypad := m.keypad.record k isDown })
  /-- the key ends the wait and goes to a register -/
  | settled {k x : Fin 16} (hkey : Keypad.key number = .ok k)
    (hdown : isDown = true) (hwaiting : m.waiting = true)
    (hregister : Registers.index? m.keypad.register = some x) :
    KeyOutcome m number isDown (.ok true { m with
      keypad := (m.keypad.record k isDown).settle
      registers := m.registers.setV x (UInt8.ofNat number.toNat) })
  /-- the key ends the wait, but its register does not exist -/
  | misdirected {k : Fin 16} (hkey : Keypad.key number = .ok k)
    (hdown : isDown = true) (hwaiting : m.waiting = true)
    (hregister : Registers.index? m.keypad.register = none) :
    KeyOutcome m number isDown (.error (.misuse (.noSuchRegister m.keypad.register))
      { m with keypad := (m.keypad.record k isDown).settle })

/-- Every key event comes to one of the four outcomes. -/
theorem keyEvent_outcome (m : Machine) (number : Int) (isDown : Bool) :
    KeyOutcome m number isDown (keyEvent number isDown m) := by
  rw [keyEvent, Keypad.set_eq]
  rcases hcell : cell? number with _ | k
  · have hkey := Keypad.key_of_no_cell hcell
    rw [hkey]
    exact .unknown hkey
  · have hkey := Keypad.key_of_cell hcell
    rw [hkey]
    show KeyOutcome m number isDown (if isDown && m.waiting then _ else _)
    by_cases hawaited : (isDown && m.waiting) = true
    · rw [if_pos hawaited]
      obtain ⟨hdown, hwaiting⟩ := (Bool.and_eq_true _ _).mp hawaited
      rcases hregister : Registers.index? m.keypad.register with _ | x
      · have h := KeyOutcome.misdirected hkey hdown hwaiting hregister
        simpa only [Keypad.record, hregister] using h
      · have h := KeyOutcome.settled hkey hdown hwaiting hregister
        simpa only [Keypad.record, Registers.setV, hregister] using h
    · rw [if_neg hawaited]
      exact .noted hkey (Bool.eq_false_iff.mpr hawaited)

/-- A key event changes at most the byte registers and the keypad. -/
theorem after_keyEvent (m : Machine) (number : Int) (isDown : Bool) : ∃ v keypad,
    after (keyEvent number isDown) m =
      { m with registers := { m.registers with v }, keypad } := by
  have hout := keyEvent_outcome m number isDown
  rw [after]
  generalize keyEvent number isDown m = result at hout ⊢
  cases hout with
  | unknown _ | noted _ _ | settled _ _ _ _ | misdirected _ _ _ _ => exact ⟨_, _, rfl⟩

/-- A machine that was just built differs from an empty one in its memory. -/
theorem of_ofProgram_eq_ok {program : List UInt8} {m : Machine} (h : ofProgram program = .ok m) :
    ∃ memory, initial.memory.load program = .ok memory ∧ m = { initial with memory } := by
  rw [ofProgram] at h
  rcases hload : initial.memory.load program with fault | memory
  · rw [hload] at h
    cases h
  · rw [hload] at h
    exact ⟨memory, rfl, (Except.ok.inj h).symm⟩

/-- A machine can be built with any program that fits. -/
theorem ofProgram_of_le {program : List UInt8} (h : program.length ≤ Memory.programLimit) :
    ofProgram program =
      .ok { initial with memory := initial.memory.store Memory.programStart program } := by
  rw [ofProgram, Memory.load_of_le _ h]
  rfl

/-! ## Steps of the timers -/

/-- The machine after its timers have taken a step. -/
def countDown (m : Machine) : Machine := m.withRegisters m.registers.decrementTimers

/-- The machine `m'` is `m` with its timers one step further: each shows one less, unless it shows
zero, and everything else is what it was. -/
structure CountedDown (m m' : Machine) : Prop where
  delay : m'.registers.delay.toNat = m.registers.delay.toNat - 1
  sound : m'.registers.sound.toNat = m.registers.sound.toNat - 1
  rest : m' = { m with
    registers :=
      { m.registers with delay := m'.registers.delay, sound := m'.registers.sound } }

theorem toNat_countDown (timer : UInt8) : (Registers.countDown timer).toNat = timer.toNat - 1 := by
  rw [Registers.countDown]
  split
  · next hpos =>
    have hle : (1 : UInt8) ≤ timer := UInt8.le_iff_toNat_le.mpr (UInt8.lt_iff_toNat_lt.mp hpos)
    exact UInt8.toNat_sub_of_le _ _ hle
  · next hzero =>
    have hle := UInt8.le_iff_toNat_le.mp (UInt8.not_lt.mp hzero)
    simp at hle ⊢
    omega

theorem countedDown_countDown (m : Machine) : m.CountedDown m.countDown :=
  ⟨toNat_countDown _, toNat_countDown _, rfl⟩

end Machine

/-! ## Actions -/

namespace Processor

/-- What can be done to a processor. -/
inductive Action where
  /-- it makes a step -/
  | step
  /-- a key of its machine goes down or up -/
  | key (number : Int) (isDown : Bool)
  /-- the timers of its machine take a step -/
  | countDown
  /-- its machine is halted -/
  | halt
  /-- something is done to its log -/
  | log (change : Log → Log)

/-- The processor after an action, whether or not the action was refused. -/
def act (p : Processor) : Action → Processor
  | .step => after step p
  | .key number isDown => { p with machine := after (Machine.keyEvent number isDown) p.machine }
  | .countDown => { p with machine := p.machine.countDown }
  | .halt => { p with machine := p.machine.halt }
  | .log change => { p with log := change p.log }

/-- The processor after a sequence of actions. -/
def actAll (p : Processor) (actions : List Action) : Processor :=
  actions.foldl act p

/-- The instruction that an action completes, if it completes one. -/
def completedBy (p : Processor) : Action → Option Instruction
  | .step =>
    match step p with
    | .ok ins _ => ins
    | .error _ _ => none
  | _ => none

/-- The instructions that a sequence of actions completes, in order. -/
def completed (p : Processor) : List Action → List Instruction
  | [] => []
  | action :: rest => (p.completedBy action).toList ++ completed (p.act action) rest

/-- The processors that actions lead to from a machine that was just built. -/
inductive Reachable : Processor → Prop
  /-- a machine with its program, of which nothing was executed -/
  | start {program : List UInt8} {machine : Machine}
    (hload : Machine.ofProgram program = .ok machine) (draws : Draws) (log : Log) :
    Reachable (.ofMachine machine draws log)
  /-- one more action -/
  | act {p : Processor} (h : Reachable p) (action : Action) : Reachable (p.act action)

section Actions

variable {p : Processor}

@[simp] theorem actAll_nil : p.actAll [] = p := rfl

@[simp] theorem actAll_cons (action : Action) (rest : List Action) :
    p.actAll (action :: rest) = (p.act action).actAll rest := rfl

/-- The step that completes an instruction. -/
theorem step_of_completedBy {ins : Instruction} (h : p.completedBy .step = some ins) :
    step p = .ok (some ins) (p.act .step) := by
  rw [completedBy] at h
  rw [act, after]
  rcases hstep : step p with ⟨next, q⟩ | ⟨fault, q⟩
  · simp only [hstep] at h ⊢
    rw [h]
  · simp only [hstep] at h
    cases h

/-- Only a completed instruction counts as a cycle. -/
theorem cycles_act (action : Action) :
    (p.act action).cycles = p.cycles + (p.completedBy action).toList.length := by
  cases action with
  | step =>
    have hout := step_outcome p
    rw [act, after, completedBy]
    generalize step p = result at hout ⊢
    cases hout with
    | unavailable _ => rfl
    | halts _ => rfl
    | refused _ _ => rfl
    | completes _ _ => rfl
  | key number isDown => rfl
  | countDown => rfl
  | halt => rfl
  | log change => rfl

/-- The count of cycles is the number of completed instructions. -/
theorem cycles_actAll (actions : List Action) :
    (p.actAll actions).cycles = p.cycles + (p.completed actions).length := by
  induction actions generalizing p with
  | nil => rfl
  | cons action rest ih =>
    rw [actAll_cons, ih, cycles_act, completed, List.length_append, Nat.add_assoc]

/-- What one action keeps, all sequences of actions keep. -/
theorem actAll_induction {motive : Processor → Prop}
    (hact : ∀ {p : Processor} (action : Action), motive p → motive (p.act action))
    (actions : List Action) (h : motive p) : motive (p.actAll actions) := by
  induction actions generalizing p with
  | nil => exact h
  | cons action rest ih => exact ih (hact action h)

theorem Reachable.actAll (h : Reachable p) (actions : List Action) :
    Reachable (p.actAll actions) :=
  actAll_induction (fun action h => h.act action) actions h

end Actions

end Processor

end ChipEight
