import ChipEight.Proofs.Calls
import ChipEight.Proofs.Grammar
import ChipEight.Proofs.Refusal

/-!
# Where the program goes on

Every instruction that is completed moves the program counter once: to an address of its
own, behind the next instruction if it skips it, or to the next instruction
(`Instruction.GoesOn`). Which condition a skip is made on is said by `Instruction.Skips`.

Skips come in pairs that ask for opposite things (`Instruction.Opposes`). On the same
registers and keys, exactly one instruction of a pair skips.
-/

namespace ChipEight

/-! ## Keys -/

namespace Keypad

variable {p : Keypad} {number : Int} {down : Bool}

/-- A key that could be asked for is one of the sixteen. -/
theorem isDown_eq_ok_iff :
    p.isDown number = .ok down ↔ ∃ k : Fin 16, number = k.val ∧ p.down.get k = down := by
  rcases hcell : cell? number with _ | k
  · rw [isDown, key_of_no_cell hcell]
    refine ⟨fun h => (by cases h), ?_⟩
    rintro ⟨k, hk, -⟩
    rw [cell?_eq_some_iff.mpr hk] at hcell
    cases hcell
  · have hk := cell?_eq_some_iff.mp hcell
    rw [isDown, key_of_cell hcell]
    refine ⟨fun h => ⟨k, hk, Except.ok.inj h⟩, ?_⟩
    rintro ⟨j, hj, rfl⟩
    obtain rfl : j = k := Fin.ext (by omega)
    rfl

/-- What is asked of the key with a number, for a number that a key has. -/
theorem exists_key_iff {k : Fin 16} (hk : number = k.val) :
    (∃ j : Fin 16, number = j.val ∧ p.down.get j = down) ↔ p.down.get k = down := by
  constructor
  · rintro ⟨j, hj, hdown⟩
    obtain rfl : j = k := Fin.ext (by omega)
    exact hdown
  · intro hdown
    exact ⟨k, hk, hdown⟩

end Keypad

/-! ## Instructions -/

/-- The opcodes that go on at an address of their own. -/
def Opcode.jumping : List Opcode := [ret, jump, call, jumpOffset]

namespace Instruction

/-- Whether an instruction skips the next one. -/
def Skips (ins : Instruction) (m : Machine) : Prop :=
  let vx := m.registers.v.get ins.x
  let vy := m.registers.v.get ins.y
  match ins.opcode with
  | .skipEqByte => vx = ins.kk
  | .skipNeByte => vx ≠ ins.kk
  | .skipEqReg => vx = vy
  | .skipNeReg => vx ≠ vy
  | .skipKeyDown => ∃ k : Fin 16, (vx.toNat : Int) = k.val ∧ m.keypad.down.get k = true
  | .skipKeyUp => ∃ k : Fin 16, (vx.toNat : Int) = k.val ∧ m.keypad.down.get k = false
  | _ => False

/-- The address at which the program goes on after an instruction. -/
structure GoesOn (ins : Instruction) (m : Machine) (pc : Int) : Prop where
  jump : ins.opcode = .jump ∨ ins.opcode = .call → pc = ins.nnn
  /-- the sum is not reduced -/
  jumpOffset : ins.opcode = .jumpOffset → pc = ins.nnn + (m.registers.v.get 0).toNat
  /-- behind the address in the last slot in use -/
  ret : ins.opcode = .ret → ∃ k : Fin 16, m.registers.stack.depth = k.val + 1 ∧
    pc = (m.registers.stack.slots.get k).toNat + 2
  skips : ins.Skips m → pc = m.registers.pc + 4
  next : ins.opcode ∉ Opcode.jumping → ¬ ins.Skips m → pc = m.registers.pc + 2

variable {ins ins' : Instruction} {word : Int} {op : Opcode} {byte byte' : UInt8}
  {m m' : Machine} {pc : Int}

theorem not_skips_of_jumping (hop : op ∈ Opcode.jumping) : ¬ Skips ⟨word, op⟩ m := by
  simp only [Opcode.jumping, List.mem_cons, List.not_mem_nil, or_false] at hop
  rcases hop with rfl | rfl | rfl | rfl
  all_goals exact id

theorem goesOn_of_jumping (hop : op ∈ Opcode.jumping)
    (hjump : op = .jump ∨ op = .call → pc = nnn ⟨word, op⟩)
    (hoffset : op = .jumpOffset → pc = nnn ⟨word, op⟩ + (m.registers.v.get 0).toNat)
    (hret : op = .ret → ∃ k : Fin 16, m.registers.stack.depth = k.val + 1 ∧
      pc = (m.registers.stack.slots.get k).toNat + 2) : GoesOn ⟨word, op⟩ m pc :=
  ⟨hjump, hoffset, hret, fun hskip => absurd hskip (not_skips_of_jumping hop),
    fun hnot => absurd hop hnot⟩

/-- An instruction that does not jump goes on with the next instruction or behind it. -/
theorem goesOn_of_skip (hop : op ∉ Opcode.jumping) (skipped : Bool)
    (hskips : skipped = true ↔ Skips ⟨word, op⟩ m) :
    GoesOn ⟨word, op⟩ m (m.registers.pc + if skipped then 4 else 2) := by
  refine ⟨?_, ?_, ?_, fun hskip => ?_, fun _ hskip => ?_⟩
  · rintro (rfl | rfl) <;> exact absurd (by decide) hop
  · rintro rfl
    exact absurd (by decide) hop
  · rintro rfl
    exact absurd (by decide) hop
  · rw [if_pos (hskips.mpr hskip)]
  · rw [if_neg (fun h => hskip (hskips.mp h))]

theorem goesOn_of_next (hop : op ∉ Opcode.jumping) (hskip : ¬ Skips ⟨word, op⟩ m)
    (hpc : pc = m.registers.pc + 2) : GoesOn ⟨word, op⟩ m pc := by
  rw [hpc]
  exact goesOn_of_skip hop false ⟨fun h => (by cases h), fun h => absurd h hskip⟩

/-- An instruction that is completed moves the program counter once. -/
theorem goesOn_effect (heffect : ins.effect byte m = .ok m') : ins.GoesOn m m'.registers.pc := by
  obtain ⟨word, opcode⟩ := ins
  cases opcode
  case jump =>
    obtain rfl := Except.ok.inj heffect
    exact goesOn_of_jumping (by decide) (fun _ => rfl) nofun nofun
  case call =>
    obtain ⟨r, -, rfl⟩ := of_map_eq_ok heffect
    exact goesOn_of_jumping (by decide) (fun _ => rfl) nofun nofun
  case jumpOffset =>
    obtain rfl := Except.ok.inj heffect
    exact goesOn_of_jumping (by decide) nofun (fun _ => rfl) nofun
  case ret =>
    obtain ⟨k, hdepth, hpc, -, -⟩ := effect_ret rfl heffect
    exact goesOn_of_jumping (by decide) nofun nofun fun _ => ⟨k, hdepth, hpc⟩
  case skipEqByte | skipEqReg =>
    obtain rfl := Except.ok.inj heffect
    exact goesOn_of_skip (by decide) _ beq_iff_eq
  case skipNeByte | skipNeReg =>
    obtain rfl := Except.ok.inj heffect
    exact goesOn_of_skip (by decide) _ bne_iff_ne
  case skipKeyDown =>
    obtain ⟨down, hdown, rfl⟩ := of_map_eq_ok heffect
    refine goesOn_of_skip (by decide) down ⟨?_, fun hskip => ?_⟩
    · rintro rfl
      exact Keypad.isDown_eq_ok_iff.mp hdown
    · rw [Keypad.isDown_eq_ok_iff.mpr hskip] at hdown
      exact (Except.ok.inj hdown).symm
  case skipKeyUp =>
    obtain ⟨down, hdown, rfl⟩ := of_map_eq_ok heffect
    refine goesOn_of_skip (by decide) (!down) ⟨fun hup => ?_, fun hskip => ?_⟩
    · obtain rfl : down = false := (Bool.not_eq_true' down).mp hup
      exact Keypad.isDown_eq_ok_iff.mp hdown
    · rw [Keypad.isDown_eq_ok_iff.mpr hskip] at hdown
      rw [← Except.ok.inj hdown]
      rfl
  case draw =>
    obtain ⟨rows, -, rfl⟩ := of_map_eq_ok heffect
    exact goesOn_of_next (by decide) id (congrArg (· + 2) (m.pc_drawn _ _ rows))
  case loadRegs =>
    obtain ⟨bytes, -, rfl⟩ := of_map_eq_ok heffect
    have hpc : (m.registers.loadV bytes).pc = m.registers.pc := by rw [Registers.loadV]
    exact goesOn_of_next (by decide) id (congrArg (· + 2) hpc)
  case decimal | storeRegs =>
    obtain ⟨memory, -, rfl⟩ := of_map_eq_ok heffect
    exact goesOn_of_next (by decide) id rfl
  all_goals
    obtain rfl := Except.ok.inj heffect
    exact goesOn_of_next (by decide) id rfl

/-! ## Skips that oppose one another -/

/-- Two instructions skip on opposite conditions on the same operands. -/
def Opposes (ins ins' : Instruction) : Prop :=
  ins'.x = ins.x ∧ match ins.opcode, ins'.opcode with
    | .skipEqByte, .skipNeByte | .skipNeByte, .skipEqByte => ins'.kk = ins.kk
    | .skipEqReg, .skipNeReg | .skipNeReg, .skipEqReg => ins'.y = ins.y
    | .skipKeyDown, .skipKeyUp | .skipKeyUp, .skipKeyDown => True
    | _, _ => False

theorem Opposes.not_jumping (h : ins.Opposes ins') :
    ins.opcode ∉ Opcode.jumping ∧ ins'.opcode ∉ Opcode.jumping := by
  obtain ⟨-, hkind⟩ := h
  split at hkind
  case h_7 => exact hkind.elim
  all_goals
    rename_i hop hop'
    rw [hop, hop']
    exact ⟨by decide, by decide⟩

/-- A skip on a key is completed just when there is such a key. -/
theorem effect_skipKey_iff (hop : op = .skipKeyDown ∨ op = .skipKeyUp) :
    (∃ n, effect ⟨word, op⟩ byte m = .ok n) ↔
      ∃ k : Fin 16, ((m.registers.v.get (x ⟨word, op⟩)).toNat : Int) = k.val := by
  constructor
  · rintro ⟨n, heffect⟩
    rcases hop with rfl | rfl
    all_goals
      obtain ⟨down, hdown, -⟩ := of_map_eq_ok heffect
      obtain ⟨k, hk, -⟩ := Keypad.isDown_eq_ok_iff.mp hdown
      exact ⟨k, hk⟩
  · rintro ⟨k, hk⟩
    have hdown : m.keypad.isDown _ = .ok (m.keypad.down.get k) :=
      Keypad.isDown_eq_ok_iff.mpr ⟨k, hk, rfl⟩
    rcases hop with rfl | rfl
    all_goals
      rw [effect, hdown]
      exact ⟨_, rfl⟩

theorem skips_key_iff {k : Fin 16} (hop : op = .skipKeyDown ∨ op = .skipKeyUp)
    (hk : ((m.registers.v.get (x ⟨word, op⟩)).toNat : Int) = k.val) :
    Skips ⟨word, op⟩ m ↔ m.keypad.down.get k = decide (op = .skipKeyDown) := by
  rcases hop with rfl | rfl
  · exact Keypad.exists_key_iff hk
  · exact Keypad.exists_key_iff hk

/-- Of two skips on the same key, one asks whether it is down and the other whether it is up. -/
theorem effect_of_opposing_keys {word' : Int} {op' : Opcode}
    (hop : op = .skipKeyDown ∨ op = .skipKeyUp) (hop' : op' = .skipKeyDown ∨ op' = .skipKeyUp)
    (hne : op' ≠ op) (hx : x ⟨word', op'⟩ = x ⟨word, op⟩)
    (hregisters : m'.registers = m.registers) (hkeypad : m'.keypad = m.keypad)
    (heffect : ∃ n, effect ⟨word, op⟩ byte m = .ok n) :
    (∃ n, effect ⟨word', op'⟩ byte' m' = .ok n) ∧
      (Skips ⟨word', op'⟩ m' ↔ ¬ Skips ⟨word, op⟩ m) := by
  obtain ⟨k, hk⟩ := (effect_skipKey_iff hop).mp heffect
  have hk' : ((m'.registers.v.get (x ⟨word', op'⟩)).toNat : Int) = k.val := by
    rw [hregisters, hx, hk]
  refine ⟨(effect_skipKey_iff hop').mpr ⟨k, hk'⟩, ?_⟩
  rw [skips_key_iff hop' hk', skips_key_iff hop hk, hkeypad]
  rcases hop with rfl | rfl
  · rw [decide_eq_false hne, decide_eq_true rfl, Bool.not_eq_true]
  · obtain rfl : op' = .skipKeyDown := hop'.resolve_right hne
    rw [decide_eq_true rfl, decide_eq_false (by decide), Bool.not_eq_false]

/-- Where one of two opposing instructions is completed, so is the other on the same registers
and keys, and it skips just when the first one does not. -/
theorem effect_of_opposes (hopposes : ins.Opposes ins') (hregisters : m'.registers = m.registers)
    (hkeypad : m'.keypad = m.keypad) (heffect : ∃ n, ins.effect byte m = .ok n) :
    (∃ n, ins'.effect byte' m' = .ok n) ∧ (ins'.Skips m' ↔ ¬ ins.Skips m) := by
  obtain ⟨word, op⟩ := ins
  obtain ⟨word', op'⟩ := ins'
  obtain ⟨hx, hkind⟩ := hopposes
  split at hkind
  case h_1 hop hop' =>
    obtain rfl : op = .skipEqByte := hop
    obtain rfl : op' = .skipNeByte := hop'
    refine ⟨⟨_, rfl⟩, ?_⟩
    simp only [Skips, hregisters, hx, hkind, ne_eq]
  case h_2 hop hop' =>
    obtain rfl : op = .skipNeByte := hop
    obtain rfl : op' = .skipEqByte := hop'
    refine ⟨⟨_, rfl⟩, ?_⟩
    simp only [Skips, hregisters, hx, hkind, ne_eq, Decidable.not_not]
  case h_3 hop hop' =>
    obtain rfl : op = .skipEqReg := hop
    obtain rfl : op' = .skipNeReg := hop'
    refine ⟨⟨_, rfl⟩, ?_⟩
    simp only [Skips, hregisters, hx, hkind, ne_eq]
  case h_4 hop hop' =>
    obtain rfl : op = .skipNeReg := hop
    obtain rfl : op' = .skipEqReg := hop'
    refine ⟨⟨_, rfl⟩, ?_⟩
    simp only [Skips, hregisters, hx, hkind, ne_eq, Decidable.not_not]
  case h_5 hop hop' =>
    obtain rfl : op = .skipKeyDown := hop
    obtain rfl : op' = .skipKeyUp := hop'
    exact effect_of_opposing_keys (.inl rfl) (.inr rfl) (by decide) hx hregisters hkeypad heffect
  case h_6 hop hop' =>
    obtain rfl : op = .skipKeyUp := hop
    obtain rfl : op' = .skipKeyDown := hop'
    exact effect_of_opposing_keys (.inr rfl) (.inl rfl) (by decide) hx hregisters hkeypad heffect
  case h_7 => exact hkind.elim

end Instruction

/-! ## Steps -/

namespace Processor

variable {p p' q q' : Processor} {ins ins' : Instruction}

/-- Where a step that is not refused goes on, by what it comes to. -/
inductive Continues (p q : Processor) : Option Instruction → Prop
  /-- the word zero does not move the program counter -/
  | halts (hword : p.machine.word = 0)
    (hpc : q.machine.registers.pc = p.machine.registers.pc) : Continues p q none
  /-- any other word moves it as its form says -/
  | completes {ins : Instruction} (hnonzero : p.machine.word ≠ 0)
    (hword : ins.word = p.machine.word) (hform : ins.opcode.HasForm p.machine.word)
    (hgoes : ins.GoesOn p.machine q.machine.registers.pc) : Continues p q (some ins)

theorem continues_of_step {next : Option Instruction} (h : step p = .ok next q) :
    p.Continues q next := by
  have hout := step_outcome p
  rw [h] at hout
  cases hout with
  | halts hup =>
    obtain ⟨-, -, hword⟩ := Machine.word_of_upcoming hup
    exact .halts hword rfl
  | completes hup heffect =>
    obtain ⟨-, -, hnonzero, hword, hadmits⟩ := Machine.word_of_upcoming hup
    exact .completes hnonzero hword ((Opcode.admits_iff_hasForm p.machine.word_lt).mp hadmits)
      (Instruction.goesOn_effect heffect)

theorem Continues.goesOn (h : p.Continues q (some ins)) :
    ins.GoesOn p.machine q.machine.registers.pc := by
  cases h with
  | completes _ _ _ hgoes => exact hgoes

/-- An instruction that opposes one that was completed is completed as well. -/
theorem step_of_opposes (h : step p = .ok (some ins) q) (hopposes : ins.Opposes ins')
    (hup' : p'.machine.upcoming = .ok (some ins'))
    (hregisters : p'.machine.registers = p.machine.registers)
    (hkeypad : p'.machine.keypad = p.machine.keypad) :
    ∃ q', step p' = .ok (some ins') q' ∧ (ins'.Skips p'.machine ↔ ¬ ins.Skips p.machine) := by
  have hout := step_outcome p
  rw [h] at hout
  cases hout with
  | completes hup heffect =>
    obtain ⟨⟨n, heffect'⟩, hskips⟩ :=
      Instruction.effect_of_opposes hopposes hregisters hkeypad ⟨_, heffect⟩
    exact ⟨_, (step_of_effect hup' heffect').1, hskips⟩

/-- **Control flow.** A step that is not refused stays at a word zero, and moves the program
counter as the form of any other word says: to the address of a jump, a call or a return,
and elsewhere to the next instruction or behind it. If it completes one instruction of a pair
that skip on opposite conditions, then the other one is completed on the same registers and
keys as well, and exactly one of the two skips. -/
theorem continues_step {next : Option Instruction} (h : step p = .ok next q) :
    p.Continues q next ∧
    ∀ {ins ins' : Instruction} {p' : Processor}, next = some ins → ins.Opposes ins' →
      p'.machine.upcoming = .ok (some ins') → p'.machine.registers = p.machine.registers →
      p'.machine.keypad = p.machine.keypad →
      ∃ q', step p' = .ok (some ins') q' ∧
        (q.machine.registers.pc = p.machine.registers.pc + 4 ∧
          q'.machine.registers.pc = p.machine.registers.pc + 2 ∨
        q.machine.registers.pc = p.machine.registers.pc + 2 ∧
          q'.machine.registers.pc = p.machine.registers.pc + 4) := by
  refine ⟨continues_of_step h, ?_⟩
  rintro ins ins' p' rfl hopposes hup' hregisters hkeypad
  obtain ⟨q', h', hskips⟩ := step_of_opposes h hopposes hup' hregisters hkeypad
  refine ⟨q', h', ?_⟩
  have hgoes := (continues_of_step h).goesOn
  have hgoes' := (continues_of_step h').goesOn
  have hpc : p'.machine.registers.pc = p.machine.registers.pc := congrArg Registers.pc hregisters
  obtain ⟨hnot, hnot'⟩ := hopposes.not_jumping
  by_cases hskip : ins.Skips p.machine
  · have hstays : ¬ ins'.Skips p'.machine := fun hskip' => hskips.mp hskip' hskip
    exact .inl ⟨hgoes.skips hskip, hpc ▸ hgoes'.next hnot' hstays⟩
  · exact .inr ⟨hgoes.next hnot hskip, hpc ▸ hgoes'.skips (hskips.mpr hskip)⟩

/-- While key 5 is down the word `E19E` skips, and the word `E1A1` in its place does not. -/
theorem continues_step_of_key :
    let machine (low : UInt8) : Machine :=
      { Machine.initial with
        memory := Machine.initial.memory.store Memory.programStart [0x61, 0x05, 0xE1, low] }
    let p (low : UInt8) : Processor :=
      actAll (.ofMachine (machine low) (.ofSource fun _ => 0) (.new false)) [.step, .key 5 true]
    (∃ q, step (p 0x9E) = .ok (some ⟨0xE19E, .skipKeyDown⟩) q ∧
      q.machine.registers.pc = 0x206) ∧
    ∃ q, step (p 0xA1) = .ok (some ⟨0xE1A1, .skipKeyUp⟩) q ∧ q.machine.registers.pc = 0x204 := by
  intro machine p
  -- the facts are computed together, for the machines are the same in all of them
  obtain ⟨hdone, hpc, hv, hkey, hup', hregisters, hkeypad⟩ :
      (p 0x9E).completedBy .step = some ⟨0xE19E, .skipKeyDown⟩ ∧
      (p 0x9E).machine.registers.pc = 0x202 ∧ (p 0x9E).machine.registers.v.get 1 = 5 ∧
      (p 0x9E).machine.keypad.down.get 5 = true ∧
      (p 0xA1).machine.upcoming.toOption = some (some ⟨0xE1A1, .skipKeyUp⟩) ∧
      (p 0xA1).machine.registers = (p 0x9E).machine.registers ∧
      (p 0xA1).machine.keypad = (p 0x9E).machine.keypad := by
    decide +kernel
  have hstep := step_of_completedBy hdone
  have hopposes : Instruction.Opposes ⟨0xE19E, .skipKeyDown⟩ ⟨0xE1A1, .skipKeyUp⟩ := ⟨rfl, trivial⟩
  obtain ⟨hcontinues, hpairs⟩ := continues_step hstep
  obtain ⟨q', hstep', hpcs⟩ :=
    hpairs rfl hopposes (of_toOption_eq_some hup') hregisters hkeypad
  have hskip : Instruction.Skips ⟨0xE19E, .skipKeyDown⟩ (p 0x9E).machine := ⟨5, by
    show (((p 0x9E).machine.registers.v.get 1).toNat : Int) = _
    rw [hv]
    rfl, hkey⟩
  have hfirst := hcontinues.goesOn.skips hskip
  rw [hpc] at hfirst hpcs
  exact ⟨⟨_, hstep, hfirst⟩, q', hstep', by omega⟩

end Processor

end ChipEight
