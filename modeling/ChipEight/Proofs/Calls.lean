import ChipEight.Proofs.Action

/-!
# Returns match calls

A call puts the address of its own instruction into the first free slot of the
call stack. Nothing ever writes a slot that is in use: a call fills a free one, a
return only frees the last one, and whatever else happens does not look at the
stack. So as long as the stack stays deeper than it was before a call, the slot
of the call keeps its address, whatever is executed, refused or put in from
outside in the meantime, and so do the slots below. The return that leaves this
depth goes on behind the call.
-/

namespace ChipEight

/-! ## Instructions -/

theorem Machine.stack_drawn (m : Machine) (x y : Fin 16) (rows : List UInt8) :
    (m.drawn x y rows).registers.stack = m.registers.stack := by
  simp only [drawn]
  split <;> rfl

namespace Instruction

variable {ins : Instruction} {byte : UInt8} {m m' : Machine}

/-- Only calls and returns touch the call stack. -/
theorem stack_effect (hcall : ins.opcode ≠ .call) (hret : ins.opcode ≠ .ret)
    (heffect : ins.effect byte m = .ok m') : m'.registers.stack = m.registers.stack := by
  obtain ⟨word, opcode⟩ := ins
  cases opcode
  case call => exact absurd rfl hcall
  case ret => exact absurd rfl hret
  case draw =>
    obtain ⟨rows, -, rfl⟩ := of_map_eq_ok heffect
    exact Machine.stack_drawn m _ _ rows
  case loadRegs =>
    obtain ⟨bytes, -, rfl⟩ := of_map_eq_ok heffect
    rw [Machine.withRegisters, Registers.next, Registers.loadV]
  case skipKeyDown | skipKeyUp | decimal | storeRegs =>
    obtain ⟨_, -, rfl⟩ := of_map_eq_ok heffect
    rfl
  all_goals
    obtain rfl := Except.ok.inj heffect
    rfl

/-- A call that is completed fills the first free slot with its address. -/
theorem effect_call (hcall : ins.opcode = .call) (heffect : ins.effect byte m = .ok m') :
    ∃ k : Fin 16, m.registers.stack.depth = k ∧
      m'.registers.stack.slots =
        fill m.registers.stack.slots k (UInt16.ofNat m.registers.pc.toNat) ∧
      m'.registers.stack.depth = k + 1 := by
  obtain ⟨word, opcode⟩ := ins
  obtain rfl : opcode = .call := hcall
  obtain ⟨r, hpush, rfl⟩ := of_map_eq_ok heffect
  obtain ⟨k, hdepth, hslots, hdepth', -⟩ := Registers.of_push_eq_ok hpush
  exact ⟨k, hdepth, hslots, hdepth'⟩

/-- A return that is completed goes on behind the address in the last slot in use,
and the slots stay as they are. -/
theorem effect_ret (hret : ins.opcode = .ret) (heffect : ins.effect byte m = .ok m') :
    ∃ k : Fin 16, m.registers.stack.depth = k + 1 ∧
      m'.registers.pc = (m.registers.stack.slots.get k).toNat + 2 ∧
      m'.registers.stack.slots = m.registers.stack.slots ∧
      m'.registers.stack.depth = k := by
  obtain ⟨word, opcode⟩ := ins
  obtain rfl : opcode = .ret := hret
  obtain ⟨⟨address, r⟩, hpop, rfl⟩ := of_map_eq_ok heffect
  obtain ⟨k, hdepth, haddress, hslots, hdepth', -⟩ := Registers.of_pop_eq_ok hpop
  refine ⟨k, hdepth, ?_, hslots, hdepth'⟩
  rw [← haddress]
  rfl

/-- No instruction writes a slot that is in use. -/
theorem slot_effect {j : Fin 16} (hused : j.val < m.registers.stack.depth)
    (heffect : ins.effect byte m = .ok m') :
    m'.registers.stack.slots.get j = m.registers.stack.slots.get j := by
  by_cases hcall : ins.opcode = .call
  · obtain ⟨k, hdepth, hslots, -⟩ := effect_call hcall heffect
    have hne : k ≠ j := by
      rintro rfl
      omega
    rw [hslots, get_fill, if_neg hne]
  by_cases hret : ins.opcode = .ret
  · obtain ⟨k, -, -, hslots, -⟩ := effect_ret hret heffect
    rw [hslots]
  · rw [stack_effect hcall hret heffect]

/-- A call with a free slot is completed. -/
theorem effect_call_of_free (byte : UInt8) (hcall : ins.opcode = .call)
    (hfree : m.registers.stack.depth < 16) : ∃ m', ins.effect byte m = .ok m' := by
  obtain ⟨word, opcode⟩ := ins
  obtain rfl : opcode = .call := hcall
  rw [effect, Registers.push, CallStack.push?, dif_pos hfree]
  exact ⟨_, rfl⟩

/-- A return with a slot in use is completed. -/
theorem effect_ret_of_used (byte : UInt8) (hret : ins.opcode = .ret)
    (hused : 0 < m.registers.stack.depth) : ∃ m', ins.effect byte m = .ok m' := by
  obtain ⟨word, opcode⟩ := ins
  obtain rfl : opcode = .ret := hret
  rw [effect, Registers.pop, CallStack.pop?, dif_pos hused]
  exact ⟨_, rfl⟩

end Instruction

/-! ## Actions -/

namespace Processor

variable {p : Processor}

/-- A step that completes an instruction leaves the machine to its effect. -/
theorem step_of_effect {ins : Instruction} {machine : Machine}
    (hup : p.machine.upcoming = .ok (some ins))
    (heffect : ins.effect p.draws.next p.machine = .ok machine) :
    step p = .ok (some ins) (p.act .step) ∧ (p.act .step).machine = machine := by
  have hstep := step_eq p
  simp only [hup, heffect] at hstep
  rw [act, after, hstep]
  exact ⟨rfl, rfl⟩

/-- A key event leaves the call stack alone. -/
theorem stack_keyEvent (m : Machine) (number : Int) (isDown : Bool) :
    (after (Machine.keyEvent number isDown) m).registers.stack = m.registers.stack := by
  obtain ⟨v, keypad, h⟩ := m.after_keyEvent number isDown
  rw [h]

/-- No action writes a slot that is in use. -/
theorem slot_act {j : Fin 16} (hused : j.val < p.machine.registers.stack.depth) (action : Action) :
    (p.act action).machine.registers.stack.slots.get j =
      p.machine.registers.stack.slots.get j := by
  cases action with
  | step =>
    have hout := step_outcome p
    rw [act, after]
    generalize step p = result at hout ⊢
    cases hout with
    | unavailable _ => rfl
    | halts _ => rfl
    | refused _ _ => rfl
    | completes _ heffect => exact Instruction.slot_effect hused heffect
  | key number isDown => rw [act, stack_keyEvent]
  | countDown => rfl
  | halt => rfl
  | log change => rfl

/-- Slots that are in use all the time keep their addresses over any sequence of
actions. -/
theorem slot_actAll {j : Fin 16} {actions : List Action}
    (hused : ∀ q ∈ actions.scanl act p, j.val < q.machine.registers.stack.depth) :
    (p.actAll actions).machine.registers.stack.slots.get j =
      p.machine.registers.stack.slots.get j := by
  induction actions generalizing p with
  | nil => rfl
  | cons action rest ih =>
    rw [List.scanl_cons] at hused
    obtain ⟨hfirst, hrest⟩ := List.forall_mem_cons.mp hused
    rw [actAll_cons, ih hrest, slot_act hfirst action]

/-- **Returns match calls.** Take a processor at a call, with `k` of the sixteen
slots in use, and let anything be done to it after the call as long as the stack
stays deeper than `k`. A return at depth `k + 1` is then completed and goes on
behind that call, with `k` slots in use that hold what they held before it. -/
theorem step_ret_of_call {call ret : Instruction} {k : Nat} {actions : List Action}
    (hcall : p.machine.upcoming = .ok (some call)) (hopcode : call.opcode = .call)
    (hdepth : p.machine.registers.stack.depth = k) (hfree : k < 16)
    (hinside : ∀ q ∈ actions.scanl act (p.act .step), k + 1 ≤ q.machine.registers.stack.depth)
    (hret : ((p.act .step).actAll actions).machine.upcoming = .ok (some ret))
    (hopcode' : ret.opcode = .ret)
    (hdepth' : ((p.act .step).actAll actions).machine.registers.stack.depth = k + 1) :
    step p = .ok (some call) (p.act .step) ∧
    ∃ q, step ((p.act .step).actAll actions) = .ok (some ret) q ∧
      q.machine.registers.pc = p.machine.registers.pc + 2 ∧
      q.machine.registers.stack.depth = k ∧
      ∀ j : Fin 16, j.val < k → q.machine.registers.stack.slots.get j =
        p.machine.registers.stack.slots.get j := by
  -- the call fills slot `k` with its own address, which fits
  have hroom : p.machine.registers.stack.depth < 16 := by omega
  obtain ⟨called, heffect⟩ := Instruction.effect_call_of_free p.draws.next hopcode hroom
  obtain ⟨hstep, hcalled⟩ := step_of_effect hcall heffect
  obtain ⟨slot, hslot, hslots, -⟩ := Instruction.effect_call hopcode heffect
  obtain rfl : slot.val = k := hslot.symm.trans hdepth
  rw [← hcalled] at hslots
  obtain ⟨hlow, hhigh⟩ := Machine.inBounds_of_upcoming hcall
  have haddress : ((UInt16.ofNat p.machine.registers.pc.toNat).toNat : Int) =
      p.machine.registers.pc := by
    rw [Memory.size] at hhigh
    exact Registers.toNat_slot hlow (by omega)
  -- it and the slots below it are in use until the return
  have hkept : ∀ j : Fin 16, j.val < slot.val + 1 →
      ((p.act .step).actAll actions).machine.registers.stack.slots.get j =
        (fill p.machine.registers.stack.slots slot
          (UInt16.ofNat p.machine.registers.pc.toNat)).get j := by
    intro j hj
    rw [slot_actAll fun q hq => Nat.lt_of_lt_of_le hj (hinside q hq), hslots]
  -- the return takes the address back from slot `k`
  have hused : 0 < ((p.act .step).actAll actions).machine.registers.stack.depth := by omega
  obtain ⟨returned, heffect'⟩ := Instruction.effect_ret_of_used
    ((p.act .step).actAll actions).draws.next hopcode' hused
  obtain ⟨hstep', hreturned⟩ := step_of_effect hret heffect'
  obtain ⟨last, hlast, hpc, hsame, hleft⟩ := Instruction.effect_ret hopcode' heffect'
  obtain rfl : last = slot := Fin.ext (by omega)
  refine ⟨hstep, _, hstep', ?_, ?_, ?_⟩
  · rw [hreturned, hpc, hkept last (Nat.lt_succ_self _), get_fill, if_pos rfl, haddress]
  · rw [hreturned, hleft]
  · intro j hj
    have hne : last ≠ j := by
      rintro rfl
      exact absurd hj (Nat.lt_irrefl _)
    rw [hreturned, hsame, hkept j (Nat.lt_succ_of_lt hj), get_fill, if_neg hne]

/-- The return that matches the call at `0x204`, which is itself made inside another
call. In between there are a further call with its return, a wait for a key, a key
that does not exist and one that does. -/
theorem step_ret_of_call_nested :
    let machine : Machine :=
      { Machine.initial with
        memory := Memory.blank.store Memory.programStart
          [0x22, 0x04, 0x00, 0x00, 0x22, 0x0A, 0x00, 0xEE, 0x00, 0x00, 0x22, 0x10, 0x00, 0xEE,
           0x00, 0x00, 0xF1, 0x0A, 0x00, 0xEE] }
    let p : Processor := act (.ofMachine machine (.ofSource fun _ => 0) (.new false)) .step
    let inside : List Action := [.step, .step, .key 99 true, .key 5 true, .countDown, .step]
    p.machine.registers.pc = 0x204 ∧ p.machine.registers.stack.depth = 1 ∧
    ∃ q, step ((p.act .step).actAll inside) = .ok (some ⟨0x00EE, .ret⟩) q ∧
      q.machine.registers.pc = 0x206 ∧ q.machine.registers.stack.depth = 1 ∧
      q.machine.registers.stack.slots.get 0 = 0x200 := by
  intro machine p inside
  -- the facts are computed together, for the machine is the same in all of them
  obtain ⟨hpc, hdepth, hslot, hcall, hinside, hret, hdepth'⟩ :
      p.machine.registers.pc = 0x204 ∧ p.machine.registers.stack.depth = 1 ∧
      p.machine.registers.stack.slots.get 0 = 0x200 ∧
      p.machine.upcoming.toOption = some (some ⟨0x220A, .call⟩) ∧
      (∀ q ∈ inside.scanl act (p.act .step), 1 + 1 ≤ q.machine.registers.stack.depth) ∧
      ((p.act .step).actAll inside).machine.upcoming.toOption = some (some ⟨0x00EE, .ret⟩) ∧
      ((p.act .step).actAll inside).machine.registers.stack.depth = 1 + 1 := by
    decide +kernel
  obtain ⟨-, q, hstep, hpc', hdepth'', hslots⟩ :=
    step_ret_of_call (of_toOption_eq_some hcall) rfl hdepth (by decide) hinside
      (of_toOption_eq_some hret) rfl hdepth'
  refine ⟨hpc, hdepth, q, hstep, ?_, hdepth'', ?_⟩
  · exact hpc'.trans (congrArg (· + 2) hpc)
  · exact (hslots 0 (by decide)).trans hslot

end Processor

end ChipEight
