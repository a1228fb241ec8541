import ChipEight.Proofs.WriteSet

/-!
# Saving registers and restoring them

`Fx55` stores the first registers in a block of memory at `I`, and `Fx65` loads them from
there. Bytes that no completed instruction writes stay what they were, whatever else is done
to the machine (`Processor.byteAt_actAll`). So as long as nothing writes into the block, the
registers that were stored are loaded again (`Processor.Reachable.step_saved`). In the other
direction nothing has to be kept: what was just loaded is stored over itself.
-/

namespace ChipEight

/-- A register after a block of memory was loaded. -/
theorem Registers.get_loadV_bytesAt (r : Registers) (m : Memory) (start length : Nat)
    (k : Fin 16) : (r.loadV (m.bytesAt start length)).v.get k =
      if k.val < length then m.byteAt (start + k.val) else r.v.get k := by
  have hget : (r.loadV (m.bytesAt start length)).v.get k =
      (m.bytesAt start length)[k.val]?.getD (r.v.get k) := by
    simp [loadV, get_eq_getElem]
  rw [hget, Memory.bytesAt, List.getElem?_map]
  by_cases hk : k.val < length
  · rw [if_pos hk, List.getElem?_range hk]
    rfl
  · rw [if_neg hk, List.getElem?_eq_none]
    · rfl
    · rw [List.length_range]
      exact Nat.not_lt.mp hk

/-! ## The two instructions -/

namespace Instruction

variable {ins : Instruction} {byte : UInt8} {m m' : Machine}

/-- A block that fits is stored or loaded. -/
theorem effect_of_fits (byte : UInt8) (hop : ins.opcode = .storeRegs ∨ ins.opcode = .loadRegs)
    (hi : 0 ≤ m.registers.i) (hfits : m.registers.i + (ins.x.val + 1) ≤ 4096) :
    ∃ m', ins.effect byte m = .ok m' := by
  rcases heffect : ins.effect byte m with fault | m'
  · have hrefused := (effect_eq_error_iff hi).mp heffect
    obtain ⟨word, op⟩ := ins
    have hbeyond : 4096 < m.registers.i + ((x ⟨word, op⟩).val + 1) := by
      rcases hop with hop | hop
      · obtain rfl : op = .storeRegs := hop
        exact hrefused.1
      · obtain rfl : op = .loadRegs := hop
        exact hrefused.1
    omega
  · exact ⟨m', rfl⟩

/-- What `Fx65` loads, and what it leaves alone. -/
theorem loads_registers (hop : ins.opcode = .loadRegs) (heffect : ins.effect byte m = .ok m') :
    ∃ start : Nat, m.registers.i = start ∧
      (∀ k ≤ ins.x, m'.registers.v.get k = m.memory.byteAt (start + k.val)) ∧
      (∀ k, ins.x < k → m'.registers.v.get k = m.registers.v.get k) ∧
      m'.registers.i = m.registers.i ∧ m'.memory = m.memory := by
  obtain ⟨word, op⟩ := ins
  obtain rfl : op = .loadRegs := hop
  obtain ⟨bytes, hread, rfl⟩ := of_map_eq_ok heffect
  obtain ⟨start, hstart, -, rfl⟩ := Memory.of_readBlock_eq_ok hread
  -- the loaded registers are only looked at through these two facts
  have hget (k : Fin 16) :=
    m.registers.get_loadV_bytesAt m.memory start ((x ⟨word, .loadRegs⟩).val + 1) k
  have hi : (m.registers.loadV
      (m.memory.bytesAt start ((x ⟨word, .loadRegs⟩).val + 1))).i = m.registers.i := by
    rw [Registers.loadV]
  generalize m.registers.loadV (m.memory.bytesAt start _) = r at hget hi ⊢
  refine ⟨start, hstart, fun k hk => ?_, fun k hk => ?_, hi, rfl⟩
  · exact (hget k).trans (if_pos (Nat.lt_succ_of_le (Fin.le_def.mp hk)))
  · exact (hget k).trans (if_neg (Nat.not_lt.mpr (Fin.lt_def.mp hk)))

end Instruction

/-! ## Bytes that are not written -/

namespace Processor

variable {p q : Processor}

/-- No instruction that a sequence of actions completes writes a byte from `first` to `last`. -/
def Spares (p : Processor) (first last : Int) : List Action → Prop
  | [] => True
  | action :: rest =>
    (∀ ins, p.completedBy action = some ins → ∀ place : Fin 4096, first ≤ place.val →
      place.val ≤ last → ¬ ins.Writes p.machine (.byte place)) ∧
    Spares (p.act action) first last rest

/-- Only two instructions write bytes, and one of them writes three at `I`. -/
theorem spared_of_completedBy {action : Action} {ins done : Instruction} {place : Fin 4096}
    (hdone : p.completedBy action = some ins) (hstore : ins.opcode ≠ .storeRegs)
    (hdecimal : ins.opcode = .decimal → p.machine.registers.i + 2 < place.val)
    (h : p.completedBy action = some done) : ¬ done.Writes p.machine (.byte place) := by
  obtain rfl := Option.some.inj (hdone.symm.trans h)
  rintro (⟨hop, -, hhigh⟩ | ⟨hop, -⟩)
  · have := hdecimal hop
    omega
  · exact hstore hop

/-- An action changes a byte only by completing an instruction that writes it. -/
theorem byteAt_act {action : Action} {place : Fin 4096}
    (hspared : ∀ ins, p.completedBy action = some ins → ¬ ins.Writes p.machine (.byte place)) :
    (p.act action).machine.memory.byteAt place.val = p.machine.memory.byteAt place.val := by
  cases action with
  | step =>
    have hout := step_outcome p
    rw [completedBy] at hspared
    rw [act, after]
    generalize step p = result at hout hspared ⊢
    cases hout with
    | unavailable _ => rfl
    | halts _ => rfl
    | refused _ _ => rfl
    | completes _ heffect =>
      exact Instruction.keeps_effect heffect (.byte place) (hspared _ rfl)
  | key number isDown =>
    obtain ⟨v, keypad, h⟩ := p.machine.after_keyEvent number isDown
    rw [act, h]
  | countDown => rfl
  | halt => rfl
  | log change => rfl

/-- Bytes that are spared are what they were. -/
theorem byteAt_actAll {first last : Int} {actions : List Action}
    (hspares : p.Spares first last actions) (place : Fin 4096) (hfirst : first ≤ place.val)
    (hlast : place.val ≤ last) :
    (p.actAll actions).machine.memory.byteAt place.val = p.machine.memory.byteAt place.val := by
  induction actions generalizing p with
  | nil => rfl
  | cons action rest ih =>
    obtain ⟨hspared, hrest⟩ := hspares
    rw [actAll_cons, ih hrest]
    exact byteAt_act fun ins hins => hspared ins hins place hfirst hlast

/-! ## Stored and loaded again -/

/-- Registers that were stored in a block are loaded from it, if nothing was written into it in
the meantime. -/
theorem step_load_of_spares {store load : Instruction} {stored : Machine} {actions : List Action}
    (hstore : store.opcode = .storeRegs)
    (heffect : store.effect p.draws.next p.machine = .ok stored) (hstored : q.machine = stored)
    (hspares : q.Spares p.machine.registers.i (p.machine.registers.i + store.x.val) actions)
    (hup : (q.actAll actions).machine.upcoming = .ok (some load)) (hload : load.opcode = .loadRegs)
    (hx : load.x = store.x) (hi : (q.actAll actions).machine.registers.i = p.machine.registers.i) :
    ∃ q', step (q.actAll actions) = .ok (some load) q' ∧
      (∀ k ≤ store.x, q'.machine.registers.v.get k = p.machine.registers.v.get k) ∧
      (∀ k, store.x < k →
        q'.machine.registers.v.get k = (q.actAll actions).machine.registers.v.get k) ∧
      q'.machine.registers.i = (q.actAll actions).machine.registers.i ∧
      q'.machine.memory = (q.actAll actions).machine.memory := by
  obtain ⟨start, hstart, hfits, hbytes⟩ := Instruction.stores_registers hstore heffect
  rw [← hstored] at hbytes
  -- the bytes of the block are still the registers that were stored
  have hkept (k : Fin 16) (hk : k ≤ store.x) :
      (q.actAll actions).machine.memory.byteAt (start + k.val) = p.machine.registers.v.get k := by
    have hle := Fin.le_def.mp hk
    rw [← hbytes k hk]
    exact byteAt_actAll hspares ⟨start + k.val, by omega⟩ (by simp only; omega)
      (by simp only; omega)
  generalize q.actAll actions = q at hup hi hkept ⊢
  obtain ⟨loaded, heffect'⟩ := Instruction.effect_of_fits q.draws.next (.inr hload)
    (m := q.machine) (by omega) (by rw [hx]; omega)
  obtain ⟨hstep, hloaded⟩ := step_of_effect hup heffect'
  obtain ⟨start', hstart', hread, hrest, hindex, hmemory⟩ :=
    Instruction.loads_registers hload heffect'
  obtain rfl : start' = start := by omega
  rw [hx] at hread hrest
  rw [← hloaded] at hread hrest hindex hmemory
  exact ⟨_, hstep, fun k hk => (hread k hk).trans (hkept k hk), hrest, hindex, hmemory⟩

/-- Registers that were loaded from a block are stored in it without changing it. -/
theorem step_store_of_loaded {load store : Instruction} {loaded : Machine}
    (hload : load.opcode = .loadRegs)
    (heffect : load.effect p.draws.next p.machine = .ok loaded) (hloaded : q.machine = loaded)
    (hfits : p.machine.registers.i + (load.x.val + 1) ≤ 4096)
    (hup : q.machine.upcoming = .ok (some store)) (hstore : store.opcode = .storeRegs)
    (hx : store.x = load.x) :
    ∃ q', step q = .ok (some store) q' ∧ q'.machine.memory = p.machine.memory := by
  obtain ⟨start, hstart, hread, -, hindex, hmemory⟩ := Instruction.loads_registers hload heffect
  rw [← hloaded] at hread hindex hmemory
  obtain ⟨stored, heffect'⟩ := Instruction.effect_of_fits q.draws.next (.inl hstore)
    (m := q.machine) (by omega) (by rw [hx]; omega)
  obtain ⟨hstep, hstored⟩ := step_of_effect hup heffect'
  obtain ⟨start', hstart', -, hbytes⟩ := Instruction.stores_registers hstore heffect'
  obtain rfl : start' = start := by omega
  rw [hx] at hbytes
  refine ⟨_, hstep, ?_⟩
  rw [hstored, ← hmemory]
  refine Memory.eq_of_byteAt fun place => ?_
  by_cases hinside : start' ≤ place.val ∧ place.val ≤ start' + load.x.val
  · obtain ⟨hlow, hhigh⟩ := hinside
    have hk : (⟨place.val - start', by omega⟩ : Fin 16) ≤ load.x :=
      Fin.le_def.mpr (by simp only; omega)
    have hplace : start' + (place.val - start') = place.val := by omega
    have hstoredByte := hbytes _ hk
    have hloadedByte := hread _ hk
    simp only [hplace] at hstoredByte hloadedByte
    rw [hstoredByte, hloadedByte, hmemory]
  · refine Instruction.keeps_effect heffect' (.byte place) ?_
    rintro (⟨hop, -⟩ | ⟨-, hlow, hhigh⟩)
    · rw [hstore] at hop
      cases hop
    · rw [hx] at hhigh
      omega

/-- **Saving and restoring registers.** A processor that can be reached is at `Fx55` or at
`Fx65`, and the block at `I` fits into memory. Registers that are stored are loaded again by
`Fx65` with the same `x` and `I`, after anything that was done in the meantime, if no
instruction wrote into the block; the other registers, `I` and memory are then left alone. And
`Fx55` right after `Fx65` with the same `x` leaves memory as it was. -/
theorem Reachable.step_saved (h : Reachable p) {first : Instruction}
    (hup : p.machine.upcoming = .ok (some first))
    (hfits : p.machine.registers.i + (first.x.val + 1) ≤ 4096) :
    let r := p.machine.registers
    (first.opcode = .storeRegs → ∃ stored, step p = .ok (some first) stored ∧
      ∀ (actions : List Action) (load : Instruction),
        stored.Spares r.i (r.i + first.x.val) actions →
        (stored.actAll actions).machine.upcoming = .ok (some load) → load.opcode = .loadRegs →
        load.x = first.x → (stored.actAll actions).machine.registers.i = r.i →
        ∃ q, step (stored.actAll actions) = .ok (some load) q ∧
          (∀ k ≤ first.x, q.machine.registers.v.get k = r.v.get k) ∧
          (∀ k, first.x < k → q.machine.registers.v.get k =
            (stored.actAll actions).machine.registers.v.get k) ∧
          q.machine.registers.i = (stored.actAll actions).machine.registers.i ∧
          q.machine.memory = (stored.actAll actions).machine.memory) ∧
    (first.opcode = .loadRegs → ∃ loaded, step p = .ok (some first) loaded ∧
      ∀ store : Instruction, loaded.machine.upcoming = .ok (some store) →
        store.opcode = .storeRegs → store.x = first.x →
        ∃ q, step loaded = .ok (some store) q ∧ q.machine.memory = p.machine.memory) := by
  intro r
  have hi := h.bounded.registers.i_nonneg
  constructor
  · intro hop
    obtain ⟨m, heffect⟩ := Instruction.effect_of_fits p.draws.next (.inl hop) hi hfits
    obtain ⟨hstep, hmachine⟩ := step_of_effect hup heffect
    exact ⟨_, hstep, fun actions load hspares hup' hload hx hindex =>
      step_load_of_spares hop heffect hmachine hspares hup' hload hx hindex⟩
  · intro hop
    obtain ⟨m, heffect⟩ := Instruction.effect_of_fits p.draws.next (.inr hop) hi hfits
    obtain ⟨hstep, hmachine⟩ := step_of_effect hup heffect
    exact ⟨_, hstep, fun store hup' hstore hx =>
      step_store_of_loaded hop heffect hmachine hfits hup' hstore hx⟩

/-- `F155` at the last two bytes of memory keeps `V0 = 7` and `V1 = 9` for `F165`. In between
`V0` is written over, a key goes down, digits are stored elsewhere, and the timers take a
step. -/
theorem step_saved_at_end :
    let machine : Machine :=
      { Machine.initial with
        memory := Machine.initial.memory.store Memory.programStart
          [0x60, 0x07, 0x61, 0x09, 0xAF, 0xFE, 0xF1, 0x55, 0x60, 0x00, 0xA3, 0x00, 0xF0, 0x33,
           0xAF, 0xFE, 0xF1, 0x65] }
    let p : Processor :=
      actAll (.ofMachine machine (.ofSource fun _ => 0) (.new false)) [.step, .step, .step]
    let meantime : List Action := [.step, .step, .key 5 true, .step, .countDown, .step]
    Reachable p ∧ ((p.act .step).actAll meantime).machine.registers.v.get 0 = 0 ∧
    ∃ q, step ((p.act .step).actAll meantime) = .ok (some ⟨0xF165, .loadRegs⟩) q ∧
      q.machine.registers.v.get 0 = 7 ∧ q.machine.registers.v.get 1 = 9 := by
  intro machine p meantime
  have hreachable : Reachable p :=
    (Reachable.start (Machine.ofProgram_of_le (by decide)) _ _).actAll [.step, .step, .step]
  -- the facts are computed together, for the machine is the same in all of them
  obtain ⟨hup₀, hi, hv₀, hv₁, hdone₁, hdone₂, hdone₃, hi₃, hdone₄, hcleared, hup, hi'⟩ :
      p.machine.upcoming.toOption = some (some ⟨0xF155, .storeRegs⟩) ∧
      p.machine.registers.i = 0xFFE ∧
      p.machine.registers.v.get 0 = 7 ∧ p.machine.registers.v.get 1 = 9 ∧
      ((p.act .step).actAll (meantime.take 0)).completedBy .step = some ⟨0x6000, .loadByte⟩ ∧
      ((p.act .step).actAll (meantime.take 1)).completedBy .step = some ⟨0xA300, .loadIndex⟩ ∧
      ((p.act .step).actAll (meantime.take 3)).completedBy .step = some ⟨0xF033, .decimal⟩ ∧
      ((p.act .step).actAll (meantime.take 3)).machine.registers.i = 0x300 ∧
      ((p.act .step).actAll (meantime.take 5)).completedBy .step = some ⟨0xAFFE, .loadIndex⟩ ∧
      ((p.act .step).actAll meantime).machine.registers.v.get 0 = 0 ∧
      ((p.act .step).actAll meantime).machine.upcoming.toOption =
        some (some ⟨0xF165, .loadRegs⟩) ∧
      ((p.act .step).actAll meantime).machine.registers.i = 0xFFE := by
    decide +kernel
  -- nothing has to be computed any more
  clear_value p
  have hfits : p.machine.registers.i + ((Instruction.x ⟨0xF155, .storeRegs⟩).val + 1) ≤ 4096 := by
    rw [hi]
    decide
  have hspares : (p.act .step).Spares 0xFFE (0xFFE + 1) meantime := by
    refine ⟨fun _ h _ _ _ => spared_of_completedBy hdone₁ nofun nofun h,
      fun _ h _ _ _ => spared_of_completedBy hdone₂ nofun nofun h, nofun,
      fun _ h place hlow _ => spared_of_completedBy hdone₃ nofun (fun _ => ?_) h, nofun,
      fun _ h _ _ _ => spared_of_completedBy hdone₄ nofun nofun h, trivial⟩
    -- the digits are stored below the block
    refine Int.lt_of_lt_of_le ?_ hlow
    exact Int.lt_of_le_of_lt (Int.le_of_eq (congrArg (· + 2) hi₃)) (by decide)
  obtain ⟨hsaved, -⟩ := hreachable.step_saved (of_toOption_eq_some hup₀) hfits
  obtain ⟨stored, hstep, hloads⟩ := hsaved rfl
  obtain rfl : p.act .step = stored := by
    rw [act, after, hstep]
  rw [hi] at hloads
  obtain ⟨q, hload, hkept, -⟩ :=
    hloads meantime _ hspares (of_toOption_eq_some hup) rfl rfl hi'
  exact ⟨hreachable, hcleared, q, hload, (hkept 0 (by decide)).trans hv₀,
    (hkept 1 (by decide)).trans hv₁⟩

end Processor

end ChipEight
