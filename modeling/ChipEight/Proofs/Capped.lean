import ChipEight.Proofs.Events
import ChipEight.Proofs.Lockstep

/-!
# Runs with a cap

A run ticks until the machine halts, or until its cap is reached. How often it has ticked
cannot be seen from the pacer that it leaves. So its loop is taken with any turn in place of
the tick (`Pacing.runWith`), and the turn is a tick that is put on record
(`Pacing.recordedTick`). The record has one entry for each tick and does nothing else to the
run (`Pacing.turnsFrom_recordedTick`).

The cap is looked at after a tick only (`Pacing.run_tick`). So every cap is kept but zero:
there the run ticks once, as with a cap of one (`Pacing.run_keepsCap_iff`).

A run without a cap need not come to an end. If it does, it comes to what runs with a cap come
to once the cap is large enough (`Pacing.runsOut_iff`).

A run can be cut in two at any tick (`Pacing.runFrom_add`). When the machine has halted in
the first part, the second part does nothing, for a tick of a machine that has halted leaves
the pacer as it is. So runs compose, with their caps and their counts added
(`Pacing.run_add`).
-/

namespace ChipEight

namespace Pacing

/-! ## The loop of a run -/

section Loop

variable {σ : Type}

/-- Take turns until one says that it was the last one, but at most the given number of
them; `done` were taken before. -/
def turnsFrom (turn : EStateM Error σ Bool) (done : Nat) : Nat → EStateM Error σ Nat
  | 0 => return done
  | more + 1 => do
    if ← turn then
      turnsFrom turn (done + 1) more
    else
      return done

/-- A run with any turn in place of the tick. -/
def runWith (turn : EStateM Error σ Bool) (cap : Int) : EStateM Error σ Nat :=
  turnsFrom turn 0 (max cap 1).toNat

theorem turnsFrom_succ (turn : EStateM Error σ Bool) (done more : Nat) (s : σ) :
    turnsFrom turn done (more + 1) s = match turn s with
      | .error error t => .error error t
      | .ok true t => turnsFrom turn (done + 1) more t
      | .ok false t => .ok done t := by
  rw [turnsFrom, bind_run]
  rcases turn s with ⟨_ | _, t⟩ | ⟨error, t⟩
  · rfl
  · rfl
  · rfl

end Loop

variable {κ τ : Type} [Clock κ τ] [Add τ] [LE τ] [DecidableLE τ] {p q : Pacer κ τ}

theorem turnsFrom_tick (done more : Nat) (p : Pacer κ τ) :
    turnsFrom tick done more p = runFrom done more p := by
  induction more generalizing done p with
  | zero => rfl
  | succ more ih =>
    rw [turnsFrom_succ, runFrom_succ]
    rcases (tick : Pacing κ τ Bool) p with ⟨_ | _, q⟩ | ⟨error, q⟩
    · rfl
    · exact ih (done + 1) q
    · rfl

/-- A run is its loop with the tick for a turn. -/
theorem runWith_tick (cap : Int) (p : Pacer κ τ) : runWith tick cap p = run cap p :=
  turnsFrom_tick 0 _ p

/-! ## The ticks of a run -/

/-- A tick that is put on record: what it has said, or nothing if it was refused. -/
def recordedTick : EStateM Error (Pacer κ τ × List (Option Bool)) Bool := fun (p, record) =>
  match (tick : Pacing κ τ Bool) p with
  | .ok running q => .ok running (q, record ++ [some running])
  | .error error q => .error error (q, record ++ [none])

/-- A result with a record beside the pacer. -/
def beside {α : Type} (record : List (Option Bool)) :
    EStateM.Result Error (Pacer κ τ) α → EStateM.Result Error (Pacer κ τ × List (Option Bool)) α
  | .ok a q => .ok a (q, record)
  | .error error q => .error error (q, record)

/-- Putting the ticks of a loop on record changes nothing else. The record grows by one entry
for each turn, and the count is the number of those that left the machine running. -/
theorem turnsFrom_recordedTick (done more : Nat) (p : Pacer κ τ) (before : List (Option Bool)) :
    ∃ record : List (Option Bool),
      turnsFrom recordedTick done more (p, before) =
        beside (before ++ record) (runFrom done more p) ∧
      record.length ≤ more ∧ (0 < more → 0 < record.length) ∧
      ∀ {count q}, (runFrom done more : Pacing κ τ Nat) p = .ok count q →
        count = done + record.count (some true) := by
  induction more generalizing done p before with
  | zero =>
    refine ⟨[], ?_, Nat.le_refl 0, fun h => absurd h (Nat.lt_irrefl 0), ?_⟩
    · rw [List.append_nil]
      rfl
    · intro count q hrun
      obtain ⟨rfl, -⟩ := EStateM.Result.ok.inj hrun
      rfl
  | succ more ih =>
    rw [turnsFrom_succ, runFrom_succ, recordedTick]
    rcases (tick : Pacing κ τ Bool) p with ⟨_ | _, q⟩ | ⟨error, q⟩
    · refine ⟨[some false], rfl, Nat.le_add_left 1 more, fun _ => Nat.one_pos, ?_⟩
      intro count r hrun
      obtain ⟨rfl, -⟩ := EStateM.Result.ok.inj hrun
      rfl
    · obtain ⟨record, hturns, hlength, -, hcount⟩ := ih (done + 1) q (before ++ [some true])
      refine ⟨some true :: record, ?_, Nat.succ_le_succ hlength, fun _ => Nat.succ_pos _, ?_⟩
      · rw [← List.append_cons] at hturns
        exact hturns
      · intro count r hrun
        rw [hcount hrun, List.count_cons_self]
        omega
    · refine ⟨[none], rfl, Nat.le_add_left 1 more, fun _ => Nat.one_pos, ?_⟩
      intro count r hrun
      cases hrun

/-- A run keeps its cap: it makes no more ticks than that, and it returns no higher number.
The number says how many of the ticks left the machine running. -/
structure KeepsCap (cap : Nat) (record : List (Option Bool))
    (result : EStateM.Result Error (Pacer κ τ) Nat) : Prop where
  ticks : record.length ≤ cap
  le_cap : ∀ {count q}, result = .ok count q → count ≤ cap
  count : ∀ {count q}, result = .ok count q → count = record.count (some true)

/-- **The cap of a run.** Each tick of a run is put on record, and otherwise the run is the
same. The number that it returns is always that of the ticks that left the machine running.
Every cap is kept except zero, where the run is one with a cap of one, and there is a tick. -/
theorem run_keepsCap_iff (cap : Nat) (p : Pacer κ τ) :
    runWith tick cap p = run cap p ∧ ∃ record : List (Option Bool),
      runWith recordedTick cap (p, []) = beside record (run cap p) ∧
      (KeepsCap cap record ((run cap : Pacing κ τ Nat) p) ↔ 1 ≤ cap) ∧
      (∀ {count q}, (run cap : Pacing κ τ Nat) p = .ok count q →
        count = record.count (some true)) ∧
      (cap = 0 → record.length = 1 ∧ (run cap : Pacing κ τ Nat) p = run 1 p) := by
  have hmost : (max (cap : Int) 1).toNat = max cap 1 := by omega
  obtain ⟨record, hturns, hlength, hsome, hcount⟩ :=
    turnsFrom_recordedTick 0 (max (cap : Int) 1).toNat p []
  rw [hmost] at hlength hsome
  have hone : 0 < record.length := hsome (by omega)
  have hnumber {count : Nat} {q : Pacer κ τ} (hrun : (run cap : Pacing κ τ Nat) p = .ok count q) :
      count = record.count (some true) := by
    rw [hcount hrun, Nat.zero_add]
  refine ⟨runWith_tick cap p, record, hturns,
    ⟨fun hkeeps => Nat.le_trans hone hkeeps.ticks, fun hpos => ?_⟩, hnumber, ?_⟩
  · have hticks : record.length ≤ cap := by omega
    refine ⟨hticks, fun hrun => ?_, hnumber⟩
    rw [hnumber hrun]
    exact Nat.le_trans List.count_le_length hticks
  · rintro rfl
    exact ⟨by omega, rfl⟩

/-- With a cap of zero a program that jumps on the spot is ticked once, and the run returns
one. -/
theorem run_zero_ticks :
    let machine : Machine :=
      { Machine.initial with memory := Memory.blank.store Memory.programStart [0x12, 0x00] }
    let p : Pacer (HandClock Nat) Nat :=
      .new (.ofMachine machine (.ofSource fun _ => 0) (.new false)) ⟨0, 1⟩ 2 3
    ∃ (q : Pacer (HandClock Nat) Nat) (record : List (Option Bool)),
      (run 0 : Pacing (HandClock Nat) Nat Nat) p = .ok 1 q ∧
      runWith recordedTick 0 (p, []) = .ok 1 (q, record) ∧ record.length = 1 ∧
      ¬ KeepsCap 0 record ((run 0 : Pacing (HandClock Nat) Nat Nat) p) := by
  intro machine p
  have hcount : (answer (run 0) p).toOption = some 1 := by decide +kernel
  have hrun := run_of_answer hcount
  obtain ⟨record, hturns, hlength, hsome, -⟩ := turnsFrom_recordedTick 0 1 p []
  have hone : record.length = 1 := by omega
  refine ⟨_, record, hrun, hturns.trans (congrArg (beside record) hrun), hone, fun hkeeps => ?_⟩
  exact absurd (hkeeps.le_cap hrun) (by decide)

/-! ## Runs without a cap -/

section RunsOut

variable {result : EStateM.Result Error (Pacer κ τ) Nat} {done : Nat}

/-- A run that ends by itself is not cut short by a cap that is large enough. -/
theorem RunsOut.exists_runFrom (h : RunsOut done p result) :
    ∃ least, ∀ more, least ≤ more → (runFrom done more : Pacing κ τ Nat) p = result := by
  induction h with
  | halted htick | refused htick =>
    refine ⟨1, fun more hmore => ?_⟩
    obtain ⟨more, rfl⟩ := Nat.exists_eq_add_of_le' hmore
    rw [runFrom_succ, htick]
  | ticks htick _ ih =>
    obtain ⟨least, hruns⟩ := ih
    refine ⟨least + 1, fun more hmore => ?_⟩
    obtain ⟨more, rfl⟩ := Nat.exists_eq_add_of_le' (Nat.le_trans (Nat.le_add_left 1 least) hmore)
    rw [runFrom_succ, htick]
    exact hruns more (Nat.le_of_succ_le_succ hmore)

/-- A run that more ticks would not change has ended by itself. -/
theorem runsOut_of_runFrom {least : Nat}
    (h : ∀ more, least ≤ more → (runFrom done more : Pacing κ τ Nat) p = result) :
    RunsOut done p result := by
  induction least generalizing done p with
  | zero =>
    have hnone := h 0 (Nat.le_refl 0)
    have hone := h 1 (Nat.zero_le 1)
    rw [runFrom_zero] at hnone
    rw [runFrom_succ] at hone
    rcases htick : (tick : Pacing κ τ Bool) p with ⟨_ | _, q⟩ | ⟨error, q⟩
    · rw [htick] at hone
      exact hone ▸ .halted htick
    · -- one tick more would be counted
      rw [htick, ← hnone] at hone
      obtain ⟨hcount, -⟩ := EStateM.Result.ok.inj hone
      omega
    · rw [htick] at hone
      exact hone ▸ .refused htick
  | succ least ih =>
    have hmore := h (least + 1) (Nat.le_refl _)
    rw [runFrom_succ] at hmore
    rcases htick : (tick : Pacing κ τ Bool) p with ⟨_ | _, q⟩ | ⟨error, q⟩
    · rw [htick] at hmore
      exact hmore ▸ .halted htick
    · refine .ticks htick (ih fun more hleast => ?_)
      have hnext := h (more + 1) (Nat.succ_le_succ hleast)
      rwa [runFrom_succ, htick] at hnext
    · rw [htick] at hmore
      exact hmore ▸ .refused htick

/-- **A run without a cap** comes to what runs come to whose cap is large enough, and it comes to
no end when there is no such cap. -/
theorem runsOut_iff : RunsOut done p result ↔
    ∃ least, ∀ more, least ≤ more → (runFrom done more : Pacing κ τ Nat) p = result :=
  ⟨RunsOut.exists_runFrom, fun ⟨_, h⟩ => runsOut_of_runFrom h⟩

end RunsOut

/-! ## Runs one after the other -/

theorem tick_of_halted (h : p.halted = true) : (tick : Pacing κ τ Bool) p = .ok false p := by
  rw [tick_run, if_pos h]

theorem runFrom_of_halted (h : p.halted = true) (done more : Nat) :
    (runFrom done more : Pacing κ τ Nat) p = .ok done p := by
  cases more with
  | zero => rfl
  | succ more => rw [runFrom_succ, tick_of_halted h]

/-- A run without a cap ends at once when the machine has halted. -/
theorem runsOut_of_halted (h : p.halted = true) (done : Nat)
    (result : EStateM.Result Error (Pacer κ τ) Nat) :
    RunsOut done p result ↔ result = .ok done p := by
  rw [runsOut_iff]
  constructor
  · rintro ⟨least, hruns⟩
    rw [← hruns least (Nat.le_refl _), runFrom_of_halted h]
  · rintro rfl
    exact ⟨0, fun more _ => runFrom_of_halted h done more⟩

/-- The ticks of a run can be made in two parts. -/
theorem runFrom_add (done first rest : Nat) (p : Pacer κ τ) :
    (runFrom done (first + rest) : Pacing κ τ Nat) p =
      (runFrom done first >>= fun count => runFrom count rest : Pacing κ τ Nat) p := by
  induction first generalizing done p with
  | zero => rw [Nat.zero_add, bind_run, runFrom_zero]
  | succ first ih =>
    rw [Nat.succ_add, bind_run, runFrom_succ, runFrom_succ]
    rcases htick : (tick : Pacing κ τ Bool) p with ⟨_ | _, q⟩ | ⟨error, q⟩
    · -- the machine has halted in the first part, and the second part does nothing
      exact (runFrom_of_halted (Pacer.halted_of_tick htick) done rest).symm
    · exact ih (done + 1) q
    · rfl

/-- What was done before is added to the count. -/
theorem runFrom_add_left (before done more : Nat) (p : Pacer κ τ) :
    (runFrom (before + done) more : Pacing κ τ Nat) p =
      (runFrom done more >>= fun count => pure (before + count) : Pacing κ τ Nat) p := by
  induction more generalizing done p with
  | zero => rfl
  | succ more ih =>
    rw [bind_run, runFrom_succ, runFrom_succ]
    rcases (tick : Pacing κ τ Bool) p with ⟨_ | _, q⟩ | ⟨error, q⟩
    · rfl
    · exact ih (done + 1) q
    · rfl

/-- A run told as a loop: after each tick that left the machine running the cap is looked at,
and one tick is taken off it. -/
theorem run_tick (cap : Int) (p : Pacer κ τ) :
    (run cap : Pacing κ τ Nat) p =
      (do if ← tick then
            if cap ≤ 1 then
              return 1
            else
              let count ← run (cap - 1)
              return 1 + count
          else
            return 0 : Pacing κ τ Nat) p := by
  rw [run, bind_run]
  by_cases hlast : cap ≤ 1
  · have hone : (max cap 1).toNat = 1 := by omega
    rw [hone, runFrom_succ]
    rcases (tick : Pacing κ τ Bool) p with ⟨_ | _, q⟩ | ⟨error, q⟩
    · rfl
    · simp only [if_pos hlast]
      rfl
    · rfl
  · have hmore : (max cap 1).toNat = (max (cap - 1) 1).toNat + 1 := by omega
    rw [hmore, runFrom_succ]
    rcases (tick : Pacing κ τ Bool) p with ⟨_ | _, q⟩ | ⟨error, q⟩
    · rfl
    · simp only [if_neg hlast]
      exact runFrom_add_left 1 0 _ q
    · rfl

/-- **Runs compose.** A run and another one after it are a single run: the caps and the counts
are added, the pacer that is left is the same, and so is the error, if there is one. When the
machine has halted in the first run, the second one returns zero and changes nothing. -/
theorem run_add {a b : Int} (ha : 1 ≤ a) (hb : 1 ≤ b) (p : Pacer κ τ) :
    (run (a + b) : Pacing κ τ Nat) p =
      (do let first ← run a
          let second ← run b
          return first + second : Pacing κ τ Nat) p ∧
    ∀ {count q}, (run a : Pacing κ τ Nat) p = .ok count q → q.halted = true →
      (run b : Pacing κ τ Nat) q = .ok 0 q := by
  have hsum : (max (a + b) 1).toNat = (max a 1).toNat + (max b 1).toNat := by omega
  refine ⟨?_, fun _ hhalted => runFrom_of_halted hhalted 0 _⟩
  have hfirst : (run a : Pacing κ τ Nat) p = runFrom 0 (max a 1).toNat p := rfl
  rw [run, hsum, runFrom_add, bind_run, bind_run, hfirst]
  rcases (runFrom 0 (max a 1).toNat : Pacing κ τ Nat) p with ⟨count, q⟩ | ⟨error, q⟩
  · exact runFrom_add_left count 0 _ q
  · rfl

/-- The second instruction of a program halts the machine in the first run. -/
theorem run_add_of_halt :
    let machine : Machine :=
      { Machine.initial with
        memory := Memory.blank.store Memory.programStart [0x60, 0x01, 0x00, 0x00] }
    let p : Pacer (HandClock Nat) Nat :=
      .new (.ofMachine machine (.ofSource fun _ => 0) (.new false)) ⟨0, 1⟩ 1 3
    (1 : Int) ≤ 2 ∧ (1 : Int) ≤ 3 ∧ ∃ q : Pacer (HandClock Nat) Nat, q.halted = true ∧
      (run 2 : Pacing (HandClock Nat) Nat Nat) p = .ok 1 q ∧
      (run 3 : Pacing (HandClock Nat) Nat Nat) q = .ok 0 q ∧
      (run 5 : Pacing (HandClock Nat) Nat Nat) p = .ok 1 q := by
  intro machine p
  obtain ⟨hsum, hlater⟩ := run_add (a := 2) (b := 3) (by decide) (by decide) p
  obtain ⟨hcount, hhalted⟩ : (answer (run 2) p).toOption = some 1 ∧
      (after (run 2 : Pacing (HandClock Nat) Nat Nat) p).halted = true := by
    decide +kernel
  have hfirst := run_of_answer hcount
  have hsecond := hlater hfirst hhalted
  refine ⟨by decide, by decide, _, hhalted, hfirst, hsecond, ?_⟩
  refine hsum.trans ?_
  simp only [bind_run, hfirst, hsecond]
  rfl

end Pacing

end ChipEight
