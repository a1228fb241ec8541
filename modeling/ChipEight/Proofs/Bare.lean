import ChipEight.Proofs.Alike
import ChipEight.Proofs.Happening

/-!
# A window adds nothing to the emulation

A window is driven by ticks, drawings and keys of the host, a bare pacer by ticks and
posted events. Each happening stands for operations of a bare pacer: a tick for a tick,
a key for the event that it means, if it means one, and a drawing for nothing
(`Window.Happening.operations`). A window and a bare pacer that go through these side by
side stay alike, as long as the window is open (`Window.Tracks`), and what a further
tick of the window comes to is settled by what the bare tick comes to
(`Window.Follows`).

So the scale, the sound and the drawings do not take part in the emulation: two windows
whose happenings stand for the same operations are open or closed together, and alike
when they are open.
-/

namespace ChipEight

/-! ## Keys of the host -/

namespace HostKey

/-- The event that pressing a key of the host means. Keys that are not listed mean
none. -/
inductive Presses : HostKey → Event → Prop
  | pad {c : Char} {number : Nat} (h : (c, number) ∈ layout) : Presses (.char c) (.key number true)
  | pause : Presses .space (.control .pause)
  | step : Presses (.char 'P') (.control .step)
  | quit : Presses .escape (.control .quit)

/-- The event that letting go of a key of the host means. -/
inductive Releases : HostKey → Event → Prop
  | pad {c : Char} {number : Nat} (h : (c, number) ∈ layout) :
    Releases (.char c) (.key number false)

/-- No key of the host stands for two keys of the keypad. -/
theorem lookup_of_mem {entry : Char × Nat} (h : entry ∈ layout) :
    layout.lookup entry.1 = some entry.2 := by
  revert entry
  decide

theorem mem_of_lookup {c : Char} {number : Nat} (h : layout.lookup c = some number) :
    (c, number) ∈ layout := by
  obtain ⟨first, rest, hlayout, -⟩ := List.lookup_eq_some_iff.mp h
  rw [hlayout]
  exact List.mem_append_right first List.mem_cons_self

theorem pressEvent?_eq_some_iff {key : HostKey} {event : Event} :
    key.pressEvent? = some event ↔ key.Presses event := by
  constructor
  · intro h
    cases key with
    | space =>
      obtain rfl := Option.some.inj h
      exact .pause
    | escape =>
      obtain rfl := Option.some.inj h
      exact .quit
    | f1 | other => cases h
    | char c =>
      have hpad : (char c).pad? = layout.lookup c := rfl
      rw [pressEvent?, hpad] at h
      rcases hlookup : layout.lookup c with _ | number
      · rw [hlookup] at h
        by_cases hstep : c = 'P'
        · subst hstep
          obtain rfl := Option.some.inj h
          exact .step
        · simp [control?, hstep] at h
      · rw [hlookup] at h
        obtain rfl := Option.some.inj h
        exact .pad (mem_of_lookup hlookup)
  · intro h
    cases h with
    | @pad c number hlayout =>
      have hpad : (char c).pad? = some number := lookup_of_mem hlayout
      rw [pressEvent?, hpad]
    | pause | step | quit => rfl

theorem releaseEvent?_eq_some_iff {key : HostKey} {event : Event} :
    key.releaseEvent? = some event ↔ key.Releases event := by
  constructor
  · intro h
    cases key with
    | space | escape | f1 | other => cases h
    | char c =>
      have hpad : (char c).pad? = layout.lookup c := rfl
      rw [releaseEvent?, hpad] at h
      rcases hlookup : layout.lookup c with _ | number
      · rw [hlookup] at h
        cases h
      · rw [hlookup] at h
        obtain rfl := Option.some.inj h
        exact .pad (mem_of_lookup hlookup)
  · intro h
    cases h with
    | @pad c number hlayout =>
      have hpad : (char c).pad? = some number := lookup_of_mem hlayout
      rw [releaseEvent?, hpad]
      rfl

end HostKey

/-! ## Bare pacers -/

namespace Pacer

variable {κ τ : Type} [Clock κ τ] [Add τ] [LE τ] [DecidableLE τ]

/-- Whether a session goes on after an operation. A tick ends it when the machine has
halted or a fault arises, and nothing else does. -/
def Survives (p : Pacer κ τ) : Operation → Prop
  | .tick =>
    match (Pacing.tick : Pacing κ τ Bool) p with
    | .ok running _ => running = true
    | .error (.fault _) _ => False
    | .error (.misuse _) _ => True
  | _ => True

/-- Whether a session goes on through a sequence of operations. -/
def RunsOn (p : Pacer κ τ) : List Operation → Prop
  | [] => True
  | operation :: rest => p.Survives operation ∧ (p.perform operation).RunsOn rest

theorem runsOn_append {p : Pacer κ τ} {first rest : List Operation} :
    p.RunsOn (first ++ rest) ↔ p.RunsOn first ∧ (p.performAll first).RunsOn rest := by
  induction first generalizing p with
  | nil => exact ⟨fun h => ⟨trivial, h⟩, And.right⟩
  | cons operation first ih =>
    rw [List.cons_append, RunsOn, RunsOn, ih, and_assoc]
    rfl

end Pacer

/-! ## Windows -/

namespace Window

/-- The operations of a bare pacer that a happening stands for. -/
def Happening.operations : Happening → List Pacer.Operation
  | .tick => [.tick]
  | .press key => key.pressEvent?.toList.map .post
  | .release key => key.releaseEvent?.toList.map .post
  | .draw | .dismiss => []

variable {κ τ : Type} {w w' : Window κ τ} {q q' : Pacer κ τ}

/-- The window is open, nothing went wrong, and its pacer is like a bare one. -/
structure Tracks (w : Window κ τ) (q : Pacer κ τ) : Prop where
  pacer : q.Alike w.pacer
  error : w.error = none
  scheduled : w.scheduled = true
  closed : w.closed = false

/-- What a tick of a window comes to, given what the tick of a bare pacer comes to. -/
inductive Follows : EStateM.Result Error (Pacer κ τ) Bool →
    EStateM.Result Misuse (Window κ τ) Unit → Prop
  /-- the machine runs on -/
  | runs {q : Pacer κ τ} {w : Window κ τ} (h : w.Tracks q) : Follows (.ok true q) (.ok () w)
  /-- the machine has halted, and the window is closed -/
  | stops {q : Pacer κ τ} {w : Window κ τ} (hpacer : q.Alike w.pacer) (herror : w.error = none)
    (hclosed : w.closed = true) : Follows (.ok false q) (.ok () w)
  /-- a fault arises: it is kept, the machine is halted besides, and the window is closed -/
  | fails {q : Pacer κ τ} {w : Window κ τ} {fault : Fault}
    (hpacer : (q.mapMachine .halt).Alike w.pacer) (herror : w.error = some fault)
    (hclosed : w.closed = true) : Follows (.error (.fault fault) q) (.ok () w)
  /-- a misuse is passed on -/
  | misused {q : Pacer κ τ} {w : Window κ τ} {misuse : Misuse} (h : w.Tracks q) :
    Follows (.error (.misuse misuse) q) (.error misuse w)

theorem tracks_new (p : Pacer κ τ) (scale : Nat) (sound : Bool) :
    (new p scale sound).Tracks p := by
  cases sound with
  | false => exact ⟨.refl p, rfl, rfl, rfl⟩
  | true => exact ⟨.refl p, rfl, rfl, rfl⟩

theorem Tracks.quiet (h : w.Tracks q) (hquiet : w.Quiet w') (hpacer : q'.Alike w'.pacer) :
    w'.Tracks q' :=
  ⟨hpacer, hquiet.error.trans h.error, hquiet.scheduled.trans h.scheduled,
    hquiet.closed.trans h.closed⟩

theorem alike_draw (w : Window κ τ) : w.pacer.Alike w.draw.pacer := by
  rw [draw]
  by_cases hdirty : (w.ask .clear).pacer.processor.machine.screen.dirty = true
  · simp only [if_pos hdirty]
    exact ⟨false, w.pacer.processor.log, rfl⟩
  · simp only [if_neg hdirty]
    exact .refl w.pacer

/-! ## Sessions -/

variable [Clock κ τ] [Add τ] [LE τ] [DecidableLE τ]

/-- A tick of a window comes to what the tick of a bare pacer comes to. -/
theorem Tracks.tick (h : w.Tracks q) :
    Follows (Pacing.tick q) ((Window.tick : Windowing κ τ Unit) w) := by
  have hsame := h.pacer.tick
  have hout := tick_outcome w
  generalize (Window.tick : Windowing κ τ Unit) w = result at hout ⊢
  cases hout with
  | @runs r htick =>
    rw [htick] at hsame
    obtain ⟨s, hbare, halike⟩ := hsame.of_ok
    let ticked : Window κ τ := { w with pacer := r }
    have hframe := ticked.frame_soundFor r.machine.registers.sound
    obtain ⟨hclosed, hscheduled⟩ := ticked.closed_soundFor r.machine.registers.sound
    rw [hbare]
    refine .runs ⟨?_, hframe.error.trans h.error, hscheduled.trans h.scheduled,
      hclosed.trans h.closed⟩
    rwa [hframe.pacer]
  | @stops r htick =>
    rw [htick] at hsame
    obtain ⟨s, hbare, halike⟩ := hsame.of_ok
    let ticked : Window κ τ := { w with pacer := r }
    have hframe := (ticked.frame_soundFor 0).trans (frame_dismiss _)
    rw [hbare]
    refine .stops ?_ (hframe.error.trans h.error) rfl
    rwa [hframe.pacer]
  | @fails fault r htick =>
    rw [htick] at hsame
    obtain ⟨s, hbare, halike⟩ := hsame.of_error
    let failed : Window κ τ := { w with pacer := r }.fail fault
    have hframe := (failed.frame_soundFor 0).trans (frame_dismiss _)
    rw [hbare]
    refine .fails ?_ hframe.error rfl
    rw [hframe.pacer]
    exact (halike.mapLog _).halt
  | misused htick =>
    rw [htick] at hsame
    obtain ⟨s, hbare, halike⟩ := hsame.of_error
    rw [hbare]
    exact .misused ⟨halike, h.error, h.scheduled, h.closed⟩

theorem Tracks.happen_tick (h : w.Tracks q) :
    Follows (Pacing.tick q) ((happen .tick : Windowing κ τ Unit) w) := by
  rw [Window.happen_tick, if_pos h.scheduled]
  exact h.tick

theorem Tracks.post? (h : w.Tracks q) (event : Option Event) :
    (w.post? event).Tracks (q.performAll (event.toList.map .post)) := by
  refine h.quiet (w.quiet_post? event) ?_
  cases event with
  | none => exact h.pacer
  | some event => exact h.pacer.post event

theorem Tracks.press (h : w.Tracks q) (key : HostKey) :
    (w.press key).Tracks (q.performAll (Happening.operations (.press key))) := by
  rw [Window.press]
  by_cases hkey : key = .f1
  · subst hkey
    rw [if_pos rfl]
    exact h.quiet (w.quiet_withPacer _) (h.pacer.mapLog _)
  · rw [if_neg hkey]
    exact h.post? key.pressEvent?

/-- Posting does not end a run. -/
theorem runsOn_posts (event : Option Event) (q : Pacer κ τ) :
    q.RunsOn (event.toList.map .post) := by
  cases event with
  | none => trivial
  | some event => exact ⟨trivial, trivial⟩

/-- What happens to a window happens to a bare pacer, unless it ends the session. -/
theorem Tracks.occur (h : w.Tracks q) (happening : Happening)
    (hstays : happening ≠ .dismiss) (hruns : q.RunsOn happening.operations) :
    (w.occur happening).Tracks (q.performAll happening.operations) := by
  cases happening with
  | tick =>
    obtain ⟨hsurvives, -⟩ := hruns
    have hfollows := h.happen_tick
    show (after (happen .tick) w).Tracks (after Pacing.tick q)
    rw [Pacer.Survives] at hsurvives
    rw [after, after]
    generalize (Pacing.tick : Pacing κ τ Bool) q = bare at hfollows hsurvives ⊢
    generalize (happen .tick : Windowing κ τ Unit) w = result at hfollows ⊢
    cases hfollows with
    | runs h' => exact h'
    | stops _ _ _ => cases hsurvives
    | fails _ _ _ => cases hsurvives
    | misused h' => exact h'
  | draw => exact h.quiet w.quiet_draw (h.pacer.trans w.alike_draw)
  | press key => exact h.press key
  | release key => exact h.post? key.releaseEvent?
  | dismiss => exact absurd rfl hstays

/-- What ends a run closes the window. -/
theorem Tracks.closed_occur (h : w.Tracks q) (happening : Happening)
    (hruns : ¬ q.RunsOn happening.operations) : (w.occur happening).closed = true := by
  cases happening with
  | tick =>
    have hfollows := h.happen_tick
    show (after (happen .tick) w).closed = true
    have hsurvives : ¬ q.Survives .tick := fun hsurvives => hruns ⟨hsurvives, trivial⟩
    rw [Pacer.Survives] at hsurvives
    rw [after]
    generalize (Pacing.tick : Pacing κ τ Bool) q = bare at hfollows hsurvives
    generalize (happen .tick : Windowing κ τ Unit) w = result at hfollows ⊢
    cases hfollows with
    | runs _ => exact absurd rfl hsurvives
    | stops _ _ hclosed => exact hclosed
    | fails _ _ hclosed => exact hclosed
    | misused _ => exact absurd trivial hsurvives
  | draw => exact absurd trivial hruns
  | press key => exact absurd (runsOn_posts _ q) hruns
  | release key => exact absurd (runsOn_posts _ q) hruns
  | dismiss => exact absurd trivial hruns

theorem closed_tick_of_closed (h : w.closed = true) : (after tick w).closed = true := by
  have hout := tick_outcome w
  rw [after]
  generalize (Window.tick : Windowing κ τ Unit) w = result at hout ⊢
  cases hout with
  | runs _ => exact (closed_soundFor _ _).1.trans h
  | stops _ | fails _ => rfl
  | misused _ => exact h

/-- A window that is closed stays closed. -/
theorem closed_occur_of_closed (h : w.closed = true) (happening : Happening) :
    (w.occur happening).closed = true := by
  cases happening with
  | tick =>
    exact occur_tick (motive := fun w => w.closed = true) h (closed_tick_of_closed h)
  | draw => exact w.quiet_draw.closed.trans h
  | press key => exact (w.quiet_press key).closed.trans h
  | release key => exact (w.quiet_post? _).closed.trans h
  | dismiss => rfl

theorem closed_occurAll_of_closed (h : w.closed = true) (happenings : List Happening) :
    (w.occurAll happenings).closed = true :=
  occurAll_induction (motive := fun w => w.closed = true)
    (fun happening h => closed_occur_of_closed h happening) happenings h

theorem Tracks.occurAll (h : w.Tracks q) {happenings : List Happening}
    (hstays : .dismiss ∉ happenings)
    (hruns : q.RunsOn (happenings.flatMap Happening.operations)) :
    (w.occurAll happenings).Tracks (q.performAll (happenings.flatMap Happening.operations)) := by
  induction happenings generalizing w q with
  | nil => exact h
  | cons happening rest ih =>
    rw [List.flatMap_cons, Pacer.runsOn_append] at hruns
    obtain ⟨hfirst, hrest⟩ := hruns
    rw [List.mem_cons, not_or] at hstays
    have hnext := h.occur happening (Ne.symm hstays.1) hfirst
    rw [List.flatMap_cons, Pacer.performAll_append]
    exact ih hnext hstays.2 hrest

theorem Tracks.closed_occurAll (h : w.Tracks q) {happenings : List Happening}
    (hends : .dismiss ∈ happenings ∨ ¬ q.RunsOn (happenings.flatMap Happening.operations)) :
    (w.occurAll happenings).closed = true := by
  induction happenings generalizing w q with
  | nil => exact absurd trivial (hends.resolve_left List.not_mem_nil)
  | cons happening rest ih =>
    rw [occurAll_cons]
    by_cases hdismiss : happening = .dismiss
    · subst hdismiss
      exact closed_occurAll_of_closed rfl rest
    by_cases hfirst : q.RunsOn happening.operations
    · rw [List.mem_cons, List.flatMap_cons, Pacer.runsOn_append] at hends
      refine ih (h.occur happening hdismiss hfirst) ?_
      rcases hends with (heq | hlater) | hrest
      · exact absurd heq.symm hdismiss
      · exact .inl hlater
      · exact .inr fun hruns => hrest ⟨hfirst, hruns⟩
    · exact closed_occurAll_of_closed (h.closed_occur happening hfirst) rest

/-- A window is open as long as it is not dismissed and the bare run goes on. -/
theorem closed_occurAll_eq_false_iff (p : Pacer κ τ) (scale : Nat) (sound : Bool)
    (happenings : List Happening) :
    ((new p scale sound).occurAll happenings).closed = false ↔
      .dismiss ∉ happenings ∧ p.RunsOn (happenings.flatMap Happening.operations) := by
  have hnew := tracks_new p scale sound
  constructor
  · intro hopen
    have hends (hends : .dismiss ∈ happenings ∨
        ¬ p.RunsOn (happenings.flatMap Happening.operations)) : False := by
      rw [hnew.closed_occurAll hends] at hopen
      cases hopen
    exact ⟨fun hdismiss => hends (.inl hdismiss),
      Classical.byContradiction fun hruns => hends (.inr hruns)⟩
  · rintro ⟨hstays, hruns⟩
    exact (hnew.occurAll hstays hruns).closed

/-- **A window adds nothing to the emulation.** Take a window for any pacer, at any scale
and with or without sound, and let anything happen to it; and let a bare pacer go through
the operations that this stands for. The window is open as long as it was not dismissed
and the bare run goes on. Then its pacer is the bare one but for the log and the mark of
the screen, clock and deadlines included, and nothing went wrong. What the next tick of
the window comes to is settled by the next tick of the bare pacer: the window runs on, or
it is closed, and a fault is kept and halts the machine besides. Other windows whose
happenings stand for the same operations are open or closed with this one, and alike
when they are open. -/
theorem follows_occurAll (p : Pacer κ τ) (scale : Nat) (sound : Bool)
    (happenings : List Happening) :
    let w := (new p scale sound).occurAll happenings
    let operations := happenings.flatMap Happening.operations
    let q := p.performAll operations
    (w.closed = false ↔ .dismiss ∉ happenings ∧ p.RunsOn operations) ∧
    (w.closed = false → w.Tracks q ∧
      Follows (Pacing.tick q) ((happen .tick : Windowing κ τ Unit) w)) ∧
    (∀ (key : HostKey) (event : Event),
      (key.pressEvent? = some event ↔ key.Presses event) ∧
      (key.releaseEvent? = some event ↔ key.Releases event)) ∧
    ∀ (scale' : Nat) (sound' : Bool) (happenings' : List Happening),
      happenings'.flatMap Happening.operations = operations →
      (.dismiss ∈ happenings' ↔ .dismiss ∈ happenings) →
      let w' := (new p scale' sound').occurAll happenings'
      w'.closed = w.closed ∧ (w.closed = false → w.pacer.Alike w'.pacer) := by
  intro w operations q
  have hopen := closed_occurAll_eq_false_iff p scale sound happenings
  have htracks : w.closed = false → w.Tracks q := by
    intro hlive
    obtain ⟨hstays, hruns⟩ := hopen.mp hlive
    exact (tracks_new p scale sound).occurAll hstays hruns
  refine ⟨hopen, ?_, ?_, ?_⟩
  · intro hlive
    exact ⟨htracks hlive, (htracks hlive).happen_tick⟩
  · intro key event
    exact ⟨HostKey.pressEvent?_eq_some_iff, HostKey.releaseEvent?_eq_some_iff⟩
  · intro scale' sound' happenings' hsame hdismiss w'
    have hopen' := closed_occurAll_eq_false_iff p scale' sound' happenings'
    rw [hsame, hdismiss] at hopen'
    have hclosed : w'.closed = false ↔ w.closed = false := hopen'.trans hopen.symm
    refine ⟨Bool.eq_iff_iff.mpr (by simpa using not_congr hclosed), ?_⟩
    intro hlive
    have htracks' : w'.Tracks q := by
      obtain ⟨hstays, hruns⟩ := hopen.mp hlive
      have hruns' : p.RunsOn (happenings'.flatMap Happening.operations) := by rwa [hsame]
      have htracked := (tracks_new p scale' sound').occurAll (mt hdismiss.mp hstays) hruns'
      rwa [hsame] at htracked
    exact (htracks hlive).pacer.symm.trans htracks'.pacer

/-- A return without a call, after a pause, a drawing and a change of tracing: the fault
is what ends the session, and the machine that it leaves is halted besides. -/
theorem follows_occurAll_of_return :
    let machine : Machine :=
      { Machine.initial with
        memory := Memory.blank.store Memory.programStart [0x60, 0x05, 0x00, 0xEE] }
    let p : Pacer (HandClock Nat) Nat :=
      .new (.ofMachine machine (.ofSource fun _ => 0) (.new false)) ⟨0, 1⟩ 1 1
    let w := (new p 3 true).occurAll
      [.press .space, .press .space, .tick, .draw, .press .f1, .release (.char 'Q')]
    let q := p.performAll
      [.post (.control .pause), .post (.control .pause), .tick, .post (.key 4 false)]
    q.Alike w.pacer ∧ ∃ r w',
      (Pacing.tick : Pacing (HandClock Nat) Nat Bool) q = .error (.fault (.stackUnderflow 0x202)) r ∧
      (happen .tick : Windowing (HandClock Nat) Nat Unit) w = .ok () w' ∧
      (r.mapMachine .halt).Alike w'.pacer ∧ w'.error = some (.stackUnderflow 0x202) ∧
      w'.closed = true := by
  intro machine p w q
  have hlive : w.closed = false := by decide +kernel
  obtain ⟨-, hnext, -, -⟩ := follows_occurAll p 3 true
    [.press .space, .press .space, .tick, .draw, .press .f1, .release (.char 'Q')]
  obtain ⟨htracks, hfollows⟩ := hnext hlive
  have herror : (after (happen .tick) w).error = some (.stackUnderflow 0x202) := by decide +kernel
  refine ⟨htracks.pacer, ?_⟩
  rw [after] at herror
  have hw : (new p 3 true).occurAll
      [.press .space, .press .space, .tick, .draw, .press .f1, .release (.char 'Q')] = w := rfl
  rw [hw] at hfollows
  have hq : p.performAll (List.flatMap Happening.operations
      [.press .space, .press .space, .tick, .draw, .press .f1, .release (.char 'Q')]) = q := rfl
  rw [hq] at hfollows
  clear_value w q
  generalize (Pacing.tick : Pacing (HandClock Nat) Nat Bool) q = bare at hfollows ⊢
  generalize (happen .tick : Windowing (HandClock Nat) Nat Unit) w = result at hfollows herror ⊢
  cases hfollows with
  | runs h | misused h => cases h.error.symm.trans herror
  | stops _ hnone _ => cases hnone.symm.trans herror
  | @fails r w' fault hpacer hfault hclosed =>
    obtain rfl := Option.some.inj (hfault.symm.trans herror)
    exact ⟨r, w', rfl, rfl, hpacer, herror, hclosed⟩

end Window

end ChipEight
