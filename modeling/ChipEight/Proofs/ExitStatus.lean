import ChipEight.Proofs.Bare
import ChipEight.Proofs.Image
import ChipEight.Proofs.Protocol
import ChipEight.Proofs.Validation

/-!
# The exit status of a session

The exit status is settled at two places. A program image that cannot be read, or that is
too long, ends the session before there is a machine (`Session.Unloadable`). Every other
image fits into memory, so a machine is built from it, and then the status says whether a
tick of the open window ended in a fault (`Window.FailsIn`).

The second half follows the happenings one by one. As long as nothing went wrong
(`Window.Underway`) no happening is a misuse, for a window posts no foreign value. A tick
that ends in a fault closes the window, so there is at most one of them, and it is the one
whose fault the window keeps.
-/

namespace ChipEight

/-! ## Windows that fail -/

namespace Window

variable {κ τ : Type} {w w' : Window κ τ} {happening : Happening} {happenings rest : List Happening}
  {fault : Fault} {q : Pacer κ τ}

/-- The window is open and its tick is called, no fault was kept, and nothing but events is
queued. -/
structure Underway (w : Window κ τ) : Prop where
  proper : w.pacer.Proper
  error : w.error = none
  scheduled : w.scheduled = true
  closed : w.closed = false

theorem underway_new {p : Pacer κ τ} (h : p.Proper) (scale : Nat) (sound : Bool) :
    (new p scale sound).Underway := by
  cases sound with
  | false => exact ⟨h, rfl, rfl, rfl⟩
  | true => exact ⟨h, rfl, rfl, rfl⟩

theorem Underway.quiet (h : w.Underway) (hquiet : w.Quiet w') (hproper : w'.pacer.Proper) :
    w'.Underway :=
  ⟨hproper, hquiet.error.trans h.error, hquiet.scheduled.trans h.scheduled,
    hquiet.closed.trans h.closed⟩

theorem Underway.soundFor (h : w.Underway) (timer : UInt8) : (w.soundFor timer).Underway := by
  have hframe := w.frame_soundFor timer
  obtain ⟨hclosed, hscheduled⟩ := w.closed_soundFor timer
  refine ⟨?_, hframe.error.trans h.error, hscheduled.trans h.scheduled, hclosed.trans h.closed⟩
  rw [hframe.pacer]
  exact h.proper

/-- What a fault leaves of a pacer: it is logged, and the machine is halted. -/
def stoppedBy (fault : Fault) (q : Pacer κ τ) : Pacer κ τ :=
  (q.mapLog (·.error ("Emulation error: " ++ fault.message))).mapMachine .halt

variable [Clock κ τ] [Add τ] [LE τ] [DecidableLE τ]

/-- The happening is a tick of the pacer that ends in a fault. -/
def FailsAt (w : Window κ τ) (happening : Happening) (fault : Fault) (q : Pacer κ τ) : Prop :=
  happening = .tick ∧ (Pacing.tick : Pacing κ τ Bool) w.pacer = .error (.fault fault) q

/-- Some happening finds the window open and is a tick of the pacer that ends in a fault. -/
def FailsIn (w : Window κ τ) (happenings : List Happening) (fault : Fault) (q : Pacer κ τ) : Prop :=
  ∃ first happening rest, happenings = first ++ happening :: rest ∧
    (w.occurAll first).closed = false ∧ (w.occurAll first).FailsAt happening fault q

theorem not_failsAt_of_ok {running : Bool}
    (htick : (Pacing.tick : Pacing κ τ Bool) w.pacer = .ok running q) (fault : Fault)
    (q' : Pacer κ τ) : ¬ w.FailsAt happening fault q' := by
  rintro ⟨-, hfails⟩
  cases htick.symm.trans hfails

theorem not_failsIn_nil : ¬ w.FailsIn [] fault q := by
  rintro ⟨first, happening, rest, hsplit, -⟩
  exact absurd hsplit.symm (List.append_ne_nil_of_right_ne_nil _ (List.cons_ne_nil _ _))

theorem not_failsIn_of_closed (h : w.closed = true) : ¬ w.FailsIn happenings fault q := by
  rintro ⟨first, happening, rest, -, hopen, -⟩
  cases hopen.symm.trans (closed_occurAll_of_closed h first)

/-- An open window fails in the first happening or in a later one. -/
theorem failsIn_cons_iff (hopen : w.closed = false) : w.FailsIn (happening :: rest) fault q ↔
    w.FailsAt happening fault q ∨ (w.occur happening).FailsIn rest fault q := by
  constructor
  · rintro ⟨_ | ⟨first, later⟩, other, behind, hsplit, hlive, hfails⟩
    · obtain ⟨rfl, rfl⟩ := List.cons.inj hsplit
      exact .inl hfails
    · obtain ⟨rfl, rfl⟩ := List.cons.inj hsplit
      exact .inr ⟨later, other, behind, rfl, hlive, hfails⟩
  · rintro (hfails | ⟨first, other, behind, rfl, hlive, hfails⟩)
    · exact ⟨[], happening, rest, rfl, hopen, hfails⟩
    · exact ⟨happening :: first, other, behind, rfl, hlive, hfails⟩

/-- What a happening can come to when nothing went wrong before. -/
inductive Befalls (w : Window κ τ) (happening : Happening) : Window κ τ → Prop
  | goesOn {w' : Window κ τ} (hnever : ∀ fault q, ¬ w.FailsAt happening fault q)
    (hunderway : w'.Underway) : Befalls w happening w'
  /-- the window is closed without a fault -/
  | closes {w' : Window κ τ} (hnever : ∀ fault q, ¬ w.FailsAt happening fault q)
    (herror : w'.error = none) (hclosed : w'.closed = true) : Befalls w happening w'
  /-- the fault is kept, and the window is closed -/
  | fails {w' : Window κ τ} {fault : Fault} {q : Pacer κ τ} (hfails : w.FailsAt happening fault q)
    (herror : w'.error = some fault) (hpacer : w'.pacer = stoppedBy fault q)
    (hclosed : w'.closed = true) : Befalls w happening w'

/-- A tick comes to one of the three, and meets no misuse. -/
theorem Underway.tick (h : w.Underway) :
    ∃ w', (Window.tick : Windowing κ τ Unit) w = .ok () w' ∧ Befalls w .tick w' := by
  have hproper := h.proper.tick
  have hout := tick_outcome w
  generalize (Window.tick : Windowing κ τ Unit) w = result at hout ⊢
  rw [after] at hproper
  cases hout with
  | @runs q htick =>
    rw [htick] at hproper
    have hticked : Underway { w with pacer := q } := h.quiet (w.quiet_withPacer q) hproper
    exact ⟨_, rfl, .goesOn (not_failsAt_of_ok htick) (hticked.soundFor _)⟩
  | @stops q htick =>
    have hframe := (Window.frame_soundFor { w with pacer := q } 0).trans (frame_dismiss _)
    exact ⟨_, rfl, .closes (not_failsAt_of_ok htick) (hframe.error.trans h.error) rfl⟩
  | @fails fault q htick =>
    have hframe := (({ w with pacer := q }.fail fault).frame_soundFor 0).trans (frame_dismiss _)
    exact ⟨_, rfl, .fails ⟨rfl, htick⟩ hframe.error hframe.pacer rfl⟩
  | misused htick =>
    obtain ⟨fault, hfault⟩ := h.proper.fault_of_tick htick
    cases hfault

/-- So does every happening. -/
theorem Underway.happen (h : w.Underway) (happening : Happening) :
    ∃ w', (Window.happen happening : Windowing κ τ Unit) w = .ok () w' ∧
      Befalls w happening w' := by
  have hnever (hother : happening ≠ .tick) : ∀ fault q, ¬ w.FailsAt happening fault q :=
    fun _ _ hfails => hother hfails.1
  cases happening with
  | tick =>
    rw [happen_tick, if_pos h.scheduled]
    exact h.tick
  | draw =>
    have hdrawn := h.quiet w.quiet_draw (proper_draw h.proper)
    exact ⟨_, rfl, .goesOn (hnever Happening.noConfusion) hdrawn⟩
  | press key =>
    have hpressed := h.quiet (w.quiet_press key) (proper_press h.proper key)
    exact ⟨_, rfl, .goesOn (hnever Happening.noConfusion) hpressed⟩
  | release key =>
    have hreleased := h.quiet (w.quiet_post? _) (proper_release h.proper key)
    exact ⟨_, rfl, .goesOn (hnever Happening.noConfusion) hreleased⟩
  | dismiss =>
    exact ⟨_, rfl, .closes (hnever Happening.noConfusion) (w.frame_dismiss.error.trans h.error) rfl⟩

/-- What playing a window can come to. -/
inductive Played (w : Window κ τ) (happenings : List Happening) (w' : Window κ τ) : Prop
  | well (hnever : ∀ fault q, ¬ w.FailsIn happenings fault q) (herror : w'.error = none)
  /-- there is one tick that ended in a fault -/
  | failed {fault : Fault} {q : Pacer κ τ}
    (hfails : ∀ fault' q', w.FailsIn happenings fault' q' ↔ fault' = fault ∧ q' = q)
    (herror : w'.error = some fault) (hpacer : w'.pacer = stoppedBy fault q)

theorem play_of_closed (h : w.closed = true) :
    (play happenings : Windowing κ τ Unit) w = .ok () w := by
  cases happenings with
  | nil => rfl
  | cons happening rest => rw [play_cons, if_pos h]

/-- A window is played without a misuse, and its fault is that of the tick that failed. -/
theorem Underway.play (h : w.Underway) (happenings : List Happening) :
    ∃ w', (Window.play happenings : Windowing κ τ Unit) w = .ok () w' ∧ Played w happenings w' := by
  induction happenings generalizing w with
  | nil => exact ⟨w, rfl, .well (fun _ _ => not_failsIn_nil) h.error⟩
  | cons happening rest ih =>
    obtain ⟨w₁, hhappen, hbefalls⟩ := h.happen happening
    have hoccur : w.occur happening = w₁ := by rw [occur, after, hhappen]
    have hcons (fault : Fault) (q : Pacer κ τ) : w.FailsIn (happening :: rest) fault q ↔
        w.FailsAt happening fault q ∨ w₁.FailsIn rest fault q := by
      rw [failsIn_cons_iff h.closed, hoccur]
    rw [play_cons, h.closed, hhappen]
    show ∃ w', (Window.play rest : Windowing κ τ Unit) w₁ = .ok () w' ∧ _
    cases hbefalls with
    | goesOn hnever hunderway =>
      obtain ⟨w', hplay, hplayed⟩ := ih hunderway
      have hlater (fault : Fault) (q : Pacer κ τ) :
          w.FailsIn (happening :: rest) fault q ↔ w₁.FailsIn rest fault q := by
        rw [hcons, or_iff_right (hnever fault q)]
      refine ⟨w', hplay, ?_⟩
      cases hplayed with
      | well hnever herror =>
        exact .well (fun fault q => mt (hlater fault q).mp (hnever fault q)) herror
      | failed hfails herror hpacer =>
        exact .failed (fun fault q => (hlater fault q).trans (hfails fault q)) herror hpacer
    | closes hnever herror hclosed =>
      refine ⟨w₁, play_of_closed hclosed, .well (fun fault q => ?_) herror⟩
      rw [hcons, or_iff_left (not_failsIn_of_closed hclosed)]
      exact hnever fault q
    | @fails fault q hfails herror hpacer hclosed =>
      refine ⟨w₁, play_of_closed hclosed, .failed (fun fault' q' => ?_) herror hpacer⟩
      rw [hcons, or_iff_left (not_failsIn_of_closed hclosed)]
      constructor
      · rintro ⟨-, hfails'⟩
        obtain ⟨hfault, rfl⟩ := EStateM.Result.error.inj (hfails'.symm.trans hfails.2)
        exact ⟨Error.fault.inj hfault, rfl⟩
      · rintro ⟨rfl, rfl⟩
        exact hfails

end Window

/-! ## Sessions -/

namespace Session

open CommandLine

/-- Why there is no machine for the program image at a path, as it is told to the user. -/
inductive Unloadable (reader : Program.Reader) (path : String) : Fault → Prop
  | unread {e : ReadError} (hread : reader path = .error e) :
    Unloadable reader path (.unreadable ("Cannot read ROM " ++ path ++ ": " ++ e.message))
  | tooLong {content : List UInt8} (hread : reader path = .ok content)
    (hlong : 3584 < content.length) :
    Unloadable reader path (.programTooLarge content.length 3584)

/-- There is a reason, or the image fits. -/
theorem unloadable_or_fits (reader : Program.Reader) (path : String) :
    (∃ fault, Unloadable reader path fault) ∨
      ∃ content, reader path = .ok content ∧ content.length ≤ 3584 := by
  rcases hread : reader path with e | content
  · exact .inl ⟨_, .unread hread⟩
  rcases Nat.lt_or_ge 3584 content.length with hlong | hfits
  · exact .inl ⟨_, .tooLong hread hlong⟩
  · exact .inr ⟨content, rfl, hfits⟩

theorem Unloadable.not_fits {reader : Program.Reader} {path : String} {fault : Fault}
    (h : Unloadable reader path fault) {content : List UInt8} (hread : reader path = .ok content) :
    ¬ content.length ≤ 3584 := by
  cases h with
  | unread hfailed => cases hfailed.symm.trans hread
  | tooLong hread' hlong =>
    obtain rfl := Except.ok.inj (hread'.symm.trans hread)
    exact Nat.not_le.mpr hlong

variable {κ : Type} [Clock κ Float] {reader : Program.Reader} {plan : Plan} {settings : Settings}
  {arguments : List String} {clock : κ} {draws : Draws}

/-- The log when the program image is read. -/
def openingLog (plan : Plan) : Log := (Log.new plan.trace).info ("Loading ROM: " ++ plan.rom)

/-- An image that cannot be read or does not fit ends the session, and that is the last line
of the log. -/
theorem load_of_unloadable (hpath : '\x00' ∉ plan.rom.toList) {fault : Fault}
    (h : Unloadable reader plan.rom fault) (clock : κ) (draws : Draws) :
    load plan reader clock draws =
      .over ⟨.startupError, printed ((openingLog plan).error fault.message), ""⟩ := by
  have himage : Program.image reader plan.rom = .error fault := by
    cases h with
    | unread hread => rw [Program.image, hread]
    | tooLong hread hlong => exact Program.image_of_tooLong hread hlong
  simp only [load, Program.read, Program.fetch_eq hpath, himage]
  rfl

/-- From any other image a machine is built. -/
theorem load_of_fits (hpath : '\x00' ∉ plan.rom.toList) {content : List UInt8}
    (hread : reader plan.rom = .ok content) (hfits : content.length ≤ 3584) (clock : κ)
    (draws : Draws) :
    ∃ machine, Machine.ofProgram content = .ok machine ∧
      load plan reader clock draws =
        .ready plan (pacerFor plan machine clock draws (openingLog plan)) := by
  obtain ⟨machine, hmachine⟩ : ∃ machine, Machine.ofProgram content = .ok machine :=
    ⟨_, Machine.ofProgram_of_le hfits⟩
  refine ⟨machine, hmachine, ?_⟩
  have hfetch : Program.fetch reader plan.rom = .ok content := by
    rw [Program.fetch_eq hpath, Program.image_of_fits hread hfits]
    rfl
  simp only [load, Program.read, hfetch, hmachine]
  rfl

/-- A machine that was just built meets no misuse. -/
theorem proper_pacerFor (plan : Plan) {content : List UInt8} {machine : Machine}
    (h : Machine.ofProgram content = .ok machine) (clock : κ) (draws : Draws) (log : Log) :
    (pacerFor plan machine clock draws log).Proper := by
  have hnew := Pacer.proper_new h draws log clock (1.0 / plan.cpuHz) timerPeriod
  rw [pacerFor]
  by_cases hpaused : plan.paused = true
  · rw [if_pos hpaused]
    exact ⟨hnew.bounded, hnew.queue⟩
  · rw [if_neg hpaused]
    exact hnew

/-- With a rate and a scale that are more than zero the session begins with reading the
program image. -/
theorem begin_of_pos (hparse : parse arguments = .ok (.run settings)) {rate : Float}
    (hcpuHz : settings.cpuHz = some rate) (hrate : 0 < rate) {scale : Int}
    (hscale : settings.scale = some scale) (hpos : 0 < scale) (reader : Program.Reader)
    (clock : κ) (draws : Draws) :
    begin arguments reader clock draws =
      load { settings with cpuHz := rate, scale := scale } reader clock draws := by
  have hplan : settings.plan = .ok { settings with cpuHz := rate, scale := scale } := by
    rw [Settings.plan, hcpuHz, hscale,
      Settings.positive_of_not_le (not_le_zero_iff.mpr (.inl hrate)),
      Settings.positive_of_not_le (Int.not_le.mpr hpos)]
    rfl
  simp only [begin, hparse, hplan]

/-- The lines that report the fault of a tick, after those that the tick left. -/
def faultLog (fault : Fault) (q : Pacer κ Float) : Log :=
  ((q.processor.log.error ("Emulation error: " ++ fault.message)).error
    ("Machine stopped: " ++ fault.message)).debug q.machine.registers.summary

theorem run_of_over {outcome : Outcome}
    (h : begin arguments reader clock draws = .over outcome) (happenings : List Window.Happening) :
    run arguments reader clock draws happenings = .ok outcome := by
  rw [run, h]

/-- What a session with a machine comes to: no tick failed, or one did, and it is reported. -/
inductive Concluded (w : Window κ Float) (happenings : List Window.Happening) : Outcome → Prop
  | success {outcome : Outcome} (hnever : ∀ fault q, ¬ w.FailsIn happenings fault q)
    (hstatus : outcome.status = .success) : Concluded w happenings outcome
  | failure {fault : Fault} {q : Pacer κ Float}
    (hfails : ∀ fault' q', w.FailsIn happenings fault' q' ↔ fault' = fault ∧ q' = q) :
    Concluded w happenings ⟨.emulationError, printed (faultLog fault q), ""⟩

/-- What the status and the output say of a session with a machine. -/
theorem Concluded.reports {w : Window κ Float} {happenings : List Window.Happening}
    {outcome : Outcome} (h : Concluded w happenings outcome) :
    outcome.status ≠ .escaped ∧ outcome.status.code ≠ 1 ∧
      (outcome.status.code = 2 ↔ ∃ fault q, w.FailsIn happenings fault q) ∧
      (∀ fault q, w.FailsIn happenings fault q → outcome.output = printed (faultLog fault q)) ∧
      ((∀ fault q, ¬ w.FailsIn happenings fault q) → outcome.status.code = 0) := by
  cases h with
  | success hnever hstatus =>
    rw [hstatus]
    refine ⟨by decide, by decide, iff_of_false (by decide) ?_, fun fault q h => absurd h (hnever fault q),
      fun _ => rfl⟩
    rintro ⟨fault, q, h⟩
    exact hnever fault q h
  | @failure fault q hfails =>
    have hfailed := (hfails fault q).mpr ⟨rfl, rfl⟩
    have htwo : ExitStatus.code .emulationError ≠ 1 := by decide
    refine ⟨nofun, htwo, iff_of_true rfl ⟨fault, q, hfailed⟩, ?_,
      fun hnever => absurd hfailed (hnever fault q)⟩
    intro fault' q' h
    obtain ⟨rfl, rfl⟩ := (hfails fault' q').mp h
    rfl

theorem run_of_ready {pacer : Pacer κ Float}
    (h : begin arguments reader clock draws = .ready plan pacer) (hproper : pacer.Proper)
    (happenings : List Window.Happening) :
    ∃ outcome, run arguments reader clock draws happenings = .ok outcome ∧
      Concluded (window plan pacer) happenings outcome := by
  have hunderway : (window plan pacer).Underway := Window.underway_new hproper _ _
  obtain ⟨w', hplay, hplayed⟩ := hunderway.play happenings
  refine ⟨finish w'.error w'.pacer, ?_, ?_⟩
  · simp only [run, h, hplay]
  · cases hplayed with
    | well hnever herror =>
      rw [herror]
      exact .success hnever rfl
    | failed hfails herror hpacer =>
      rw [herror, hpacer]
      exact .failure hfails

/-- **The exit status of a session.** The command line asks for a run with a rate and a scale
that are more than zero, and its path is one that a file can have. Whatever can be read there,
whatever the clock shows and whatever happens to the window, no fault escapes from the session,
and it comes to an end that it reports:

* its status is one just when the program image cannot be read or is longer than 3584 bytes.
  Then there is no machine, and the reason is the last line of the log;
* from any other image a machine is built. The status is two just when a tick of the window,
  while that was open, ended in a fault, and the fault is in both of the last two reports;
* it is zero otherwise. -/
theorem run_status (hparse : parse arguments = .ok (.run settings)) {rate : Float}
    (hcpuHz : settings.cpuHz = some rate) (hrate : 0 < rate) {scale : Int}
    (hscale : settings.scale = some scale) (hpos : 0 < scale)
    (hpath : '\x00' ∉ settings.rom.toList) (reader : Program.Reader) (clock : κ) (draws : Draws)
    (happenings : List Window.Happening) :
    let plan : Plan := { settings with cpuHz := rate, scale := scale }
    ∃ outcome, run arguments reader clock draws happenings = .ok outcome ∧
      outcome.status ≠ .escaped ∧
      (outcome.status.code = 1 ↔ ∃ fault, Unloadable reader plan.rom fault) ∧
      (∀ fault, Unloadable reader plan.rom fault →
        begin arguments reader clock draws = .over outcome ∧
        outcome.output = printed ((openingLog plan).error fault.message)) ∧
      ∀ content, reader plan.rom = .ok content → content.length ≤ 3584 →
        ∃ machine, Machine.ofProgram content = .ok machine ∧
          let pacer := pacerFor plan machine clock draws (openingLog plan)
          begin arguments reader clock draws = .ready plan pacer ∧
          (outcome.status.code = 2 ↔ ∃ fault q, (window plan pacer).FailsIn happenings fault q) ∧
          (∀ fault q, (window plan pacer).FailsIn happenings fault q →
            outcome.output = printed (faultLog fault q)) ∧
          ((∀ fault q, ¬ (window plan pacer).FailsIn happenings fault q) →
            outcome.status.code = 0) := by
  intro plan
  have hbegin := begin_of_pos hparse hcpuHz hrate hscale hpos reader clock draws
  rcases unloadable_or_fits reader plan.rom with ⟨fault, hunloadable⟩ | ⟨content, hread, hfits⟩
  · have hover := hbegin.trans (load_of_unloadable hpath hunloadable clock draws)
    refine ⟨_, run_of_over hover happenings, nofun,
      ⟨fun _ => ⟨fault, hunloadable⟩, fun _ => rfl⟩, ?_, ?_⟩
    · intro fault' hunloadable'
      have hover' := hbegin.trans (load_of_unloadable hpath hunloadable' clock draws)
      have hsame := Opening.over.inj (hover.symm.trans hover')
      exact ⟨hover, congrArg Outcome.output hsame⟩
    · intro content hread hfits
      exact absurd hfits (hunloadable.not_fits hread)
  · obtain ⟨machine, hmachine, hload⟩ := load_of_fits hpath hread hfits clock draws
    have hready := hbegin.trans hload
    have hproper := proper_pacerFor plan hmachine clock draws (openingLog plan)
    obtain ⟨outcome, hrun, hconcluded⟩ := run_of_ready hready hproper happenings
    have hloadable : ¬ ∃ fault, Unloadable reader plan.rom fault := by
      rintro ⟨fault, hunloadable⟩
      exact hunloadable.not_fits hread hfits
    obtain ⟨hcaught, hstatus, hreports⟩ := hconcluded.reports
    refine ⟨outcome, hrun, hcaught, iff_of_false hstatus hloadable,
      fun fault h => absurd ⟨fault, h⟩ hloadable, ?_⟩
    intro content' hread' _
    obtain rfl := Except.ok.inj (hread.symm.trans hread')
    exact ⟨machine, hmachine, hready, hreports⟩

/-- A return without a call is stepped to before the machine has run. -/
theorem run_status_of_return :
    let arguments := ["a.ch8"]
    let reader : Program.Reader := fun _ => .ok [0x00, 0xEE]
    let clock : Timetable Float := ⟨fun _ => 0, 0⟩
    let draws : Draws := .ofSource fun _ => 0
    let happenings : List Window.Happening := [.press (.char 'P'), .draw, .tick, .tick]
    run arguments reader clock draws happenings = .ok ⟨.emulationError,
      "[INFO]:  Loading ROM: a.ch8\n" ++
      "[ERROR]:  Emulation error: Stack underflow on 00EE at 0x200\n" ++
      "[ERROR]:  Machine stopped: Stack underflow on 00EE at 0x200\n", ""⟩ ∧
    ∃ plan pacer, begin arguments reader clock draws = .ready plan pacer ∧
      ∃ fault q, (window plan pacer).FailsIn happenings fault q := by
  intro arguments reader clock draws happenings
  have hparse : parse arguments = .ok (.run { Settings.default with rom := "a.ch8" }) := rfl
  have hrate : (0 : Float) < Float.ofNat Settings.defaultCpuHz := by decide
  obtain ⟨outcome, hrun, -, -, -, hloaded⟩ := run_status hparse rfl hrate rfl (by decide) (by decide)
    reader clock draws happenings
  obtain ⟨machine, -, hready, hfails, -⟩ := hloaded [0x00, 0xEE] rfl (by decide)
  have houtcome : (run arguments reader clock draws happenings).toOption = some ⟨.emulationError,
      "[INFO]:  Loading ROM: a.ch8\n" ++
      "[ERROR]:  Emulation error: Stack underflow on 00EE at 0x200\n" ++
      "[ERROR]:  Machine stopped: Stack underflow on 00EE at 0x200\n", ""⟩ := by
    decide +kernel
  rw [hrun] at houtcome
  obtain rfl := Option.some.inj houtcome
  exact ⟨hrun, _, _, hready, hfails.mp rfl⟩

end Session

end ChipEight
