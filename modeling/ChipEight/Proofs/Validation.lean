import ChipEight.Session

/-!
# Settings that a run can have

A run needs a rate and a scale that are more than zero. What is refused is a value that is
zero or less, before anything was read or logged. For the scale, a whole number, this is the
same. For the rate it is not: a rate that is no number is neither less than zero nor more, so
it is not refused, and the session goes on with it (`CommandLine.Settings.Numberless`).

A switch that was left without a value is a third case (`CommandLine.Settings.Incomplete`).
There is nothing to compare then, and nobody provides for that.

Apart from these two cases the session goes on to read the program image just when both
values are more than zero (`Session.validates_iff`).
-/

namespace ChipEight

/-! ## Rates -/

section Rates

open Float.Model.UnpackedFloat

/-- Either a float is zero or less, or it is more than zero or no number. -/
theorem le_zero_eq (u : Float.Model.UnpackedFloat) :
    u.le (zero .positive) = !((zero .positive).lt u || u.isNaN) := by
  cases u with
  | notANumber | zero _ => rfl
  | infinity sign | finite sign _ _ _ =>
    cases sign with
    | positive | negative => rfl

/-- What is not refused is more than zero or no number. -/
theorem not_le_zero_iff {rate : Float} : ¬ rate ≤ 0 ↔ 0 < rate ∨ rate.isNaN = true := by
  have hzero : (0 : Float).toModel.unpack = zero .positive := rfl
  have hle : rate ≤ 0 ↔ rate.toModel.unpack.le (0 : Float).toModel.unpack = true :=
    decide_eq_true_iff
  have hlt : 0 < rate ↔ (0 : Float).toModel.unpack.lt rate.toModel.unpack = true :=
    decide_eq_true_iff
  have hnan : rate.isNaN = rate.toModel.unpack.isNaN := rfl
  rw [hle, hlt, hnan, hzero, le_zero_eq, Bool.not_eq_true, Bool.not_eq_false', Bool.or_eq_true]

/-- What is more than zero is a number. -/
theorem isNaN_of_pos {rate : Float} (h : 0 < rate) : rate.isNaN = false := by
  have hlt : (0 : Float).toModel.unpack.lt rate.toModel.unpack = true := of_decide_eq_true h
  have hnan : rate.isNaN = rate.toModel.unpack.isNaN := rfl
  rw [hnan]
  generalize rate.toModel.unpack = u at hlt ⊢
  cases u with
  | notANumber => cases hlt
  | zero _ | infinity _ | finite _ _ _ _ => rfl

end Rates

/-! ## Settings -/

namespace CommandLine.Settings

variable {s : Settings}

/-- The rate and the scale are given, and they are more than zero. -/
def Positive (s : Settings) : Prop :=
  ∃ rate scale, s.cpuHz = some rate ∧ s.scale = some scale ∧ 0 < rate ∧ 1 ≤ scale

/-- The rate is given and is no number, and the scale is more than zero. -/
def Numberless (s : Settings) : Prop :=
  ∃ rate scale, s.cpuHz = some rate ∧ s.scale = some scale ∧ rate.isNaN = true ∧ 1 ≤ scale

/-- A value is missing that is looked at. The scale is not looked at when the rate is refused. -/
def Incomplete (s : Settings) : Prop :=
  s.cpuHz = none ∨ ∃ rate, s.cpuHz = some rate ∧ ¬ rate ≤ 0 ∧ s.scale = none

/-- The rate and the scale are given, and neither is zero or less. -/
def Admitted (s : Settings) : Prop :=
  ∃ rate scale, s.cpuHz = some rate ∧ s.scale = some scale ∧ ¬ rate ≤ 0 ∧ ¬ scale ≤ 0

theorem admitted_iff : s.Admitted ↔ s.Positive ∨ s.Numberless := by
  constructor
  · rintro ⟨rate, scale, hcpuHz, hscale, hrate, hpos⟩
    rcases not_le_zero_iff.mp hrate with hmore | hnan
    · exact .inl ⟨rate, scale, hcpuHz, hscale, hmore, Int.not_le.mp hpos⟩
    · exact .inr ⟨rate, scale, hcpuHz, hscale, hnan, Int.not_le.mp hpos⟩
  · rintro (⟨rate, scale, hcpuHz, hscale, hmore, hpos⟩ | ⟨rate, scale, hcpuHz, hscale, hnan, hpos⟩)
    · exact ⟨rate, scale, hcpuHz, hscale, not_le_zero_iff.mpr (.inl hmore), Int.not_le.mpr hpos⟩
    · exact ⟨rate, scale, hcpuHz, hscale, not_le_zero_iff.mpr (.inr hnan), Int.not_le.mpr hpos⟩

theorem Positive.not_numberless (h : s.Positive) : ¬ s.Numberless := by
  obtain ⟨rate, -, hcpuHz, -, hmore, -⟩ := h
  rintro ⟨rate', -, hcpuHz', -, hnan, -⟩
  obtain rfl := Option.some.inj (hcpuHz.symm.trans hcpuHz')
  cases hnan.symm.trans (isNaN_of_pos hmore)

/-- With a rate given, what remains is to look at it and at the scale. -/
theorem admitted_iff_of_rate {rate : Float} (hcpuHz : s.cpuHz = some rate) :
    s.Admitted ↔ ¬ rate ≤ 0 ∧ ∃ scale, s.scale = some scale ∧ ¬ scale ≤ 0 := by
  constructor
  · rintro ⟨rate', scale, hcpuHz', hscale, hrate, hpos⟩
    obtain rfl := Option.some.inj (hcpuHz.symm.trans hcpuHz')
    exact ⟨hrate, scale, hscale, hpos⟩
  · rintro ⟨hrate, scale, hscale, hpos⟩
    exact ⟨rate, scale, hcpuHz, hscale, hrate, hpos⟩

/-- With a rate given, only the scale can be missing. -/
theorem incomplete_iff_of_rate {rate : Float} (hcpuHz : s.cpuHz = some rate) :
    s.Incomplete ↔ ¬ rate ≤ 0 ∧ s.scale = none := by
  constructor
  · rintro (hnone | ⟨rate', hcpuHz', hrate, hscale⟩)
    · cases hnone.symm.trans hcpuHz
    · obtain rfl := Option.some.inj (hcpuHz.symm.trans hcpuHz')
      exact ⟨hrate, hscale⟩
  · rintro ⟨hrate, hscale⟩
    exact .inr ⟨rate, hcpuHz, hrate, hscale⟩

theorem Admitted.not_incomplete (h : s.Admitted) : ¬ s.Incomplete := by
  obtain ⟨rate, scale, hcpuHz, hscale, -⟩ := h
  intro hmissing
  cases ((incomplete_iff_of_rate hcpuHz).mp hmissing).2.symm.trans hscale

/-- What settings can come to. -/
inductive Planned (s : Settings) : Except Refusal Plan → Prop
  | admitted {rate : Float} {scale : Int} (hcpuHz : s.cpuHz = some rate)
    (hscale : s.scale = some scale) (hrate : ¬ rate ≤ 0) (hpos : ¬ scale ≤ 0) :
    Planned s (.ok { s with cpuHz := rate, scale := scale })
  | refused (hrefused : ¬ s.Admitted) (hcomplete : ¬ s.Incomplete) :
    Planned s (.error (.problem .notPositive))
  | incomplete (hmissing : s.Incomplete) : Planned s (.error (.misuse .noValue))

theorem positive_of_le {α : Type} [LE α] [DecidableLE α] {zero value : α} (h : value ≤ zero) :
    positive zero (some value) = .error (.problem .notPositive) := if_pos h

theorem positive_of_not_le {α : Type} [LE α] [DecidableLE α] {zero value : α}
    (h : ¬ value ≤ zero) : positive zero (some value) = .ok value := if_neg h

/-- All settings come to one of these. -/
theorem planned (s : Settings) : Planned s s.plan := by
  rw [plan]
  rcases hcpuHz : s.cpuHz with _ | rate
  · exact .incomplete (.inl hcpuHz)
  have hadmitted := admitted_iff_of_rate hcpuHz
  have hincomplete := incomplete_iff_of_rate hcpuHz
  by_cases hrate : rate ≤ 0
  · rw [positive_of_le hrate]
    exact .refused (fun h => (hadmitted.mp h).1 hrate) (fun h => (hincomplete.mp h).1 hrate)
  rw [positive_of_not_le hrate]
  rcases hscale : s.scale with _ | scale
  · exact .incomplete (hincomplete.mpr ⟨hrate, hscale⟩)
  by_cases hpos : scale ≤ 0
  · rw [positive_of_le hpos]
    refine .refused (fun h => ?_) (fun h => ?_)
    · obtain ⟨-, scale', hscale', hpos'⟩ := hadmitted.mp h
      obtain rfl := Option.some.inj (hscale.symm.trans hscale')
      exact hpos' hpos
    · cases (hincomplete.mp h).2.symm.trans hscale
  · rw [positive_of_not_le hpos]
    exact .admitted hcpuHz hscale hrate hpos

end CommandLine.Settings

/-! ## Sessions -/

namespace Session

open CommandLine

variable {κ : Type} [Clock κ Float] {arguments : List String} {settings : Settings} {clock : κ}

/-- The session goes on to read the program image, and if it is loaded, to run it with the
given values. -/
def Proceeds (arguments : List String) (clock : κ) (settings : Settings) : Prop :=
  ∃ rate scale, settings.cpuHz = some rate ∧ settings.scale = some scale ∧
    ∀ reader draws, begin arguments reader clock draws =
      load { settings with cpuHz := rate, scale := scale } reader clock draws

/-- Whatever can be read, the session ends with the status two and the complaint that a value
is not positive, and nothing was logged. -/
def TurnedAway (arguments : List String) (clock : κ) : Prop :=
  ∃ outcome : Outcome, outcome.status.code = 2 ∧ outcome.output = "" ∧
    outcome.complaint = usage ++ "chip8: error: --cpu-hz and --scale must be positive\n" ∧
    ∀ reader draws happenings, run arguments reader clock draws happenings = .ok outcome

/-- An empty program image is loaded, unless its path is one that no file can have. -/
theorem load_empty (plan : Plan) (clock : κ) (draws : Draws) :
    (∃ pacer, load plan (fun _ => .ok []) clock draws = .ready plan pacer) ∨
      ∃ output, load plan (fun _ => .ok []) clock draws = .misused .nullInPath output := by
  simp only [load, Program.read, Program.fetch]
  by_cases hpath : plan.rom.toList.contains '\x00' = true
  · rw [if_pos hpath]
    exact .inr ⟨_, rfl⟩
  · rw [if_neg hpath]
    exact .inl ⟨_, rfl⟩

/-- A session that ends before there is a machine, or is misused in another way than by a path,
does not go on to read the program image. -/
theorem not_proceeds_of_begin (draws : Draws) {opening : Opening κ}
    (hbegin : begin arguments (fun _ => .ok []) clock draws = opening)
    (hready : ∀ plan pacer, opening ≠ .ready plan pacer)
    (hpath : ∀ output, opening ≠ .misused .nullInPath output) :
    ¬ Proceeds arguments clock settings := by
  rintro ⟨rate, scale, -, -, hload⟩
  have hempty := (hload (fun _ => .ok []) draws).symm.trans hbegin
  rcases load_empty { settings with cpuHz := rate, scale := scale } clock draws with
    ⟨pacer, h⟩ | ⟨output, h⟩
  · exact hready _ _ (hempty.symm.trans h)
  · exact hpath _ (hempty.symm.trans h)

theorem proceeds_of_admitted (hparse : parse arguments = .ok (.run settings))
    (h : settings.Admitted) (clock : κ) : Proceeds arguments clock settings := by
  have hplanned := settings.planned
  generalize hplan : settings.plan = result at hplanned
  cases hplanned with
  | @admitted rate scale hcpuHz hscale _ _ =>
    refine ⟨rate, scale, hcpuHz, hscale, fun reader draws => ?_⟩
    simp only [begin, hparse, hplan]
  | refused hrefused _ => exact absurd h hrefused
  | incomplete hmissing => exact absurd hmissing h.not_incomplete

theorem turnedAway_of_refused (hparse : parse arguments = .ok (.run settings))
    (hrefused : ¬ settings.Admitted) (hcomplete : ¬ settings.Incomplete) (clock : κ) :
    TurnedAway arguments clock ∧ ¬ Proceeds arguments clock settings := by
  have hplanned := settings.planned
  generalize hplan : settings.plan = result at hplanned
  cases hplanned with
  | admitted hcpuHz hscale hrate hpos =>
    exact absurd ⟨_, _, hcpuHz, hscale, hrate, hpos⟩ hrefused
  | refused _ _ =>
    have hbegin (reader : Program.Reader) (draws : Draws) : begin arguments reader clock draws =
        .over ⟨.usageError, "", complaint .notPositive⟩ := by
      simp only [begin, hparse, hplan]
    refine ⟨⟨_, rfl, rfl, rfl, fun reader draws _ => by rw [run, hbegin]⟩, ?_⟩
    refine not_proceeds_of_begin (.ofSource fun _ => 0) (hbegin _ _) ?_ ?_
    · intro plan pacer h
      cases h
    · intro output h
      cases h
  | incomplete hmissing => exact absurd hmissing hcomplete

theorem misused_of_incomplete (hparse : parse arguments = .ok (.run settings))
    (hmissing : settings.Incomplete) (clock : κ) :
    (∀ reader draws happenings,
      run arguments reader clock draws happenings = .error .noValue) ∧
    ¬ Proceeds arguments clock settings := by
  have hplanned := settings.planned
  generalize hplan : settings.plan = result at hplanned
  cases hplanned with
  | admitted hcpuHz hscale hrate hpos =>
    exact absurd hmissing (Settings.Admitted.not_incomplete ⟨_, _, hcpuHz, hscale, hrate, hpos⟩)
  | refused _ hcomplete => exact absurd hmissing hcomplete
  | incomplete _ =>
    have hbegin (reader : Program.Reader) (draws : Draws) : begin arguments reader clock draws =
        .misused .noValue "" := by
      simp only [begin, hparse, hplan]
    refine ⟨fun reader draws _ => by rw [run, hbegin], ?_⟩
    refine not_proceeds_of_begin (.ofSource fun _ => 0) (hbegin _ _) ?_ ?_
    · intro plan pacer h
      cases h
    · intro output h
      cases h

/-- The values of a command line are validated: the session goes on to read the program image
just when both are more than zero, and otherwise the user is turned away. -/
structure Validates (arguments : List String) (clock : κ) (settings : Settings) : Prop where
  proceeds_iff : Proceeds arguments clock settings ↔ settings.Positive
  turnedAway : ¬ settings.Positive → TurnedAway arguments clock

/-- **When values are validated.** Whatever settings a command line asks for, its values are
validated, except in two cases. A rate that is no number passes with any scale that is more
than zero. A value that is missing where it is looked at is a misuse. -/
theorem validates_iff (hparse : parse arguments = .ok (.run settings)) (clock : κ) :
    (Validates arguments clock settings ↔ ¬ settings.Numberless ∧ ¬ settings.Incomplete) ∧
    (settings.Numberless → Proceeds arguments clock settings) ∧
    (settings.Incomplete → ∀ reader draws happenings,
      run arguments reader clock draws happenings = .error .noValue) := by
  refine ⟨⟨fun hvalid => ⟨fun hnumber => ?_, fun hmissing => ?_⟩, fun ⟨hnumber, hcomplete⟩ => ?_⟩,
    fun hnumber => ?_, fun hmissing => (misused_of_incomplete hparse hmissing clock).1⟩
  · have hadmitted := Settings.admitted_iff.mpr (.inr hnumber)
    have hpositive := hvalid.proceeds_iff.mp (proceeds_of_admitted hparse hadmitted clock)
    exact hpositive.not_numberless hnumber
  · obtain ⟨hmisused, hstays⟩ := misused_of_incomplete hparse hmissing clock
    obtain ⟨outcome, -, -, -, hrun⟩ := hvalid.turnedAway (mt hvalid.proceeds_iff.mpr hstays)
    cases (hrun (fun _ => .ok []) (.ofSource fun _ => 0) []).symm.trans (hmisused _ _ _)
  · by_cases hpositive : settings.Positive
    · have hadmitted := Settings.admitted_iff.mpr (.inl hpositive)
      exact ⟨iff_of_true (proceeds_of_admitted hparse hadmitted clock) hpositive,
        fun h => absurd hpositive h⟩
    · have hrefused := mt Settings.admitted_iff.mp (not_or.mpr ⟨hpositive, hnumber⟩)
      obtain ⟨hturned, hstays⟩ := turnedAway_of_refused hparse hrefused hcomplete clock
      exact ⟨iff_of_false hstays hpositive, fun _ => hturned⟩
  · exact proceeds_of_admitted hparse (Settings.admitted_iff.mpr (.inr hnumber)) clock

/-- Whether a command line asks for settings that pass a test. -/
def asksFor (arguments : List String) (test : Settings → Bool) : Bool :=
  match parse arguments with
  | .ok (.run settings) => test settings
  | _ => false

theorem exists_of_asksFor {test : Settings → Bool} (h : asksFor arguments test = true) :
    ∃ settings, parse arguments = .ok (.run settings) ∧ test settings = true := by
  rw [asksFor] at h
  generalize parse arguments = wish at h ⊢
  rcases wish with problem | (_ | settings)
  · cases h
  · cases h
  · exact ⟨settings, rfl, h⟩

/-- A rate that is more than zero as it is written is zero as a floating-point number, and so
the user is turned away. -/
theorem validates_of_underflow :
    let arguments := ["a.ch8", "--cpu-hz", "1e-400", "--scale", "3"]
    let clock : Timetable Float := ⟨fun _ => 0, 0⟩
    ∃ settings, parse arguments = .ok (.run settings) ∧ settings.scale = some 3 ∧
      Validates arguments clock settings ∧ ¬ settings.Positive ∧ TurnedAway arguments clock := by
  intro arguments clock
  have hasks : asksFor arguments (fun s =>
      s.cpuHz.any (fun rate => decide (rate ≤ 0)) && s.scale == some 3) = true := by
    decide +kernel
  obtain ⟨settings, hparse, htest⟩ := exists_of_asksFor hasks
  obtain ⟨hany, hscale⟩ := (Bool.and_eq_true _ _).mp htest
  obtain ⟨rate, hcpuHz, hrate⟩ := (Option.any_eq_true _ _).mp hany
  have hzero : rate ≤ 0 := of_decide_eq_true hrate
  have hrefused : ¬ settings.Admitted :=
    fun h => ((Settings.admitted_iff_of_rate hcpuHz).mp h).1 hzero
  have hcomplete : ¬ settings.Incomplete :=
    fun h => ((Settings.incomplete_iff_of_rate hcpuHz).mp h).1 hzero
  obtain ⟨hpositive, hnumber⟩ := not_or.mp (mt Settings.admitted_iff.mpr hrefused)
  have hvalid := (validates_iff hparse clock).1.mpr ⟨hnumber, hcomplete⟩
  exact ⟨settings, hparse, eq_of_beq hscale, hvalid, hpositive, hvalid.turnedAway hpositive⟩

/-- A rate that is no number is not more than zero, and still the session goes on. -/
theorem proceeds_of_nan :
    let arguments := ["a.ch8", "--cpu-hz", "nan"]
    let clock : Timetable Float := ⟨fun _ => 0, 0⟩
    ∃ settings, parse arguments = .ok (.run settings) ∧ ¬ settings.Positive ∧
      Proceeds arguments clock settings ∧ ¬ Validates arguments clock settings := by
  intro arguments clock
  have hasks : asksFor arguments (fun s =>
      s.cpuHz.any Float.isNaN && s.scale == some 10) = true := by
    decide +kernel
  obtain ⟨settings, hparse, htest⟩ := exists_of_asksFor hasks
  obtain ⟨hany, hscale⟩ := (Bool.and_eq_true _ _).mp htest
  obtain ⟨rate, hcpuHz, hnan⟩ := (Option.any_eq_true _ _).mp hany
  have hnumber : settings.Numberless := ⟨rate, 10, hcpuHz, eq_of_beq hscale, hnan, by decide⟩
  have hproceeds : Proceeds arguments clock settings :=
    proceeds_of_admitted hparse (Settings.admitted_iff.mpr (.inr hnumber)) clock
  have hpositive : ¬ settings.Positive := fun h => h.not_numberless hnumber
  exact ⟨settings, hparse, hpositive, hproceeds,
    fun hvalid => hpositive (hvalid.proceeds_iff.mp hproceeds)⟩

end Session

end ChipEight
