import ChipEight.Proofs.Course
import ChipEight.Window.Basic

/-!
# What happens to a window

A window is driven by what happens to it. `Window.occur` is the window after one
happening, whether or not it met a misuse, and `Window.occurAll` the window after
one happening after the other, whatever they are. Playing a window is one of these
runs: things happen as long as it is open, and the first misuse ends it
(`Window.after_play`).

A tick of the window comes to one of four outcomes, by what the tick of the pacer
comes to. `Window.tick_outcome` lists them, and the laws about windows go through
this list. Adjusting the sound and closing the window leave most of it alone, which
`Window.Frame` says.
-/

namespace ChipEight

/-- The content that a request gives to the image, if it does. -/
def Request.content? : Request → Option Picture
  | .image _ _ content | .setData _ content => some content
  | _ => none

/-- Whether a request belongs to a drawing. -/
def Request.isForDrawing : Request → Bool
  | .clear | .setData _ _ | .blit _ _ => true
  | .image _ _ _ | .window _ _ _ _ | .queue _ _ _ _ | .schedule _ | .unschedule | .play | .pause
  | .delete | .close => false

namespace Window

variable {κ τ : Type} {w w' w'' : Window κ τ}

/-! ## Requests -/

theorem requests_ask (w : Window κ τ) (request : Request) :
    (w.ask request).requests.toList = w.requests.toList ++ [request] :=
  Array.toList_push

/-- What the image on the host holds: the content that was last asked for. -/
def shown (w : Window κ τ) : Option Picture :=
  (w.requests.toList.filterMap Request.content?).getLast?

theorem shown_ask (w : Window κ τ) (request : Request) :
    (w.ask request).shown = request.content?.or w.shown := by
  rw [shown, requests_ask, List.filterMap_append, List.getLast?_append]
  cases hcontent : request.content? <;> simp [hcontent, shown]

/-! ## What is left alone -/

/-- One window is the other but for the player, the schedule and whether it is
closed. -/
structure Frame (w w' : Window κ τ) : Prop where
  pacer : w'.pacer = w.pacer
  scale : w'.scale = w.scale
  image : w'.image = w.image
  error : w'.error = w.error
  shown : w'.shown = w.shown

theorem Frame.refl (w : Window κ τ) : w.Frame w := ⟨rfl, rfl, rfl, rfl, rfl⟩

theorem Frame.trans (h : w.Frame w') (h' : w'.Frame w'') : w.Frame w'' where
  pacer := h'.pacer.trans h.pacer
  scale := h'.scale.trans h.scale
  image := h'.image.trans h.image
  error := h'.error.trans h.error
  shown := h'.shown.trans h.shown

theorem frame_ask (w : Window κ τ) {request : Request} (h : request.content? = none) :
    w.Frame (w.ask request) := by
  refine ⟨rfl, rfl, rfl, rfl, ?_⟩
  rw [shown_ask, h, Option.none_or]

theorem frame_player (w : Window κ τ) (player : Option Bool) : w.Frame { w with player } :=
  ⟨rfl, rfl, rfl, rfl, rfl⟩

/-- Adjusting the sound concerns the player only. -/
theorem frame_soundFor (w : Window κ τ) (timer : UInt8) : w.Frame (w.soundFor timer) := by
  rw [soundFor]
  rcases w.player with _ | _ | _
  · exact .refl w
  · by_cases htimer : timer > 0
    · simp only [if_pos htimer]
      exact (frame_player w _).trans (frame_ask _ rfl)
    · simp only [if_neg htimer]
      exact .refl w
  · by_cases htimer : timer = 0
    · simp only [if_pos htimer]
      exact (frame_player w _).trans (frame_ask _ rfl)
    · simp only [if_neg htimer]
      exact .refl w

/-- Closing the window concerns the player, the schedule and the window itself. -/
theorem frame_dismiss (w : Window κ τ) : w.Frame w.dismiss := by
  let unscheduled : Window κ τ := { w with scheduled := false }.ask .unschedule
  have hscheduled : w.Frame { w with scheduled := false } := ⟨rfl, rfl, rfl, rfl, rfl⟩
  have hunscheduled : w.Frame unscheduled := hscheduled.trans (frame_ask _ rfl)
  have hshutdown : w.Frame w.shutdown := by
    cases hplayer : w.player with
    | none =>
      have hsilent : w.shutdown = unscheduled := by
        simp only [shutdown, ask, hplayer, unscheduled]
      rw [hsilent]
      exact hunscheduled
    | some playing =>
      have hdeleted : w.shutdown = { unscheduled with player := none }.ask .delete := by
        simp only [shutdown, ask, hplayer, unscheduled]
      rw [hdeleted]
      exact hunscheduled.trans ((frame_player _ _).trans (frame_ask _ rfl))
  have hclosed : w.shutdown.Frame { w.shutdown with closed := true } := ⟨rfl, rfl, rfl, rfl, rfl⟩
  exact hshutdown.trans (hclosed.trans (frame_ask _ rfl))

/-- Adjusting the sound closes nothing. -/
theorem closed_soundFor (w : Window κ τ) (timer : UInt8) :
    (w.soundFor timer).closed = w.closed ∧ (w.soundFor timer).scheduled = w.scheduled := by
  rw [soundFor]
  rcases w.player with _ | _ | _
  · exact ⟨rfl, rfl⟩
  · by_cases htimer : timer > 0
    · simp only [if_pos htimer]
      exact ⟨rfl, rfl⟩
    · simp only [if_neg htimer, and_self]
  · by_cases htimer : timer = 0
    · simp only [if_pos htimer]
      exact ⟨rfl, rfl⟩
    · simp only [if_neg htimer, and_self]

/-- One window is the other but for the pacer, the image and drawings that were asked
for. This is all that drawings and keys make of a window. -/
structure Quiet (w w' : Window κ τ) : Prop where
  player : w'.player = w.player
  error : w'.error = w.error
  scheduled : w'.scheduled = w.scheduled
  closed : w'.closed = w.closed
  requests : ∃ more, w'.requests.toList = w.requests.toList ++ more ∧
    ∀ request ∈ more, request.isForDrawing = true

theorem quiet_withPacer (w : Window κ τ) (pacer : Pacer κ τ) : w.Quiet { w with pacer } :=
  ⟨rfl, rfl, rfl, rfl, [], (List.append_nil _).symm, List.forall_mem_nil _⟩

theorem quiet_draw (w : Window κ τ) : w.Quiet w.draw := by
  rw [draw]
  by_cases hdirty : (w.ask .clear).pacer.processor.machine.screen.dirty = true
  · simp only [if_pos hdirty]
    let image := Picture.ofPixels w.scale w.pacer.processor.machine.screen.pixels
    exact ⟨rfl, rfl, rfl, rfl, [.clear, .setData (w.width * pixelBytes) image, .blit 0 0],
      by simp [ask, width, image], by simp [Request.isForDrawing]⟩
  · simp only [if_neg hdirty]
    exact ⟨rfl, rfl, rfl, rfl, [.clear, .blit 0 0], by simp [ask], by simp [Request.isForDrawing]⟩

theorem quiet_post? (w : Window κ τ) (event : Option Event) : w.Quiet (w.post? event) := by
  cases event with
  | none => exact w.quiet_withPacer w.pacer
  | some event => exact w.quiet_withPacer _

theorem quiet_press (w : Window κ τ) (key : HostKey) : w.Quiet (w.press key) := by
  rw [press]
  by_cases hkey : key = .f1
  · rw [if_pos hkey]
    exact w.quiet_withPacer _
  · rw [if_neg hkey]
    exact w.quiet_post? _

variable [Clock κ τ] [Add τ] [LE τ] [DecidableLE τ]

/-! ## Ticks -/

/-- What a tick of the window can come to. -/
inductive TickOutcome (w : Window κ τ) : EStateM.Result Misuse (Window κ τ) Unit → Prop
  /-- the machine runs on, and the sound is adjusted -/
  | runs {q : Pacer κ τ} (htick : (Pacing.tick : Pacing κ τ Bool) w.pacer = .ok true q) :
    TickOutcome w (.ok () ({ w with pacer := q }.soundFor q.machine.registers.sound))
  /-- the machine has halted, and the window is closed in silence -/
  | stops {q : Pacer κ τ} (htick : (Pacing.tick : Pacing κ τ Bool) w.pacer = .ok false q) :
    TickOutcome w (.ok () ({ w with pacer := q }.soundFor 0).dismiss)
  /-- the tick ended in a fault, which is kept, and the window is closed in silence -/
  | fails {fault : Fault} {q : Pacer κ τ}
    (htick : (Pacing.tick : Pacing κ τ Bool) w.pacer = .error (.fault fault) q) :
    TickOutcome w (.ok () (({ w with pacer := q }.fail fault).soundFor 0).dismiss)
  /-- the tick met a misuse, which is passed on -/
  | misused {misuse : Misuse} {q : Pacer κ τ}
    (htick : (Pacing.tick : Pacing κ τ Bool) w.pacer = .error (.misuse misuse) q) :
    TickOutcome w (.error misuse { w with pacer := q })

/-- Every tick of the window comes to one of the four outcomes. -/
theorem tick_outcome (w : Window κ τ) :
    TickOutcome w ((tick : Windowing κ τ Unit) w) := by
  rw [tick]
  rcases htick : (Pacing.tick : Pacing κ τ Bool) w.pacer with
    ⟨_ | _, q⟩ | ⟨fault | misuse, q⟩
  · exact .stops htick
  · exact .runs htick
  · exact .fails htick
  · exact .misused htick

/-- A tick of a window that the host was told to give up does not come. -/
theorem happen_tick (w : Window κ τ) :
    (happen .tick : Windowing κ τ Unit) w = if w.scheduled then tick w else .ok () w := by
  refine (bind_run get _ w).trans ?_
  by_cases hscheduled : w.scheduled = true
  · simp only [get_run, if_pos hscheduled]
  · simp only [get_run, if_neg hscheduled]
    rfl

/-! ## Runs -/

/-- The window after something happened to it, whether or not it was a misuse. -/
def occur (w : Window κ τ) (happening : Happening) : Window κ τ :=
  after (happen happening) w

/-- A tick of the host is a tick of the window, or nothing when it was given up. -/
theorem occur_tick {motive : Window κ τ → Prop} {w : Window κ τ} (h : motive w)
    (htick : motive (after tick w)) : motive (w.occur .tick) := by
  rw [occur, after, happen_tick]
  by_cases hscheduled : w.scheduled = true
  · rw [if_pos hscheduled]
    exact htick
  · rw [if_neg hscheduled]
    exact h

/-- The window after things happened to it, one after the other. -/
def occurAll (w : Window κ τ) (happenings : List Happening) : Window κ τ :=
  happenings.foldl occur w

@[simp] theorem occurAll_nil (w : Window κ τ) : w.occurAll [] = w := rfl

@[simp] theorem occurAll_cons (w : Window κ τ) (happening : Happening) (rest : List Happening) :
    w.occurAll (happening :: rest) = (w.occur happening).occurAll rest := rfl

/-- What one happening keeps, all sequences of happenings keep. -/
theorem occurAll_induction {motive : Window κ τ → Prop}
    (hoccur : ∀ {w : Window κ τ} (happening : Happening), motive w → motive (w.occur happening))
    (happenings : List Happening) (h : motive w) : motive (w.occurAll happenings) := by
  induction happenings generalizing w with
  | nil => exact h
  | cons happening rest ih => exact ih (hoccur happening h)

theorem play_cons (happening : Happening) (rest : List Happening) (w : Window κ τ) :
    (play (happening :: rest) : Windowing κ τ Unit) w =
      if w.closed then .ok () w
      else match (happen happening : Windowing κ τ Unit) w with
        | .ok _ w' => play rest w'
        | .error misuse w' => .error misuse w' := by
  refine (bind_run get _ w).trans ?_
  cases hclosed : w.closed with
  | true =>
    simp only [get_run, hclosed]
    rfl
  | false =>
    simp only [get_run, hclosed]
    refine (bind_run (happen happening) (fun _ => play rest) w).trans ?_
    cases (happen happening : Windowing κ τ Unit) w <;> rfl

/-- A window that is played has made the first of the happenings. -/
theorem after_play (happenings : List Happening) (w : Window κ τ) :
    ∃ first, first <+: happenings ∧ after (play happenings) w = w.occurAll first := by
  induction happenings generalizing w with
  | nil => exact ⟨[], List.prefix_refl _, rfl⟩
  | cons happening rest ih =>
    rw [after, play_cons]
    by_cases hclosed : w.closed = true
    · rw [if_pos hclosed]
      exact ⟨[], List.nil_prefix, rfl⟩
    rw [if_neg hclosed]
    rcases hhappen : (happen happening : Windowing κ τ Unit) w with ⟨_, w'⟩ | ⟨misuse, w'⟩
    · have hoccur : w.occur happening = w' := by rw [occur, after, hhappen]
      obtain ⟨first, hfirst, hplay⟩ := ih w'
      refine ⟨happening :: first, List.cons_prefix_cons.mpr ⟨rfl, hfirst⟩, ?_⟩
      rw [occurAll_cons, hoccur, ← hplay]
      rfl
    · refine ⟨[happening], List.cons_prefix_cons.mpr ⟨rfl, List.nil_prefix⟩, ?_⟩
      rw [occurAll_cons, occur, after, hhappen, occurAll_nil]

end Window

end ChipEight
