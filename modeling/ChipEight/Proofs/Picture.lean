import ChipEight.Proofs.Happening

/-!
# What is on the window is what is on the screen

The image of a window is made anew only when the screen was touched, so between two
drawings it may be older than the screen. It is never older than the screen says:
unless the screen is marked as touched, the image is the picture of its pixels
(`Window.Coherent`). Only two instructions change pixels, and both of them mark the
screen; nothing but a drawing takes the mark away, and a drawing leaves the picture
of the pixels behind.

What the picture of the pixels looks like is `Picture.Shows`, said by the row and
the column of the window, with rows counted from the bottom.
-/

namespace ChipEight

/-! ## Pictures -/

namespace Picture

theorem getElem?_enlarge {α : Type} {n : Nat} (hn : 0 < n) (xs : List α) (i : Nat) :
    (enlarge n xs)[i]? = xs[i / n]? := by
  induction xs generalizing i with
  | nil => simp [enlarge]
  | cons a rest ih =>
    have hsplit : enlarge n (a :: rest) = List.replicate n a ++ enlarge n rest := rfl
    rw [hsplit, List.getElem?_append, List.length_replicate]
    by_cases hi : i < n
    · rw [if_pos hi, Nat.div_eq_of_lt hi]
      simp [hi]
    · have hlater : i / n = (i - n) / n + 1 := Nat.div_eq_sub_div hn (Nat.le_of_not_lt hi)
      rw [if_neg hi, ih, hlater, List.getElem?_cons_succ]

theorem getElem?_toList {α : Type} {n : Nat} (cells : Vector α n) (k : Fin n) :
    cells.toList[k.val]? = some (cells.get k) := by
  rw [Vector.getElem?_toList, Vector.getElem?_eq_getElem k.isLt]
  rfl

theorem row_lt (scale row : Nat) : 31 - row / scale < 32 :=
  Nat.lt_succ_of_le (Nat.sub_le _ _)

theorem column_lt {scale column : Nat} (h : column < 64 * scale) : column / scale < 64 := by
  rw [Nat.mul_comm] at h
  exact Nat.div_lt_of_lt_mul h

/-- A picture shows pixels: each pixel of the screen is a square of `scale` by `scale`
pixels of the picture, white if it is on and black if it is off. Rows of the picture
are counted from the bottom, rows of the screen from the top. -/
structure Shows (image : Picture) (scale : Nat) (pixels : Pixels) : Prop where
  height : image.length = 32 * scale
  width : ∀ row ∈ image, row.length = 64 * scale
  colour : ∀ (row column : Nat), row < 32 * scale → (hcolumn : column < 64 * scale) →
    image[row]?.bind (·[column]?) =
      some (if (pixels.get ⟨31 - row / scale, row_lt scale row⟩).get
          ⟨column / scale, column_lt hcolumn⟩
        then ⟨255, 255, 255, 255⟩ else ⟨0, 0, 0, 255⟩)

/-- The picture of the pixels shows them. -/
theorem shows_ofPixels (scale : Nat) (pixels : Pixels) :
    (ofPixels scale pixels).Shows scale pixels where
  height := by
    rw [ofPixels, length_enlarge, List.length_map, List.length_reverse, Vector.length_toList,
      Nat.mul_comm]
  width := by
    intro row hrow
    obtain ⟨line, hline, hrow⟩ := List.mem_flatMap.mp hrow
    obtain ⟨pixelRow, -, rfl⟩ := List.mem_map.mp hline
    rw [(List.mem_replicate.mp hrow).2, length_enlarge, List.length_map, Vector.length_toList,
      Nat.mul_comm]
  colour := by
    intro row column hrow hcolumn
    have hscale : 0 < scale := by omega
    have hrow' : row / scale < 32 := by
      rw [Nat.mul_comm] at hrow
      exact Nat.div_lt_of_lt_mul hrow
    have hline : pixels.toList.reverse[row / scale]? =
        some (pixels.get ⟨31 - row / scale, row_lt scale row⟩) := by
      rw [List.getElem?_reverse (by rwa [Vector.length_toList]), Vector.length_toList]
      exact getElem?_toList pixels ⟨31 - row / scale, row_lt scale row⟩
    rw [ofPixels, getElem?_enlarge hscale, List.getElem?_map, hline, Option.map_some,
      Option.bind_some, getElem?_enlarge hscale, List.getElem?_map,
      getElem?_toList _ ⟨column / scale, column_lt hcolumn⟩, Option.map_some]
    rfl

end Picture

/-! ## The screen -/

theorem Screen.dirty_drawSprite (s : Screen) (x y : Int) (rows : List Int) :
    (s.drawSprite x y rows).2.dirty = true := by
  induction rows generalizing s y with
  | nil => rfl
  | cons bits rest ih => exact ih _ _

theorem Machine.dirty_drawn (m : Machine) (x y : Fin 16) (rows : List UInt8) :
    (m.drawn x y rows).screen.dirty = true := by
  simp only [drawn, Screen.dirty_drawSprite]

namespace Instruction

variable {ins : Instruction} {byte : UInt8} {m m' : Machine}

/-- An instruction that changes the screen marks it. -/
theorem screen_effect (heffect : ins.effect byte m = .ok m') :
    m'.screen = m.screen ∨ m'.screen.dirty = true := by
  obtain ⟨word, opcode⟩ := ins
  cases opcode
  case clear =>
    obtain rfl := Except.ok.inj heffect
    exact .inr rfl
  case draw =>
    obtain ⟨rows, -, rfl⟩ := of_map_eq_ok heffect
    exact .inr (m.dirty_drawn _ _ rows)
  case loadRegs =>
    obtain ⟨bytes, -, rfl⟩ := of_map_eq_ok heffect
    exact .inl (m.screen_withRegisters _)
  case ret | call | skipKeyDown | skipKeyUp | decimal | storeRegs =>
    obtain ⟨_, -, rfl⟩ := of_map_eq_ok heffect
    exact .inl rfl
  all_goals
    obtain rfl := Except.ok.inj heffect
    exact .inl rfl

end Instruction

namespace Processor

variable {p : Processor}

/-- An action that changes the screen marks it, and no action takes the mark away. -/
theorem screen_act (p : Processor) (action : Action) :
    (p.act action).machine.screen = p.machine.screen ∨
      (p.act action).machine.screen.dirty = true := by
  cases action with
  | step =>
    have hout := step_outcome p
    rw [act, after]
    generalize step p = result at hout ⊢
    cases hout with
    | unavailable _ => exact .inl rfl
    | halts _ => exact .inl rfl
    | refused _ _ => exact .inl rfl
    | completes _ heffect => exact Instruction.screen_effect heffect
  | key number isDown =>
    obtain ⟨v, keypad, h⟩ := p.machine.after_keyEvent number isDown
    rw [act, h]
    exact .inl rfl
  | countDown => exact .inl rfl
  | halt => exact .inl rfl
  | log change => exact .inl rfl

theorem screen_actAll (p : Processor) (actions : List Action) :
    (p.actAll actions).machine.screen = p.machine.screen ∨
      (p.actAll actions).machine.screen.dirty = true := by
  refine actAll_induction (motive := fun q =>
    q.machine.screen = p.machine.screen ∨ q.machine.screen.dirty = true) ?_ actions (.inl rfl)
  intro q action hq
  rcases screen_act q action with hsame | hmarked
  · rw [hsame]
    exact hq
  · exact .inr hmarked

/-- A screen that was never shown is marked. -/
theorem Reachable.dirty (h : Reachable p) : p.machine.screen.dirty = true := by
  induction h with
  | start hload draws log =>
    obtain ⟨memory, -, rfl⟩ := Machine.of_ofProgram_eq_ok hload
    rfl
  | @act q _ action ih =>
    rcases screen_act q action with hsame | hmarked
    · rw [hsame]
      exact ih
    · exact hmarked

end Processor

/-- A tick that changes the screen marks it. -/
theorem Pacer.screen_tick {κ τ : Type} [Clock κ τ] [Add τ] [LE τ] [DecidableLE τ]
    (p : Pacer κ τ) : (after Pacing.tick p).machine.screen = p.machine.screen ∨
      (after Pacing.tick p).machine.screen.dirty = true := by
  rw [← Pacer.moveAll_tickMoves, Pacer.machine, Pacer.processor_moveAll]
  exact Processor.screen_actAll p.processor _

/-! ## Windows -/

namespace Window

variable {κ τ : Type} {w w' : Window κ τ} {scale : Nat}

/-- The image is what the host was asked to show, and unless the screen is marked as
touched, it is the picture of the pixels. -/
structure Coherent (w : Window κ τ) (scale : Nat) : Prop where
  scale_eq : w.scale = scale
  shown : w.shown = some w.image
  image : w.pacer.machine.screen.dirty = false →
    w.image = .ofPixels scale w.pacer.machine.screen.pixels

namespace Coherent

theorem frame (h : w.Coherent scale) (hframe : w.Frame w') : w'.Coherent scale where
  scale_eq := hframe.scale.trans h.scale_eq
  shown := by rw [hframe.shown, hframe.image, h.shown]
  image := by
    rw [hframe.pacer, hframe.image]
    exact h.image

/-- A pacer may take the place of another when it has the same screen, or one that is
marked. -/
theorem withPacer (h : w.Coherent scale) {q : Pacer κ τ}
    (hscreen : q.machine.screen = w.pacer.machine.screen ∨ q.machine.screen.dirty = true) :
    Coherent { w with pacer := q } scale where
  scale_eq := h.scale_eq
  shown := h.shown
  image := by
    intro hclean
    rcases hscreen with hsame | hmarked
    · have himage := h.image
      rw [← hsame] at himage
      exact himage hclean
    · rw [hmarked] at hclean
      cases hclean

theorem fail (h : w.Coherent scale) (fault : Fault) : (w.fail fault).Coherent scale :=
  ⟨h.scale_eq, h.shown, h.image⟩

theorem post? (h : w.Coherent scale) (event : Option Event) : (w.post? event).Coherent scale := by
  cases event with
  | none => exact h
  | some event => exact h.withPacer (.inl rfl)

/-- A new window shows a dark image, and its screen is still marked. -/
theorem new {p : Pacer κ τ} (hreach : Processor.Reachable p.processor) (scale : Nat)
    (sound : Bool) : (Window.new p scale sound).Coherent scale := by
  have hdirty : p.machine.screen.dirty = true := hreach.dirty
  cases sound with
  | false => exact ⟨rfl, rfl, fun hclean => by cases hdirty.symm.trans hclean⟩
  | true => exact ⟨rfl, rfl, fun hclean => by cases hdirty.symm.trans hclean⟩

end Coherent

/-! ## Drawings -/

/-- What a drawing of a window leaves behind: the picture of the pixels is shown, and
the image was replaced only if the screen was marked. -/
structure Drawn (w w' : Window κ τ) (scale : Nat) : Prop where
  coherent : w'.Coherent scale
  image : w'.image = .ofPixels scale w.pacer.machine.screen.pixels
  pixels : w'.pacer.machine.screen.pixels = w.pacer.machine.screen.pixels
  requests : w'.requests.toList = w.requests.toList ++ .clear ::
    (if w.pacer.machine.screen.dirty then [.setData (64 * scale * 4) w'.image] else []) ++
    [.blit 0 0]

theorem drawn_draw (h : w.Coherent scale) : w.Drawn w.draw scale := by
  obtain rfl := h.scale_eq
  cases hdirty : w.pacer.machine.screen.dirty with
  | false =>
    have hdraw : w.draw = (w.ask .clear).ask (.blit 0 0) := by
      have hclean : w.pacer.processor.machine.screen.dirty = false := hdirty
      simp only [draw, ask, hclean]
      rfl
    have hframe : w.Frame w.draw := by
      rw [hdraw]
      exact (frame_ask w rfl).trans (frame_ask _ rfl)
    refine ⟨h.frame hframe, ?_, ?_, ?_⟩
    · rw [hframe.image]
      exact h.image hdirty
    · rw [hframe.pacer]
    · rw [hdraw, requests_ask, requests_ask, List.append_assoc]
      simp [hdirty]
  | true =>
    let image := Picture.ofPixels w.scale w.pacer.machine.screen.pixels
    let replaced := { w.ask .clear with image }.ask (.setData (64 * w.scale * 4) image)
    let clean := w.pacer.mapMachine fun m => { m with screen := { m.screen with dirty := false } }
    have hdraw : w.draw = { replaced with pacer := clean }.ask (.blit 0 0) := by
      have hmarked : w.pacer.processor.machine.screen.dirty = true := hdirty
      simp only [draw, ask, hmarked]
      rfl
    have hreplaced : replaced.shown = some image := shown_ask _ _
    have hcoherent : Coherent { replaced with pacer := clean } w.scale :=
      ⟨rfl, hreplaced, fun _ => rfl⟩
    rw [hdraw]
    refine ⟨hcoherent.frame (frame_ask _ rfl), rfl, rfl, ?_⟩
    rw [requests_ask]
    show replaced.requests.toList ++ _ = _
    rw [requests_ask]
    show (w.ask .clear).requests.toList ++ _ ++ _ = _
    rw [requests_ask]
    simp [hdirty]
    rfl

/-! ## Sessions -/

variable [Clock κ τ] [Add τ] [LE τ] [DecidableLE τ]

theorem Coherent.tick (h : w.Coherent scale) : (after tick w).Coherent scale := by
  have hscreen := w.pacer.screen_tick
  have hout := tick_outcome w
  rw [after] at hscreen ⊢
  generalize (Window.tick : Windowing κ τ Unit) w = result at hout ⊢
  cases hout with
  | runs htick =>
    rw [htick] at hscreen
    exact (h.withPacer hscreen).frame (frame_soundFor _ _)
  | stops htick =>
    rw [htick] at hscreen
    exact (h.withPacer hscreen).frame ((frame_soundFor _ _).trans (frame_dismiss _))
  | fails htick =>
    rw [htick] at hscreen
    exact ((h.withPacer hscreen).fail _).frame ((frame_soundFor _ _).trans (frame_dismiss _))
  | misused htick =>
    rw [htick] at hscreen
    exact h.withPacer hscreen

/-- Whatever happens to a window, its image is not older than its screen says. -/
theorem Coherent.occur (h : w.Coherent scale) (happening : Happening) :
    (w.occur happening).Coherent scale := by
  cases happening with
  | tick => exact occur_tick (motive := fun w => w.Coherent scale) h h.tick
  | draw => exact (drawn_draw h).coherent
  | press key =>
    show (w.press key).Coherent scale
    rw [press]
    by_cases hkey : key = .f1
    · rw [if_pos hkey]
      exact h.withPacer (.inl rfl)
    · rw [if_neg hkey]
      exact h.post? _
  | release key => exact h.post? _
  | dismiss => exact h.frame (frame_dismiss w)

/-- **The window shows the screen.** Take a window for any machine that can be reached,
at any scale and with or without sound, and let anything happen to it. Any drawing
then leaves the picture of the screen's pixels on the host: `32 * scale` rows of
`64 * scale` pixels, each in the colour of the pixel of the screen that it belongs
to. A drawing of a screen that was not touched replaces no data, and the same holds
of what is shown then. -/
theorem shows_draw {p : Pacer κ τ} (hreach : Processor.Reachable p.processor) (scale : Nat)
    (sound : Bool) (happenings : List Happening) :
    let w := (new p scale sound).occurAll happenings
    let screen := w.pacer.machine.screen
    ∃ image, w.draw.shown = some image ∧ w.draw.image = image ∧ image.Shows scale screen.pixels ∧
      w.draw.pacer.machine.screen.pixels = screen.pixels ∧
      w.draw.requests.toList = w.requests.toList ++ .clear ::
        (if screen.dirty then [.setData (64 * scale * 4) image] else []) ++ [.blit 0 0] := by
  intro w screen
  have hcoherent : w.Coherent scale :=
    occurAll_induction (motive := fun w => w.Coherent scale) (fun happening h => h.occur happening)
      happenings (.new hreach scale sound)
  have hdrawn := drawn_draw hcoherent
  refine ⟨w.draw.image, hdrawn.coherent.shown, rfl, ?_, hdrawn.pixels, hdrawn.requests⟩
  rw [hdrawn.image]
  exact Picture.shows_ofPixels scale screen.pixels

/-- A sprite is drawn in the top left corner, shown, and shown again after an instruction
that draws nothing: no data is replaced, and at scale 2 the second pixel of the
topmost row is white and the ninth is black. -/
theorem shows_draw_of_sprite :
    let machine : Machine :=
      { Machine.initial with
        memory := Memory.blank.store Memory.programStart [0xD0, 0x05, 0x12, 0x02] }
    let p : Pacer (HandClock Nat) Nat :=
      .new (.ofMachine machine (.ofSource fun _ => 0) (.new false)) ⟨0, 1⟩ 1 1
    let w := (new p 2 true).occurAll [.tick, .draw, .press .f1, .tick]
    ∃ image, w.draw.shown = some image ∧
      w.draw.requests.toList = w.requests.toList ++ [.clear, .blit 0 0] ∧
      image[63]?.bind (·[1]?) = some ⟨255, 255, 255, 255⟩ ∧
      image[63]?.bind (·[8]?) = some ⟨0, 0, 0, 255⟩ := by
  intro machine p w
  have hload : Machine.ofProgram [0xD0, 0x05, 0x12, 0x02] = .ok machine :=
    Machine.ofProgram_of_le (by decide)
  have hreach : Processor.Reachable p.processor := .start hload _ _
  obtain ⟨hclean, hon, hoff⟩ :
      w.pacer.machine.screen.dirty = false ∧
      (w.pacer.machine.screen.pixels.get 0).get 0 = true ∧
      (w.pacer.machine.screen.pixels.get 0).get 4 = false := by
    decide +kernel
  obtain ⟨image, hshown, -, himage, -, hrequests⟩ :=
    shows_draw hreach 2 true [.tick, .draw, .press .f1, .tick]
  have hw : (new p 2 true).occurAll [.tick, .draw, .press .f1, .tick] = w := rfl
  rw [hw] at hshown himage hrequests
  clear_value w
  have hwhite := himage.colour 63 1 (by decide) (by decide)
  have hblack := himage.colour 63 8 (by decide) (by decide)
  refine ⟨image, hshown, ?_, hwhite.trans ?_, hblack.trans ?_⟩
  · simp [hrequests, hclean]
  · exact congrArg some (if_pos hon)
  · exact congrArg some (if_neg (Bool.eq_false_iff.mp hoff))

end Window

end ChipEight
