import ChipEight.Proofs.Events
import ChipEight.Proofs.Happening

/-!
# The window asks its host in turn

The host of a window keeps a sound player for it, calls its tick and shows it. Not
every request can be granted at any time: a player that plays is not started, one
that was deleted is not asked for anything, and a window that was closed asks for
nothing more. `Host.grant` says this request by request, and refuses what is out of
turn. A list of requests is in turn when the host grants all of them, and what the
host then knows says how they came out.

A session moves between two states of the host. As long as the window is open, the
tick is called and there is a player that plays if and only if the window believes
so (`Window.Live`). A window that is closed has given up its tick and its player
(`Window.Over`). Ticks stay in these two states because nothing but a fault can come
out of a tick of a proper pacer, and a fault closes the window as a halt does.
-/

namespace ChipEight

/-! ## Keys of the host -/

namespace HostKey

variable {event : Event}

theorem isForeign_of_pressEvent? (key : HostKey) (h : event ∈ key.pressEvent?) :
    event.isForeign = false := by
  rw [pressEvent?] at h
  rcases hpad : key.pad? with _ | number
  · rw [hpad] at h
    obtain ⟨control, -, rfl⟩ := Option.map_eq_some_iff.mp h
    rfl
  · rw [hpad] at h
    obtain rfl := Option.some.inj h
    rfl

theorem isForeign_of_releaseEvent? (key : HostKey) (h : event ∈ key.releaseEvent?) :
    event.isForeign = false := by
  obtain ⟨number, -, rfl⟩ := Option.map_eq_some_iff.mp h
  rfl

end HostKey

/-! ## The host -/

/-- Whether a request concerns the sound player. -/
def Request.isForPlayer : Request → Bool
  | .queue _ _ _ _ | .play | .pause | .delete => true
  | .image _ _ _ | .window _ _ _ _ | .schedule _ | .unschedule | .clear | .setData _ _
  | .blit _ _ | .close => false

/-- The sound player of a host. -/
inductive Player where
  | absent
  /-- there is a player, and it is playing or not -/
  | ready (playing : Bool)
  /-- the player was deleted, and it was playing then or not -/
  | deleted (playing : Bool)
  deriving DecidableEq, Repr

/-- The player after a request. A player is started when it is silent and stopped when
it plays, and nothing is asked of it before there is one or after it was deleted. -/
def Player.grant (player : Player) : Request → Option Player
  | .queue _ _ _ _ => if player = .absent then some (.ready false) else none
  | .play => if player = .ready false then some (.ready true) else none
  | .pause => if player = .ready true then some (.ready false) else none
  | .delete =>
    match player with
    | .ready playing => some (.deleted playing)
    | .absent | .deleted _ => none
  | _ => some player

/-- What a host knows of a window. -/
structure Host where
  player : Player
  /-- whether the window's tick is called -/
  scheduled : Bool
  /-- whether the window was closed -/
  closed : Bool
  deriving DecidableEq, Repr

namespace Host

/-- A host that was not asked for anything. -/
def initial : Host := ⟨.absent, false, false⟩

/-- The host after a request, unless that is out of turn. Ticks are scheduled and
given up once at a time, and the window is closed once and last of all. -/
def grant (h : Host) (request : Request) : Option Host :=
  if h.closed then none
  else match request with
    | .schedule _ => if h.scheduled then none else some { h with scheduled := true }
    | .unschedule => if h.scheduled then some { h with scheduled := false } else none
    | .close => some { h with closed := true }
    | request => (h.player.grant request).map fun player => { h with player }

end Host

namespace Window

variable {κ τ : Type} {w w' : Window κ τ} {host : Host} {playing : Bool}

/-- The host of a window, if all that the window asked for was in turn. -/
def host? (w : Window κ τ) : Option Host :=
  w.requests.toList.foldlM Host.grant .initial

theorem host?_ask (h : w.host? = some host) {request : Request} :
    (w.ask request).host? = host.grant request := by
  rw [host?] at h
  simp [host?, requests_ask, List.foldlM_append, h]

/-- A host grants drawings as long as the window is open. -/
theorem foldlM_grant_drawing {requests : List Request} (hopen : host.closed = false)
    (h : ∀ request ∈ requests, request.isForDrawing = true) :
    requests.foldlM Host.grant host = some host := by
  obtain ⟨player, scheduled, closed⟩ := host
  obtain rfl : closed = false := hopen
  induction requests with
  | nil => rfl
  | cons request rest ih =>
    obtain ⟨hfirst, hrest⟩ := List.forall_mem_cons.mp h
    have hgrant : Host.grant ⟨player, scheduled, false⟩ request =
        some ⟨player, scheduled, false⟩ := by
      cases request with
      | clear | setData _ _ | blit _ _ => rfl
      | image _ _ _ | window _ _ _ _ | queue _ _ _ _ | schedule _ | unschedule | play | pause
      | delete | close => cases hfirst
    rw [List.foldlM_cons, hgrant]
    exact ih hrest

/-! ## Windows with a player -/

/-- The window is open, its tick is called, and the player is as the window believes. -/
structure Live (w : Window κ τ) (playing : Bool) : Prop where
  host : w.host? = some ⟨.ready playing, true, false⟩
  player : w.player = some playing
  scheduled : w.scheduled = true
  closed : w.closed = false

/-- The window is closed, its tick is given up, and its player was deleted. -/
structure Over (w : Window κ τ) (playing : Bool) : Prop where
  host : w.host? = some ⟨.deleted playing, false, true⟩
  closed : w.closed = true

theorem live_new (p : Pacer κ τ) (scale : Nat) : (new p scale true).Live false := by
  refine ⟨?_, rfl, rfl, rfl⟩
  simp [new, host?, ask, Host.grant, Host.initial, Player.grant]

namespace Live

/-- What is done quietly is always in turn. -/
theorem quiet (h : w.Live playing) (hquiet : w.Quiet w') : w'.Live playing := by
  obtain ⟨more, hrequests, hmore⟩ := hquiet.requests
  refine ⟨?_, hquiet.player.trans h.player, hquiet.scheduled.trans h.scheduled,
    hquiet.closed.trans h.closed⟩
  have hhost := h.host
  rw [host?] at hhost
  rw [host?, hrequests, List.foldlM_append, hhost]
  exact foldlM_grant_drawing rfl hmore

/-- The player is started or stopped when that is its turn. -/
theorem askPlayer (h : w.Live playing) {request : Request} {adjusted : Bool}
    (hgrant : Host.grant ⟨.ready playing, true, false⟩ request =
      some ⟨.ready adjusted, true, false⟩) :
    ({ w with player := some adjusted }.ask request).Live adjusted := by
  have hhost : Window.host? { w with player := some adjusted } =
      some ⟨.ready playing, true, false⟩ := h.host
  exact ⟨(host?_ask hhost).trans hgrant, rfl, h.scheduled, h.closed⟩

/-- The player is started and stopped in turn, and plays afterwards if and only if the
timer runs. -/
theorem soundFor (h : w.Live playing) (timer : UInt8) :
    (w.soundFor timer).Live (decide (timer > 0)) := by
  rw [Window.soundFor, h.player]
  cases playing with
  | false =>
    by_cases htimer : timer > 0
    · simp only [htimer, if_true, decide_true]
      exact h.askPlayer rfl
    · simp only [htimer, if_false, decide_false]
      exact h
  | true =>
    by_cases htimer : timer = 0
    · subst htimer
      exact h.askPlayer rfl
    · have hruns : timer > 0 := UInt8.pos_iff_ne_zero.mpr htimer
      simp only [htimer, hruns, if_false, decide_true]
      exact h

/-- Closing gives up the tick and then the player, and is the last request. -/
theorem dismiss (h : w.Live playing) : w.dismiss.Over playing := by
  let unscheduled : Window κ τ := { w with scheduled := false }.ask .unschedule
  have hunscheduled : unscheduled.host? = some ⟨.ready playing, false, false⟩ :=
    host?_ask (w := { w with scheduled := false }) h.host
  let deleted : Window κ τ := { unscheduled with player := none }.ask .delete
  have hdeleted : deleted.host? = some ⟨.deleted playing, false, false⟩ :=
    host?_ask (w := { unscheduled with player := none }) hunscheduled
  have hdismiss : w.dismiss = { deleted with closed := true }.ask .close := by
    rw [Window.dismiss, shutdown, h.player]
    rfl
  rw [hdismiss]
  exact ⟨host?_ask (w := { deleted with closed := true }) hdeleted, rfl⟩

end Live

/-! ## Windows without a player -/

/-- There is no player, and nothing was asked of one. -/
structure Silent (w : Window κ τ) : Prop where
  player : w.player = none
  requests : ∀ request ∈ w.requests.toList, request.isForPlayer = false

namespace Silent

theorem quiet (h : w.Silent) (hquiet : w.Quiet w') : w'.Silent where
  player := hquiet.player.trans h.player
  requests := by
    obtain ⟨more, hrequests, hmore⟩ := hquiet.requests
    intro request hrequest
    rw [hrequests] at hrequest
    rcases List.mem_append.mp hrequest with hbefore | hlast
    · exact h.requests request hbefore
    · have hdrawing := hmore request hlast
      cases request with
      | queue _ _ _ _ | play | pause | delete => cases hdrawing
      | clear | setData _ _ | blit _ _ | image _ _ _ | window _ _ _ _ | schedule _ | unschedule
      | close => rfl

theorem ask (h : w.Silent) {request : Request} (hrequest : request.isForPlayer = false) :
    (w.ask request).Silent where
  player := h.player
  requests := by
    intro other hother
    rw [requests_ask] at hother
    rcases List.mem_append.mp hother with hbefore | hlast
    · exact h.requests other hbefore
    · rwa [List.mem_singleton.mp hlast]

theorem new (p : Pacer κ τ) (scale : Nat) : (Window.new p scale false).Silent := by
  refine ⟨rfl, ?_⟩
  simp [Window.new, Window.ask, Request.isForPlayer]

theorem soundFor (h : w.Silent) (timer : UInt8) : (w.soundFor timer).Silent := by
  rw [Window.soundFor, h.player]
  exact h

theorem dismiss (h : w.Silent) : w.dismiss.Silent := by
  have hscheduled : Silent { w with scheduled := false } := ⟨h.player, h.requests⟩
  have hshutdown : w.shutdown.Silent := by
    have hunscheduled : w.shutdown = { w with scheduled := false }.ask .unschedule := by
      simp [shutdown, Window.ask, h.player]
    rw [hunscheduled]
    exact hscheduled.ask rfl
  have hclosed : Silent { w.shutdown with closed := true } := ⟨hshutdown.player, hshutdown.requests⟩
  exact hclosed.ask rfl

end Silent

/-! ## What keeps a window in turn -/

/-- A window with a player is in turn with its host, and stays so. -/
structure InTurn (w : Window κ τ) : Prop where
  proper : w.pacer.Proper
  state : (∃ playing, w.Live playing) ∨ ∃ playing, w.Over playing

theorem InTurn.live (h : w.InTurn) (hopen : w.closed = false) : ∃ playing, w.Live playing := by
  rcases h.state with hlive | ⟨playing, hover⟩
  · exact hlive
  · rw [hover.closed] at hopen
    cases hopen

theorem InTurn.quiet (h : w.InTurn) (hopen : w.closed = false) (hquiet : w.Quiet w')
    (hproper : w'.pacer.Proper) : w'.InTurn := by
  obtain ⟨playing, hlive⟩ := h.live hopen
  exact ⟨hproper, .inl ⟨playing, hlive.quiet hquiet⟩⟩

theorem proper_post? (h : w.pacer.Proper) {event? : Option Event}
    (hevent : ∀ event ∈ event?, event.isForeign = false) : (w.post? event?).pacer.Proper := by
  cases event? with
  | none => exact h
  | some event => exact h.post (hevent event rfl)

theorem proper_draw (h : w.pacer.Proper) : w.draw.pacer.Proper := by
  rw [draw]
  by_cases hdirty : (w.ask .clear).pacer.processor.machine.screen.dirty = true
  · simp only [if_pos hdirty]
    exact ⟨⟨h.bounded.registers, h.bounded.register_nonneg, h.bounded.register_le⟩, h.queue⟩
  · simp only [if_neg hdirty]
    exact h

theorem proper_press (h : w.pacer.Proper) (key : HostKey) : (w.press key).pacer.Proper := by
  rw [press]
  by_cases hkey : key = .f1
  · rw [if_pos hkey]
    exact ⟨h.bounded, h.queue⟩
  · rw [if_neg hkey]
    exact proper_post? h fun _ => key.isForeign_of_pressEvent?

theorem proper_release (h : w.pacer.Proper) (key : HostKey) : (w.release key).pacer.Proper :=
  proper_post? h fun _ => key.isForeign_of_releaseEvent?

/-! ## Sessions -/

variable [Clock κ τ] [Add τ] [LE τ] [DecidableLE τ]

theorem Silent.tick (h : w.Silent) : (after tick w).Silent := by
  have hout := tick_outcome w
  rw [after]
  generalize (Window.tick : Windowing κ τ Unit) w = result at hout ⊢
  cases hout with
  | runs _ => exact (h.quiet (w.quiet_withPacer _)).soundFor _
  | stops _ => exact ((h.quiet (w.quiet_withPacer _)).soundFor 0).dismiss
  | fails _ =>
    have hfail {q : Pacer κ τ} {fault : Fault} : (fail { w with pacer := q } fault).Silent :=
      ⟨h.player, h.requests⟩
    exact (hfail.soundFor 0).dismiss
  | misused _ => exact h.quiet (w.quiet_withPacer _)

/-- Whatever happens to a window without a player, nothing is asked of one. -/
theorem Silent.occur (h : w.Silent) (happening : Happening) : (w.occur happening).Silent := by
  cases happening with
  | tick => exact occur_tick h h.tick
  | draw => exact h.quiet w.quiet_draw
  | press key => exact h.quiet (w.quiet_press key)
  | release key => exact h.quiet (w.quiet_post? _)
  | dismiss => exact h.dismiss

namespace Live

/-- A tick leaves the player playing if and only if the sound timer runs, or it ends
the session with a player that is silent. -/
theorem tick (h : w.Live playing) (hproper : w.pacer.Proper) :
    ∃ w', (Window.tick : Windowing κ τ Unit) w = .ok () w' ∧ w'.pacer.Proper ∧
      ((w'.Live (decide (w'.pacer.machine.registers.sound > 0)) ∧ w'.pacer.halted = false) ∨
        (w'.Over false ∧ w'.pacer.halted = true)) := by
  have hticked := hproper.tick
  have hout := tick_outcome w
  rw [after] at hticked
  generalize (Window.tick : Windowing κ τ Unit) w = result at hout ⊢
  cases hout with
  | @runs q htick =>
    rw [htick] at hticked
    let w' := { w with pacer := q }.soundFor q.machine.registers.sound
    have hpacer : w'.pacer = q := (frame_soundFor _ _).pacer
    refine ⟨w', rfl, ?_, .inl ⟨?_, ?_⟩⟩
    · rwa [hpacer]
    · rw [hpacer]
      exact (h.quiet (w.quiet_withPacer q)).soundFor _
    · rw [hpacer]
      exact Pacer.halted_of_tick htick
  | @stops q htick =>
    rw [htick] at hticked
    let w' := ({ w with pacer := q }.soundFor 0).dismiss
    have hpacer : w'.pacer = q := ((frame_soundFor _ _).trans (frame_dismiss _)).pacer
    refine ⟨w', rfl, ?_, .inr ⟨?_, ?_⟩⟩
    · rwa [hpacer]
    · exact ((h.quiet (w.quiet_withPacer q)).soundFor 0).dismiss
    · rw [hpacer]
      exact Pacer.halted_of_tick htick
  | @fails fault q htick =>
    rw [htick] at hticked
    let failed := { w with pacer := q }.fail fault
    let w' := (failed.soundFor 0).dismiss
    have hfailed : failed.Live playing := ⟨h.host, h.player, h.scheduled, h.closed⟩
    have hpacer : w'.pacer = failed.pacer := ((frame_soundFor _ _).trans (frame_dismiss _)).pacer
    refine ⟨w', rfl, ?_, .inr ⟨?_, ?_⟩⟩
    · rw [hpacer]
      exact ⟨⟨hticked.bounded.registers, hticked.bounded.register_nonneg,
        hticked.bounded.register_le⟩, hticked.queue⟩
    · exact (hfailed.soundFor 0).dismiss
    · rw [hpacer]
      rfl
  | misused htick =>
    obtain ⟨fault, hfault⟩ := hproper.fault_of_tick htick
    cases hfault

end Live

/-- What happens to an open window is in turn. -/
theorem InTurn.happen (h : w.InTurn) (hopen : w.closed = false) (happening : Happening) :
    ∃ w', (happen happening : Windowing κ τ Unit) w = .ok () w' ∧ w'.InTurn := by
  obtain ⟨playing, hlive⟩ := h.live hopen
  cases happening with
  | tick =>
    rw [happen_tick, if_pos hlive.scheduled]
    obtain ⟨w', htick, hproper, hstate⟩ := hlive.tick h.proper
    refine ⟨w', htick, hproper, ?_⟩
    rcases hstate with ⟨hlive', -⟩ | ⟨hover, -⟩
    · exact .inl ⟨_, hlive'⟩
    · exact .inr ⟨_, hover⟩
  | draw =>
    exact ⟨w.draw, rfl, h.quiet hopen w.quiet_draw (proper_draw h.proper)⟩
  | press key =>
    exact ⟨w.press key, rfl, h.quiet hopen (w.quiet_press key) (proper_press h.proper key)⟩
  | release key =>
    exact ⟨w.release key, rfl, h.quiet hopen (w.quiet_post? _) (proper_release h.proper key)⟩
  | dismiss =>
    have hproper : w.dismiss.pacer.Proper := by
      rw [(frame_dismiss w).pacer]
      exact h.proper
    exact ⟨w.dismiss, rfl, hproper, .inr ⟨playing, hlive.dismiss⟩⟩

/-- A whole session is in turn. -/
theorem InTurn.play (h : w.InTurn) (happenings : List Happening) :
    ∃ w', (play happenings : Windowing κ τ Unit) w = .ok () w' ∧ w'.InTurn := by
  induction happenings generalizing w with
  | nil => exact ⟨w, rfl, h⟩
  | cons happening rest ih =>
    rw [play_cons]
    by_cases hclosed : w.closed = true
    · rw [if_pos hclosed]
      exact ⟨w, rfl, h⟩
    · obtain ⟨w', hhappen, hturn⟩ := h.happen (Bool.eq_false_iff.mpr hclosed) happening
      rw [if_neg hclosed, hhappen]
      exact ih hturn

/-- **The window asks its host in turn.** Take a session of a window with sound, for any
machine that can be reached and with no foreign value queued, and let anything happen
to it. It meets no misuse, and the host grants all that is asked for. If the window was
closed, its tick was given up, its player was deleted and it was closed, each of them
once and nothing after it. If it is open, the user may close it, and the next tick
either leaves it open with a player that plays if and only if the sound timer runs, or
halts the machine and closes it with a player that is silent. A window without sound
asks nothing of a player, whatever machine it is for. -/
theorem inTurn_play {p : Pacer κ τ} (hreach : Processor.Reachable p.processor)
    (hqueue : ∀ event ∈ p.queue, event.isForeign = false) (scale : Nat)
    (happenings : List Happening) :
    (∃ w, (play happenings : Windowing κ τ Unit) (new p scale true) = .ok () w ∧
      (w.closed = true → ∃ playing, w.host? = some ⟨.deleted playing, false, true⟩) ∧
      (w.closed = false → ∃ playing, w.host? = some ⟨.ready playing, true, false⟩ ∧
        w.dismiss.host? = some ⟨.deleted playing, false, true⟩ ∧ w.dismiss.closed = true ∧
        ∃ w', (happen .tick : Windowing κ τ Unit) w = .ok () w' ∧
          w'.closed = w'.pacer.halted ∧
          w'.host? = some (if w'.closed then ⟨.deleted false, false, true⟩
            else ⟨.ready (decide (w'.pacer.machine.registers.sound > 0)), true, false⟩))) ∧
    ∀ (q : Pacer κ τ) (request : Request),
      request ∈ (after (play happenings) (new q scale false)).requests.toList →
        request.isForPlayer = false := by
  have hnew : (new p scale true).InTurn :=
    ⟨⟨hreach.bounded, hqueue⟩, .inl ⟨false, live_new p scale⟩⟩
  obtain ⟨w, hplay, hturn⟩ := hnew.play happenings
  refine ⟨⟨w, hplay, ?_, ?_⟩, ?_⟩
  · intro hclosed
    rcases hturn.state with ⟨playing, hlive⟩ | ⟨playing, hover⟩
    · rw [hlive.closed] at hclosed
      cases hclosed
    · exact ⟨playing, hover.host⟩
  · intro hopen
    obtain ⟨playing, hlive⟩ := hturn.live hopen
    obtain ⟨w', htick, -, hstate⟩ := hlive.tick hturn.proper
    refine ⟨playing, hlive.host, hlive.dismiss.host, hlive.dismiss.closed, w', ?_, ?_⟩
    · rw [happen_tick, if_pos hlive.scheduled, htick]
    · rcases hstate with ⟨hlive', hhalted⟩ | ⟨hover, hhalted⟩
      · rw [hlive'.closed, hhalted]
        exact ⟨rfl, hlive'.host⟩
      · rw [hover.closed, hhalted]
        exact ⟨rfl, hover.host⟩
  · intro q
    obtain ⟨first, -, hafter⟩ := after_play happenings (new q scale false)
    rw [hafter]
    exact (occurAll_induction (motive := Silent) (fun happening h => h.occur happening) first
      (.new q scale)).requests

/-- A program starts the tone and runs into memory that holds nothing. The second tick
leaves the player playing; the third one stops it, deletes it and closes the window. -/
theorem inTurn_play_of_tone :
    let machine : Machine :=
      { Machine.initial with
        memory := Memory.blank.store Memory.programStart [0x63, 0x02, 0xF3, 0x18] }
    let p : Pacer (HandClock Nat) Nat :=
      .new (.ofMachine machine (.ofSource fun _ => 0) (.new false)) ⟨0, 1⟩ 1 3
    let drawn := after (play [.tick, .draw]) (new p 1 true)
    let heard := after (play [.tick, .draw, .tick]) (new p 1 true)
    (drawn.occur .tick).host? = some ⟨.ready true, true, false⟩ ∧
      (heard.occur .tick).host? = some ⟨.deleted false, false, true⟩ := by
  intro machine p drawn heard
  have hload : Machine.ofProgram [0x63, 0x02, 0xF3, 0x18] = .ok machine :=
    Machine.ofProgram_of_le (by decide)
  have hreach : Processor.Reachable p.processor := .start hload _ _
  have hqueue : ∀ event ∈ p.queue, event.isForeign = false := List.forall_mem_nil _
  obtain ⟨hdrawn, hsecond, hsound, hheard, hthird⟩ :
      drawn.closed = false ∧ (drawn.occur .tick).closed = false ∧
      (drawn.occur .tick).pacer.machine.registers.sound > 0 ∧
      heard.closed = false ∧ (heard.occur .tick).closed = true := by
    decide +kernel
  obtain ⟨⟨w, hplay, -, hnext⟩, -⟩ := inTurn_play hreach hqueue 1 [.tick, .draw]
  obtain rfl : drawn = w := by simp only [drawn, after, hplay]
  obtain ⟨-, -, -, -, w, hhappen, -, hplaying⟩ := hnext hdrawn
  obtain rfl : drawn.occur .tick = w := by rw [occur, after, hhappen]
  obtain ⟨⟨v, hplay', -, hnext'⟩, -⟩ := inTurn_play hreach hqueue 1 [.tick, .draw, .tick]
  obtain rfl : heard = v := by simp only [heard, after, hplay']
  obtain ⟨-, -, -, -, v, hhappen', -, hover⟩ := hnext' hheard
  obtain rfl : heard.occur .tick = v := by rw [occur, after, hhappen']
  rw [hsecond] at hplaying
  rw [hthird] at hover
  rw [hplaying, hover]
  simp [hsound]

end Window

end ChipEight
