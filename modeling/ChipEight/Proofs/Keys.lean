import ChipEight.Proofs.Bare
import ChipEight.Proofs.Protocol
import ChipEight.Proofs.Suspension
import ChipEight.Proofs.WriteSet

/-!
# No key is stuck or lost

A key of the keypad is in the state that the last key event for it put it in: no
instruction touches it, the end of a wait does not, and neither does an event for another
key (`Processor.down_actAll`). The key events that reach the machine in a run are those
that were taken off the queue, each once and in order (`Pacer.Delivers`), and a tick that
says that the machine is running leaves nothing in the queue. So after such a tick a key is
down just when the last event that was posted for it was a press, whatever was refused
before.

In a window, a key of the host stands for one key of the keypad, and no other key of the
host stands for it. So that key is down just when the key of the host was last pressed.
-/

namespace ChipEight

/-- The state in which the last of several changes leaves a key that was up before. -/
def lastState (states : List Bool) : Bool := states.getLast?.getD false

/-- The state that an event puts a key in, if it is an event of that key. -/
def Event.state? (k : Fin 16) : Event → Option Bool
  | .key number isDown => if number = k.val then some isDown else none
  | .control _ | .foreign _ => none

/-! ## Actions -/

namespace Processor

/-- The state that an action puts a key in, if it is an event of that key. -/
def Action.state? (k : Fin 16) : Action → Option Bool
  | .key number isDown => if number = k.val then some isDown else none
  | .step | .countDown | .halt | .log _ => none

variable {p : Processor}

/-- No step touches a key. -/
theorem down_step (p : Processor) (k : Fin 16) :
    (after step p).machine.keypad.down.get k = p.machine.keypad.down.get k := by
  have hout := step_outcome p
  rw [after]
  generalize step p = result at hout ⊢
  cases hout with
  | unavailable _ => rfl
  | halts _ => rfl
  | refused _ _ => rfl
  | completes _ heffect => exact Instruction.keeps_effect heffect (.key k) id

/-- A key event puts its key into the state that it says, whether or not it ends a wait,
and no other key. -/
theorem down_keyEvent (m : Machine) (number : Int) (isDown : Bool) (k : Fin 16) :
    (after (Machine.keyEvent number isDown) m).keypad.down.get k =
      if number = k.val then isDown else m.keypad.down.get k := by
  have hrecord {j : Fin 16} (hkey : Keypad.key number = .ok j) :
      (m.keypad.record j isDown).down.get k =
        if number = k.val then isDown else m.keypad.down.get k := by
    have hnumber : number = j.val := cell?_eq_some_iff.mp (Keypad.cell_of_key hkey)
    have hsame : number = k.val ↔ j = k := by
      rw [hnumber, Fin.ext_iff]
      omega
    simp only [Keypad.record, get_fill, hsame]
  have hout := Machine.keyEvent_outcome m number isDown
  rw [after]
  generalize Machine.keyEvent number isDown m = result at hout ⊢
  cases hout with
  | unknown hkey =>
    have hne : number ≠ k.val := by
      rintro rfl
      rw [Keypad.key_of_cell (cell?_eq_some_iff.mpr rfl)] at hkey
      cases hkey
    rw [if_neg hne]
  | noted hkey _ => exact hrecord hkey
  | settled hkey _ _ _ => exact hrecord hkey
  | misdirected hkey _ _ _ => exact hrecord hkey

theorem down_act (k : Fin 16) (action : Action) :
    (p.act action).machine.keypad.down.get k =
      (action.state? k).getD (p.machine.keypad.down.get k) := by
  cases action with
  | step => exact p.down_step k
  | key number isDown =>
    rw [Action.state?]
    refine (down_keyEvent p.machine number isDown k).trans ?_
    split <;> rfl
  | countDown => rfl
  | halt => rfl
  | log change => rfl

/-- A key is in the state that the last action for it put it in. -/
theorem down_actAll (k : Fin 16) (actions : List Action) :
    (p.actAll actions).machine.keypad.down.get k =
      (actions.filterMap (Action.state? k)).getLast?.getD (p.machine.keypad.down.get k) := by
  induction actions generalizing p with
  | nil => rfl
  | cons action rest ih =>
    rw [actAll_cons, ih, down_act]
    rcases hstate : action.state? k with _ | isDown
    · rw [List.filterMap_cons_none hstate, Option.getD_none]
    · rw [List.filterMap_cons_some hstate, List.getLast?_cons, Option.getD_some, Option.getD_some]

end Processor

/-! ## Runs -/

namespace Pacer

variable {κ τ : Type} {first rest : List (Move τ)} {k : Fin 16}

/-- The events for a key that reach the machine are those that are taken. -/
def Delivers (k : Fin 16) (moves : List (Move τ)) : Prop :=
  (actions moves).filterMap (Processor.Action.state? k) =
    (taken moves).filterMap (Event.state? k)

theorem Delivers.append (hfirst : Delivers k first) (hrest : Delivers k rest) :
    Delivers k (first ++ rest) := by
  rw [Delivers] at hfirst hrest ⊢
  rw [actions_append, taken, List.filterMap_append, List.filterMap_append, List.filterMap_append,
    hfirst, hrest]
  rfl

theorem delivers_toggleMoves (p : Pacer κ τ) : Delivers k p.toggleMoves := by
  rw [toggleMoves]
  cases p.paused <;> rfl

/-- An event that is taken off the queue reaches the machine. -/
theorem delivers_take (event : Event) (p : Pacer κ τ) :
    Delivers k (.take event :: p.eventMoves event) := by
  cases event with
  | key number isDown =>
    rw [eventMoves]
    rcases Machine.keyEvent number isDown p.processor.machine with ⟨_ | _, _⟩ | ⟨_, _⟩ <;> rfl
  | control control =>
    cases control with
    | pause => exact p.delivers_toggleMoves
    | step =>
      rw [eventMoves]
      cases p.processor.machine.waiting <;> rfl
    | quit => rfl
  | foreign value => rfl

theorem piecewise_delivers (k : Fin 16) : Piecewise κ (Delivers (τ := τ) k) where
  nil := rfl
  append := .append
  event := delivers_take
  read := rfl
  issue := fun _ => rfl
  count := fun _ => rfl

variable [Clock κ τ] [Add τ] [LE τ] [DecidableLE τ]

/-- In a run that leaves the processor to its pacer, every event that is taken reaches the
machine, and no other. -/
theorem delivers_course {operations : List Operation}
    (hpaced : ∀ operation ∈ operations, operation.direct = false) (p : Pacer κ τ) :
    Delivers k (p.course operations) := by
  induction operations generalizing p with
  | nil => rfl
  | cons operation rest ih =>
    obtain ⟨hfirst, hrest⟩ := List.forall_mem_cons.mp hpaced
    refine .append ?_ (ih hrest _)
    cases operation with
    | act action => cases hfirst
    | post event => rfl
    | pause => rfl
    | resume => rfl
    | togglePause => exact p.delivers_toggleMoves
    | tick => exact (piecewise_delivers k).tick p
    | run cap => exact (piecewise_delivers k).run _ p

omit [Clock κ τ] [Add τ] [LE τ] [DecidableLE τ] in
theorem direct_append_tick {operations : List Operation}
    (hpaced : ∀ operation ∈ operations, operation.direct = false) :
    ∀ operation ∈ operations ++ [.tick], operation.direct = false :=
  List.forall_mem_append.mpr ⟨hpaced, List.forall_mem_singleton.mpr rfl⟩

theorem performAll_tick {p q : Pacer κ τ} {running : Bool} {operations : List Operation}
    (htick : (Pacing.tick : Pacing κ τ Bool) (p.performAll operations) = .ok running q) :
    p.performAll (operations ++ [.tick]) = q := by
  rw [performAll_append]
  show after Pacing.tick (p.performAll operations) = q
  rw [after, htick]

/-- A tick that leaves the machine running leaves nothing in the queue, so everything that was
posted was taken. -/
theorem taken_of_tick {p q : Pacer κ τ} (hempty : p.queue = []) {operations : List Operation}
    (hpaced : ∀ operation ∈ operations, operation.direct = false)
    (htick : (Pacing.tick : Pacing κ τ Bool) (p.performAll operations) = .ok true q) :
    taken (p.course (operations ++ [.tick])) = operations.filterMap Operation.posted? := by
  have hticked := direct_append_tick hpaced
  have hqueue := queue_append_posted (allowsAll_course (p := p) p.now hticked)
  rw [moveAll_course, performAll_tick htick, queue_of_tick htick, hempty, posted_eq_filterMap,
    List.nil_append, List.append_nil, List.filterMap_append] at hqueue
  exact hqueue.symm.trans (List.append_nil _)

/-- After a tick that leaves the machine running, a key is in the state of the last event
that was posted for it. -/
theorem isDown_of_tick {p q : Pacer κ τ} (hempty : p.queue = [])
    (hup : p.machine.keypad.down.get k = false) {operations : List Operation}
    (hpaced : ∀ operation ∈ operations, operation.direct = false)
    (htick : (Pacing.tick : Pacing κ τ Bool) (p.performAll operations) = .ok true q) :
    q.machine.keypad.isDown k.val = .ok (lastState
      ((operations.filterMap Operation.posted?).filterMap (Event.state? k))) := by
  have hticked := direct_append_tick hpaced
  have hdown := Processor.down_actAll (p := p.processor) k
    (actions (p.course (operations ++ [.tick])))
  rw [← processor_performAll, performAll_tick htick, delivers_course hticked p,
    taken_of_tick hempty hpaced htick] at hdown
  have hcell : Keypad.key k.val = .ok k := Keypad.key_of_cell (cell?_eq_some_iff.mpr rfl)
  rw [Keypad.isDown, hcell, lastState, ← hup]
  exact congrArg Except.ok hdown

end Pacer

/-! ## Windows -/

namespace HostKey

/-- A host key that stands for a key of the keypad stands for no other, and no other host key
stands for that key. -/
theorem number_eq_iff {c d : Char} {number other : Nat} (hc : (c, number) ∈ layout)
    (hd : (d, other) ∈ layout) : other = number ↔ d = c := by
  have hentries : ∀ entry ∈ layout, ∀ entry' ∈ layout, entry'.2 = entry.2 ↔ entry'.1 = entry.1 := by
    decide
  exact hentries (c, number) hc (d, other) hd

theorem lt_of_mem_layout {c : Char} {number : Nat} (h : (c, number) ∈ layout) : number < 16 := by
  have hentries : ∀ entry ∈ layout, entry.2 < 16 := by decide
  exact hentries (c, number) h

variable {c : Char} {k : Fin 16}

theorem state?_of_mem_layout {d : Char} {other : Nat} (hc : (c, k.val) ∈ layout)
    (hd : (d, other) ∈ layout) (isDown : Bool) :
    (Event.key other isDown).state? k = if char d = char c then some isDown else none := by
  have hsame : (other : Int) = k.val ↔ char d = char c := by
    rw [Int.natCast_inj, number_eq_iff hc hd, char.injEq]
  simp only [Event.state?, hsame]

/-- An event that puts a key of the keypad down comes from the host key that stands for it. -/
theorem pressEvent?_bind_state? (hc : (c, k.val) ∈ layout) (key : HostKey) :
    key.pressEvent?.bind (Event.state? k) = if key = .char c then some true else none := by
  rcases hevent : key.pressEvent? with _ | event
  · have hne : key ≠ .char c := by
      rintro rfl
      rw [pressEvent?_eq_some_iff.mpr (.pad hc)] at hevent
      cases hevent
    rw [if_neg hne, Option.bind_none]
  · rw [Option.bind_some]
    cases pressEvent?_eq_some_iff.mp hevent with
    | pad hd => exact state?_of_mem_layout hc hd true
    | pause | quit => rfl
    | step =>
      have hne : char 'P' ≠ char c := by
        rintro ⟨⟩
        cases lookup_of_mem hc
      rw [if_neg hne]
      rfl

/-- An event that lets a key of the keypad go up does so, too. -/
theorem releaseEvent?_bind_state? (hc : (c, k.val) ∈ layout) (key : HostKey) :
    key.releaseEvent?.bind (Event.state? k) = if key = .char c then some false else none := by
  rcases hevent : key.releaseEvent? with _ | event
  · have hne : key ≠ .char c := by
      rintro rfl
      rw [releaseEvent?_eq_some_iff.mpr (.pad hc)] at hevent
      cases hevent
    rw [if_neg hne, Option.bind_none]
  · rw [Option.bind_some]
    cases releaseEvent?_eq_some_iff.mp hevent with
    | pad hd => exact state?_of_mem_layout hc hd false

end HostKey

namespace Window

/-- The state in which a happening leaves the host key of a character, if it is a press or a
release of it. -/
def Happening.state? (c : Char) : Happening → Option Bool
  | .press key => if key = .char c then some true else none
  | .release key => if key = .char c then some false else none
  | .tick | .draw | .dismiss => none

variable {c : Char} {k : Fin 16}

theorem filterMap_posts (event : Option Event) (f : Event → Option Bool) :
    ((event.toList.map Pacer.Operation.post).filterMap Pacer.Operation.posted?).filterMap f =
      (event.bind f).toList := by
  rcases event with _ | event
  · rfl
  · rw [Option.bind_some]
    show [event].filterMap f = _
    rcases hstate : f event with _ | isDown <;> simp [hstate]

/-- What is posted for a key of the keypad is what happens to its host key. -/
theorem filterMap_operations (hc : (c, k.val) ∈ HostKey.layout) (happenings : List Happening) :
    ((happenings.flatMap Happening.operations).filterMap Pacer.Operation.posted?).filterMap
      (Event.state? k) = happenings.filterMap (Happening.state? c) := by
  have hone (happening : Happening) :
      (happening.operations.filterMap Pacer.Operation.posted?).filterMap (Event.state? k) =
        (happening.state? c).toList := by
    cases happening with
    | tick | draw | dismiss => rfl
    | press key =>
      rw [Happening.operations, filterMap_posts, HostKey.pressEvent?_bind_state? hc]
      rfl
    | release key =>
      rw [Happening.operations, filterMap_posts, HostKey.releaseEvent?_bind_state? hc]
      rfl
  induction happenings with
  | nil => rfl
  | cons happening rest ih =>
    rw [List.flatMap_cons, List.filterMap_append, List.filterMap_append, hone, ih]
    rcases hstate : happening.state? c with _ | isDown <;> simp [hstate]

theorem direct_operations (happenings : List Happening) :
    ∀ operation ∈ happenings.flatMap Happening.operations, operation.direct = false := by
  intro operation hoperation
  obtain ⟨happening, -, hmem⟩ := List.mem_flatMap.mp hoperation
  cases happening with
  | tick =>
    obtain rfl := List.mem_singleton.mp hmem
    rfl
  | press key | release key =>
    obtain ⟨event, -, rfl⟩ := List.mem_map.mp hmem
    rfl
  | draw | dismiss => cases hmem

variable {κ τ : Type} [Clock κ τ] [Add τ] [LE τ] [DecidableLE τ] {p : Pacer κ τ}

theorem proper_operations (h : p.Proper) (happenings : List Happening) :
    (p.performAll (happenings.flatMap Happening.operations)).Proper := by
  have hpost {q : Pacer κ τ} (h : q.Proper) {event? : Option Event}
      (hevent : ∀ event ∈ event?, event.isForeign = false) :
      (q.performAll (event?.toList.map .post)).Proper := by
    cases event? with
    | none => exact h
    | some event => exact h.post (hevent event rfl)
  induction happenings generalizing p with
  | nil => exact h
  | cons happening rest ih =>
    rw [List.flatMap_cons, Pacer.performAll_append]
    refine ih ?_
    cases happening with
    | tick => exact h.tick
    | press key => exact hpost h fun _ => key.isForeign_of_pressEvent?
    | release key => exact hpost h fun _ => key.isForeign_of_releaseEvent?
    | draw | dismiss => exact h

/-- After a tick that leaves the window open, a key is in the state in which its host key was
left last. -/
theorem isDown_of_open (hproper : p.Proper) (hempty : p.queue = [])
    (hup : p.machine.keypad.down.get k = false) (hc : (c, k.val) ∈ HostKey.layout) {scale : Nat}
    {sound : Bool} {happenings : List Happening}
    (hopen : ((new p scale sound).occurAll (happenings ++ [.tick])).closed = false) :
    ((new p scale sound).occurAll (happenings ++ [.tick])).pacer.machine.keypad.isDown k.val =
      .ok (lastState (happenings.filterMap (Happening.state? c))) := by
  obtain ⟨hstays, hruns⟩ := (closed_occurAll_eq_false_iff p scale sound _).mp hopen
  have htracks := (tracks_new p scale sound).occurAll hstays hruns
  have hoperations : (happenings ++ [Happening.tick]).flatMap Happening.operations =
      happenings.flatMap Happening.operations ++ [.tick] := by
    rw [List.flatMap_append, List.flatMap_singleton]
    rfl
  rw [hoperations, Pacer.performAll_append] at htracks
  rw [hoperations, Pacer.runsOn_append] at hruns
  obtain ⟨-, hsurvives, -⟩ := hruns
  obtain ⟨dirty, log, hpacer⟩ := htracks.pacer
  rw [hpacer]
  rw [Pacer.Survives] at hsurvives
  rcases htick : (Pacing.tick : Pacing κ τ Bool)
      (p.performAll (happenings.flatMap Happening.operations)) with
    ⟨running, q⟩ | ⟨fault | misuse, q⟩
  · rw [htick] at hsurvives
    obtain rfl : running = true := hsurvives
    have hdown := Pacer.isDown_of_tick hempty hup (direct_operations happenings) htick
    rw [filterMap_operations hc] at hdown
    rw [← Pacer.performAll_append, Pacer.performAll_tick htick]
    exact hdown
  · rw [htick] at hsurvives
    exact hsurvives.elim
  · -- a host key is no foreign value, so nothing is misused
    obtain ⟨fault, hfault⟩ := (proper_operations hproper happenings).fault_of_tick htick
    cases hfault

/-- **No key is stuck or lost.** Start a pacer with any program. After every tick that says
that the machine is running, whatever was executed, refused, paused or resumed before, each
key is down just when the last event that was posted for it was a press. In a window, after
every tick that leaves it open, a key is down just when the last thing that happened to its
host key was a press. -/
theorem isDown_eq_lastState {program : List UInt8} {machine : Machine}
    (hload : Machine.ofProgram program = .ok machine) (draws : Draws) (log : Log) (clock : κ)
    (clockPeriod timerPeriod : τ) :
    let p := Pacer.new (.ofMachine machine draws log) clock clockPeriod timerPeriod
    (∀ (operations : List Pacer.Operation) (q : Pacer κ τ),
      (∀ operation ∈ operations, operation.direct = false) →
      (Pacing.tick : Pacing κ τ Bool) (p.performAll operations) = .ok true q →
      ∀ k : Fin 16, q.machine.keypad.isDown k.val = .ok (lastState
        ((operations.filterMap Pacer.Operation.posted?).filterMap (Event.state? k)))) ∧
    ∀ (scale : Nat) (sound : Bool) (happenings : List Happening),
      let w := (new p scale sound).occurAll (happenings ++ [.tick])
      w.closed = false → ∀ c number, (c, number) ∈ HostKey.layout →
        w.pacer.machine.keypad.isDown number =
          .ok (lastState (happenings.filterMap (Happening.state? c))) := by
  intro p
  have hproper : p.Proper := Pacer.proper_new hload draws log clock clockPeriod timerPeriod
  have hup (k : Fin 16) : p.machine.keypad.down.get k = false := by
    obtain ⟨memory, -, rfl⟩ := Machine.of_ofProgram_eq_ok hload
    show (Vector.replicate 16 false).get k = false
    rw [get_eq_getElem]
    simp
  refine ⟨?_, ?_⟩
  · intro operations q hpaced htick k
    exact Pacer.isDown_of_tick rfl (hup k) hpaced htick
  · intro scale sound happenings w hopen c number hc
    let k : Fin 16 := ⟨number, HostKey.lt_of_mem_layout hc⟩
    have hk : (c, k.val) ∈ HostKey.layout := hc
    exact isDown_of_open hproper rfl (hup k) hk hopen

/-- A key that does not exist is refused between two events for key 4, of which the first
ends a wait; and in a window, `Q` is let go of after `V` was pressed. -/
theorem isDown_eq_lastState_of_unknown_key :
    let machine : Machine :=
      { Machine.initial with
        memory := Memory.blank.store Memory.programStart [0xF1, 0x0A, 0x12, 0x00] }
    let p : Pacer (HandClock Nat) Nat :=
      .new (.ofMachine machine (.ofSource fun _ => 0) (.new false)) ⟨0, 1⟩ 1 1
    let operations : List Pacer.Operation :=
      [.tick, .post (.key 4 true), .post (.key 99 true), .post (.key 4 false),
       .post (.key 11 true), .tick]
    let happenings : List Happening :=
      [.press (.char 'Q'), .tick, .press (.char 'V'), .draw, .release (.char 'Q')]
    let w := (new p 2 false).occurAll (happenings ++ [.tick])
    (∃ q, (Pacing.tick : Pacing (HandClock Nat) Nat Bool) (p.performAll operations) = .ok true q ∧
      q.machine.keypad.isDown 4 = .ok false ∧ q.machine.keypad.isDown 11 = .ok true) ∧
    w.closed = false ∧ w.pacer.machine.keypad.isDown 0xF = .ok true ∧
      w.pacer.machine.keypad.isDown 4 = .ok false := by
  intro machine p operations happenings w
  have hload : Machine.ofProgram [0xF1, 0x0A, 0x12, 0x00] = .ok machine :=
    Machine.ofProgram_of_le (by decide)
  obtain ⟨hticks, hwindows⟩ := isDown_eq_lastState hload (.ofSource fun _ => 0) (.new false)
    (⟨0, 1⟩ : HandClock Nat) 1 1
  have hpaced : ∀ operation ∈ operations, operation.direct = false := by decide
  have hrunning : (match (Pacing.tick : Pacing (HandClock Nat) Nat Bool)
      (p.performAll operations) with
      | .ok running _ => running
      | .error _ _ => false) = true := by
    decide +kernel
  have hopen : w.closed = false := by decide +kernel
  have hkeys := hwindows 2 false happenings hopen
  refine ⟨?_, hopen, hkeys 'V' 0xF (by decide), hkeys 'Q' 4 (by decide)⟩
  rcases htick : (Pacing.tick : Pacing (HandClock Nat) Nat Bool) (p.performAll operations) with
    ⟨running, q⟩ | ⟨error, q⟩
  · rw [htick] at hrunning
    obtain rfl : running = true := hrunning
    have hdown := hticks operations q hpaced htick
    exact ⟨q, rfl, hdown 4, hdown 11⟩
  · rw [htick] at hrunning
    cases hrunning

end Window

end ChipEight
