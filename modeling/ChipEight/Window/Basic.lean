import ChipEight.Pacer
import ChipEight.Window.HostKey
import ChipEight.Window.Picture

/-!
# The window

A window shows the screen of a paced machine, sounds its tone and passes the
host's keys on to it. It holds nothing of the emulation but the pacer: a tick of
the window is a tick of the pacer, and what the window adds is what it asks of
the host.

The image is made anew only when the screen was touched since the last drawing.
A fault ends the session: it is logged and kept, the machine halts, and the
window closes as it does when the machine halts by itself.
-/

namespace ChipEight

/-- Something a window asks of its host. -/
inductive Request where
  /-- make an image with this content -/
  | image (width height : Nat) (content : Picture)
  /-- open a window -/
  | window (width height : Nat) (caption : String) (vsync : Bool)
  /-- queue a sine tone on the sound player -/
  | queue (loop : Bool) (seconds : Float) (frequency sampleRate : Nat)
  /-- call the window's tick again and again -/
  | schedule (seconds : Float)
  /-- call the window's tick no more -/
  | unschedule
  /-- clear the window -/
  | clear
  /-- replace the content of the image; `pitch` is the number of bytes of a row -/
  | setData (pitch : Nat) (content : Picture)
  /-- show the image -/
  | blit (x y : Int)
  /-- start the sound player -/
  | play
  /-- stop the sound player -/
  | pause
  /-- give the sound player up -/
  | delete
  /-- close the window -/
  | close

/-- A window and what it has asked of the host. -/
structure Window (κ τ : Type) where
  pacer : Pacer κ τ
  /-- the width and height of a pixel of the screen on the window -/
  scale : Nat
  /-- the content of the image -/
  image : Picture
  /-- whether the sound player is playing, if there is one -/
  player : Option Bool
  /-- the fault that ended the session -/
  error : Option Fault
  /-- whether the host calls the window's tick -/
  scheduled : Bool
  /-- whether the window was closed -/
  closed : Bool
  /-- what the host was asked for, the oldest request first -/
  requests : Array Request

/-- A computation on a window that may meet a misuse. -/
abbrev Windowing (κ τ : Type) := EStateM Misuse (Window κ τ)

namespace Window

/-- The caption of the window. -/
def caption : String := "CHIP-8 Emulator"

/-- The pitch of the tone, in hertz. -/
def toneFrequency : Nat := 440

/-- How many samples of the tone are made for a second. -/
def toneSampleRate : Nat := 44100

/-- How long the tone is before it is repeated, in seconds. -/
def toneSeconds : Float := 1.0

/-- The time between ticks, in seconds. The pacer decides what is due. -/
def tickSeconds : Float := 0.001

/-- The bytes of a pixel of the image. -/
def pixelBytes : Nat := 4

variable {κ τ : Type}

/-- The width of the window. -/
def width (w : Window κ τ) : Nat := Screen.width * w.scale

/-- The height of the window. -/
def height (w : Window κ τ) : Nat := Screen.height * w.scale

/-- Ask something of the host. -/
def ask (w : Window κ τ) (request : Request) : Window κ τ :=
  { w with requests := w.requests.push request }

/-- Open a window for a pacer. The image is black until the first drawing. -/
def new (pacer : Pacer κ τ) (scale : Nat) (sound : Bool) : Window κ τ :=
  let image := Picture.ofPixels scale Screen.dark
  let w : Window κ τ :=
    { pacer, scale, image, player := none, error := none, scheduled := true, closed := false,
      requests := #[] }
  let w := w.ask (.image w.width w.height image)
  let w := w.ask (.window w.width w.height caption false)
  let w :=
    if sound then
      { w with player := some false }.ask (.queue true toneSeconds toneFrequency toneSampleRate)
    else w
  w.ask (.schedule tickSeconds)

/-- Start or stop the sound player so that it plays while the timer runs. -/
def soundFor (w : Window κ τ) (timer : UInt8) : Window κ τ :=
  match w.player with
  | some false => if timer > 0 then { w with player := some true }.ask .play else w
  | some true => if timer = 0 then { w with player := some false }.ask .pause else w
  | none => w

/-- Close the window. -/
def close (w : Window κ τ) : Window κ τ :=
  { w with closed := true }.ask .close

/-- Give up the ticks and the sound player. -/
def shutdown (w : Window κ τ) : Window κ τ :=
  let w := { w with scheduled := false }.ask .unschedule
  match w.player with
  | some _ => { w with player := none }.ask .delete
  | none => w

/-- What follows a tick of the pacer: the sound is adjusted, and a machine that
runs no more closes the window. -/
def afterTick (w : Window κ τ) (running : Bool) : Window κ τ :=
  let w := w.soundFor (if running then w.pacer.processor.machine.registers.sound else 0)
  if running then w else w.shutdown.close

/-- Keep the fault that a tick ended in, and halt the machine. -/
def fail (w : Window κ τ) (fault : Fault) : Window κ τ :=
  { w with
    pacer := (w.pacer.mapLog (·.error ("Emulation error: " ++ fault.message))).mapMachine .halt
    error := some fault }

/-- Draw: clear the window, make the image anew if the screen was touched, and
show it. -/
def draw (w : Window κ τ) : Window κ τ :=
  let w := w.ask .clear
  let screen := w.pacer.processor.machine.screen
  let w :=
    if screen.dirty then
      let image := Picture.ofPixels w.scale screen.pixels
      let w := { w with image }.ask (.setData (w.width * pixelBytes) image)
      { w with
        pacer := w.pacer.mapMachine fun m => { m with screen := { m.screen with dirty := false } } }
    else w
  w.ask (.blit 0 0)

/-- Post an event, if there is one. -/
def post? (w : Window κ τ) : Option Event → Window κ τ
  | some event => { w with pacer := w.pacer.post event }
  | none => w

/-- A key of the host went down. -/
def press (w : Window κ τ) (key : HostKey) : Window κ τ :=
  if key = .f1 then
    { w with pacer := w.pacer.mapLog Log.toggleTracing }
  else
    w.post? key.pressEvent?

/-- A key of the host went up. -/
def release (w : Window κ τ) (key : HostKey) : Window κ τ :=
  w.post? key.releaseEvent?

/-- The user closed the window. -/
def dismiss (w : Window κ τ) : Window κ τ :=
  w.shutdown.close

variable [Clock κ τ] [Add τ] [LE τ] [DecidableLE τ]

/-- A tick of the window. A misuse that the pacer meets is passed on at once. -/
def tick : Windowing κ τ Unit := fun w =>
  match (Pacing.tick : Pacing κ τ Bool) w.pacer with
  | .ok running pacer => .ok () ({ w with pacer }.afterTick running)
  | .error (.fault fault) pacer => .ok () (({ w with pacer }.fail fault).afterTick false)
  | .error (.misuse misuse) pacer => .error misuse { w with pacer }

/-- Something that happens to an open window. -/
inductive Happening where
  | tick
  | draw
  | press (key : HostKey)
  | release (key : HostKey)
  /-- the user closes the window -/
  | dismiss
  deriving DecidableEq, Repr

/-- Let something happen to the window. A tick that the host was told to give up
does not come. -/
def happen : Happening → Windowing κ τ Unit
  | .tick => do
    if (← get).scheduled then
      tick
  | .draw => modify draw
  | .press key => modify (·.press key)
  | .release key => modify (·.release key)
  | .dismiss => modify dismiss

/-- Let things happen one after the other, as long as the window is open. -/
def play : List Happening → Windowing κ τ Unit
  | [] => pure ()
  | happening :: rest => do
    if !(← get).closed then
      happen happening
      play rest

end Window

end ChipEight
