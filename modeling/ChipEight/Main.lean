import ChipEight.Session

/-!
# The program

The terminal is the host of the window. The log goes to the standard output, the
screen is drawn on the standard error whenever it was touched, and every
character of a line of the standard input presses the key it names and lets go
of it again; an empty line is a press of the space bar, and the end of the input
leaves the machine running.

All that is decided about a session is decided by `Session`; here are only the
loop and what it reads and prints.
-/

namespace ChipEight.Main

/-- Read a file from disk. -/
def readFile (path : String) : IO (Except ReadError (List UInt8)) := do
  try
    return .ok (← IO.FS.readBinFile path).toList
  catch e =>
    return .error <| match e with
      | .noFileOrDirectory .. => .notFound
      | .inappropriateType _ code _ => if code = 20 then .notDirectory else .isDirectory
      | .otherError _ details | .permissionDenied _ _ details => .other details
      | _ => .other (toString e)

/-- The file that the settings name, as a way to read files. -/
def readerFor (arguments : List String) : IO Program.Reader := do
  match CommandLine.parse arguments with
  | .ok (.run settings) =>
    let content ← readFile settings.rom
    return fun _ => content
  | _ => return fun _ => .error .notFound

/-- Random bytes, as many as there are, over and over again. -/
def randomDraws : IO Draws := do
  let bytes ← IO.getRandomBytes 65536
  return .ofSource fun k => bytes[k % bytes.size]?.getD 0

/-- The time in seconds, on a clock that stands still between ticks. -/
def clock : IO (HandClock Float) :=
  return ⟨Float.ofNat (← IO.monoNanosNow) / 1000000000.0, 0.0⟩

/-- Two rows of the screen in one line of text. -/
def lineOfRows (upper lower : Vector Bool 64) : String :=
  String.ofList <| (upper.toList.zip lower.toList).map fun
    | (true, true) => '█'
    | (true, false) => '▀'
    | (false, true) => '▄'
    | (false, false) => ' '

/-- The lines of text that show rows of the screen. -/
def linesOfRows : List (Vector Bool 64) → List String
  | upper :: lower :: rest => lineOfRows upper lower :: linesOfRows rest
  | _ => []

/-- The keys that a line of input presses. -/
def keysOf (line : String) : List HostKey :=
  match line.toList.filter (· ≠ '\n') with
  | [] => [.space]
  | cs => cs.map fun c => if c = '\x1b' then .escape else .char c.toUpper

/-- Collect the lines of the standard input. -/
partial def listen (lines : IO.Ref (List String)) : IO Unit := do
  let line ← (← IO.getStdin).getLine
  if !line.isEmpty then
    lines.modify (· ++ [line])
    listen lines

/-- Print the lines of a log behind the ones that were printed before. -/
def printLog (log : Log) (printed : Nat) : IO Unit := do
  for line in log.lines.toList.drop printed do
    IO.println line.render

/-- Let the window tick until it closes. -/
partial def loop (lines : IO.Ref (List String)) (printed : Nat) (w : Window (HandClock Float) Float) :
    IO (Window (HandClock Float) Float × Nat) := do
  let keys := (← lines.modifyGet fun ls => (ls, [])).flatMap keysOf
  let w := keys.foldl (fun w key => (w.press key).release key) w
  let now ← clock
  match Window.tick { w with pacer := { w.pacer with clock := now }, requests := #[] } with
  | .error misuse _ => throw (IO.userError misuse.message)
  | .ok () w =>
    let log := w.pacer.processor.log
    printLog log printed
    let screen := w.pacer.machine.screen
    if screen.dirty then
      IO.eprintln ("\x1b[H\x1b[2J" ++ "\n".intercalate (linesOfRows screen.pixels.toList))
    if w.closed then
      return (w, log.lines.size)
    IO.sleep 1
    loop lines log.lines.size w.draw

/-- Run a session and give its exit status. -/
def run (arguments : List String) : IO UInt32 := do
  match Session.begin arguments (← readerFor arguments) (← clock) (← randomDraws) with
  | .over outcome =>
    IO.print outcome.output
    IO.eprint outcome.complaint
    return UInt32.ofNat outcome.status.code
  | .misused misuse output =>
    IO.print output
    throw (IO.userError misuse.message)
  | .ready plan pacer =>
    let lines ← IO.mkRef []
    let _ ← IO.asTask (listen lines) .dedicated
    let (w, printed) ← loop lines 0 (Session.window plan pacer)
    printLog (Session.closingLog w.error w.pacer) printed
    return UInt32.ofNat (Session.finish w.error w.pacer).status.code

end ChipEight.Main

def main (arguments : List String) : IO UInt32 :=
  ChipEight.Main.run arguments
