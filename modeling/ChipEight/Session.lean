import ChipEight.CommandLine.Settings
import ChipEight.FileTree
import ChipEight.Window.Basic

/-!
# Sessions

A session is one call of the program, from its command line to its exit status.
It begins with reading the command line and the program image; if both succeed,
there is a paced machine that can be run in a window; and it ends with the fault
that the run came to, if it came to one.

A program image is the content of a file. It is taken as it is; all that is
asked of it is that it fits into memory.
-/

namespace ChipEight

/-! ## Program images -/

namespace Program

/-- A way to read files. -/
abbrev Reader := String → Except ReadError (List UInt8)

/-- The image at a path that a reader can be asked for. -/
def image (reader : Reader) (path : String) : Except Fault (List UInt8) :=
  match reader path with
  | .error e => .error (.unreadable ("Cannot read ROM " ++ path ++ ": " ++ e.message))
  | .ok content =>
    if content.length > Memory.programLimit then
      .error (.programTooLarge content.length Memory.programLimit)
    else
      .ok content

/-- The image at a path. No reader is asked for a path that holds the character
with the code zero, for no file has such a name. -/
def fetch (reader : Reader) (path : String) : Except Error (List UInt8) :=
  if path.toList.contains '\x00' then .error (.misuse .nullInPath)
  else (image reader path).mapError .fault

/-- Log that an image is read, and read it. -/
def read (reader : Reader) (path : String) (log : Log) : Except Error (List UInt8) × Log :=
  (fetch reader path, log.info ("Loading ROM: " ++ path))

end Program

/-! ## From the command line to the exit status -/

namespace Session

open CommandLine

/-- The exit status of a session. -/
inductive ExitStatus where
  | success
  /-- the program image could not be read -/
  | startupError
  /-- the emulation ended in a fault -/
  | emulationError
  /-- the command line was not understood -/
  | usageError
  /-- a fault that nobody caught ended the session -/
  | escaped
  deriving DecidableEq, Repr

/-- The number that the operating system is given. -/
def ExitStatus.code : ExitStatus → Nat
  | .success => 0
  | .startupError => 1
  | .emulationError => 2
  | .usageError => 2
  | .escaped => 1

/-- What a session leaves behind. -/
structure Outcome where
  status : ExitStatus
  /-- what was printed on the standard output -/
  output : String
  /-- what was printed on the standard error -/
  complaint : String
  deriving DecidableEq, Repr

/-- The printed form of a log. -/
def printed (log : Log) : String :=
  String.join (log.lines.toList.map fun line => line.render ++ "\n")

/-- How many steps the timers take in a second. -/
def timerHz : Nat := 60

/-- The time between steps of the timers, in seconds. -/
def timerPeriod : Float := 1.0 / Float.ofNat timerHz

/-- The beginning of a session. -/
inductive Opening (κ : Type) where
  /-- the session is over before there is a machine -/
  | over (outcome : Outcome)
  /-- something happened that nobody provided for, after this was printed on the
  standard output -/
  | misused (misuse : Misuse) (output : String)
  /-- there is a machine that can be run -/
  | ready (plan : Plan) (pacer : Pacer κ Float)

variable {κ : Type} [Clock κ Float]

/-- A paced machine with a program, as planned. -/
def pacerFor (plan : Plan) (machine : Machine) (clock : κ) (draws : Draws) (log : Log) :
    Pacer κ Float :=
  let pacer := Pacer.new (.ofMachine machine draws log) clock (1.0 / plan.cpuHz) timerPeriod
  if plan.paused then pacer.pause else pacer

/-- Read the program image and load it. Faults are caught while the image is read. One that
came from building the machine would not be caught. -/
def load (plan : Plan) (reader : Program.Reader) (clock : κ) (draws : Draws) : Opening κ :=
  match Program.read reader plan.rom (.new plan.trace) with
  | (.error (.fault fault), log) => .over ⟨.startupError, printed (log.error fault.message), ""⟩
  | (.error (.misuse misuse), log) => .misused misuse (printed log)
  | (.ok image, log) =>
    match Machine.ofProgram image with
    | .error fault => .over ⟨.escaped, printed log, fault.message⟩
    | .ok machine => .ready plan (pacerFor plan machine clock draws log)

/-- Begin a session with the arguments of the command line. -/
def begin (arguments : List String) (reader : Program.Reader) (clock : κ) (draws : Draws) :
    Opening κ :=
  match parse arguments with
  | .error problem => .over ⟨.usageError, "", complaint problem⟩
  | .ok .help => .over ⟨.success, help, ""⟩
  | .ok (.run settings) =>
    match settings.plan with
    | .ok plan => load plan reader clock draws
    | .error (.problem problem) => .over ⟨.usageError, "", complaint problem⟩
    | .error (.misuse misuse) => .misused misuse ""

/-- The log at the end of a run, which may have come to a fault. -/
def closingLog (fault : Option Fault) (pacer : Pacer κ Float) : Log :=
  match fault with
  | none => pacer.processor.log
  | some fault =>
    (pacer.processor.log.error ("Machine stopped: " ++ fault.message)).debug
      pacer.processor.machine.registers.summary

/-- End a session whose run came to a fault, or to none. -/
def finish (fault : Option Fault) (pacer : Pacer κ Float) : Outcome where
  status := if fault.isSome then .emulationError else .success
  output := printed (closingLog fault pacer)
  complaint := ""

/-- The window of a session. -/
def window (plan : Plan) (pacer : Pacer κ Float) : Window κ Float :=
  .new pacer plan.scale.toNat plan.sound

/-- A whole session, given all that happens to its window. -/
def run (arguments : List String) (reader : Program.Reader) (clock : κ) (draws : Draws)
    (happenings : List Window.Happening) : Except Misuse Outcome :=
  match begin arguments reader clock draws with
  | .over outcome => .ok outcome
  | .misused misuse _ => .error misuse
  | .ready plan pacer =>
    match Window.play happenings (window plan pacer) with
    | .ok () w => .ok (finish w.error w.pacer)
    | .error misuse _ => .error misuse

end Session

end ChipEight
