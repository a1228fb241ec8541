import ChipEight.CommandLine.Word
import ChipEight.Fault
import ChipEight.Text.Numeral

/-!
# Settings

The settings of a run as the command line gives them. The words are taken in
order; the first operand names the program, and what nothing is found for is
collected and reported at the end, after all other problems. A help switch stops
the reading where it stands.

A separator is dropped from whatever it stands with, and so it is when it is
given as the value of a switch in the same argument: the switch is then left
without a value, which nobody minds if a later one gives it a value again.
Releases of the parser differ in this: the rules are those of 3.11.0, and 3.11.10
keeps the separator for the value. A `Plan` is what settings come to whose values
are all there and can be run with.
-/

namespace ChipEight.CommandLine

/-- The settings of a run. -/
structure Settings where
  /-- the path of the program image -/
  rom : String
  /-- instructions in a second, unless the switch was left without a value -/
  cpuHz : Option Float
  /-- the size of a pixel on the window, unless the switch was left without a value -/
  scale : Option Int
  /-- whether every instruction is logged -/
  trace : Bool
  /-- whether the run starts paused -/
  paused : Bool
  /-- whether the tone is heard -/
  sound : Bool

/-- Settings that a run can have. -/
structure Plan where
  /-- the path of the program image -/
  rom : String
  /-- instructions in a second -/
  cpuHz : Float
  /-- the size of a pixel on the window -/
  scale : Int
  /-- whether every instruction is logged -/
  trace : Bool
  /-- whether the run starts paused -/
  paused : Bool
  /-- whether the tone is heard -/
  sound : Bool

/-- Why there is no run with some settings. -/
inductive Refusal where
  /-- the user is told -/
  | problem (problem : Problem)
  /-- nobody provided for it -/
  | misuse (misuse : Misuse)
  deriving DecidableEq, Repr

namespace Settings

/-- The program that is run if none is named. -/
def defaultRom : String := "assets/input.ch8"

/-- Instructions in a second, unless set. -/
def defaultCpuHz : Nat := 540

/-- The size of a pixel, unless set. -/
def defaultScale : Nat := 10

/-- The settings of an empty command line. -/
def default : Settings where
  rom := defaultRom
  cpuHz := some (Float.ofNat defaultCpuHz)
  scale := some defaultScale
  trace := false
  paused := false
  sound := true

/-- Read a value, unless it is a separator, of which release 3.11.0 of the parser leaves
nothing. -/
def readValue {α : Type} (switch : Switch) (kind : String) (read? : String → Option α)
    (value : String) : Except Problem (Option α) :=
  if value = "--" then .ok none
  else
    match read? value with
    | some a => .ok (some a)
    | none => .error (.badValue switch kind value)

/-- Set what a switch with a value sets. -/
def setValue (s : Settings) (switch : Switch) (value : String) : Except Problem Settings :=
  match switch with
  | .cpuHz => do return { s with cpuHz := ← readValue switch "float" Text.readFloat? value }
  | .scale => do return { s with scale := ← readValue switch "int" Text.readWhole? value }
  | _ => .ok s

/-- Set what a switch without a value sets. -/
def setFlag (s : Settings) : Switch → Settings
  | .trace => { s with trace := true }
  | .paused => { s with paused := true }
  | .noSound => { s with sound := false }
  | _ => s

/-- The value of a setting that has to be more than zero. What is refused is a
value that is zero or less. -/
def positive {α : Type} [LE α] [DecidableLE α] (zero : α) : Option α → Except Refusal α
  | none => .error (.misuse .noValue)
  | some value => if value ≤ zero then .error (.problem .notPositive) else .ok value

/-- The plan that the settings come to. The rate is looked at before the scale. -/
def plan (s : Settings) : Except Refusal Plan := do
  let cpuHz ← positive 0 s.cpuHz
  let scale ← positive 0 s.scale
  return { s with cpuHz, scale }

end Settings

/-- What a command line asks for. -/
inductive Wish where
  /-- the help text -/
  | help
  /-- a run with these settings -/
  | run (settings : Settings)

/-- Where the reading of the operands stands. -/
inductive Stage where
  /-- no operand was taken -/
  | awaiting
  /-- the last word was the operand that was taken -/
  | taken
  /-- other words followed it -/
  | past
  deriving DecidableEq, Repr

/-- The state of reading words. -/
structure Reading where
  settings : Settings
  stage : Stage
  /-- what nothing was found for, the first one first -/
  extras : List String

namespace Reading

/-- Nothing was read. -/
def start : Reading := ⟨.default, .awaiting, []⟩

/-- The operand that was taken, if any, is no longer the last word. -/
def leave (r : Reading) : Reading :=
  if r.stage = .taken then { r with stage := .past } else r

/-- Collect a word that nothing was found for. -/
def reject (r : Reading) (text : String) : Reading :=
  { r.leave with extras := r.extras ++ [text] }

/-- Take an operand as the program, if there was none before. -/
def takeOperand (r : Reading) (text : String) : Reading :=
  if r.stage = .awaiting then
    { r with settings := { r.settings with rom := text }, stage := .taken }
  else
    r.reject text

/-- A separator is part of the operand it precedes or follows. -/
def takeSeparator (r : Reading) : Reading :=
  if r.stage = .past then r.reject "--" else r.leave

/-- What all of the words ask for. -/
def finish (r : Reading) : Except Problem Wish :=
  if r.extras = [] then .ok (.run r.settings) else .error (.unrecognized r.extras)

end Reading

/-- Take words in order. -/
def readWords (r : Reading) : List Word → Except Problem Wish
  | [] => r.finish
  | .separator :: rest => readWords r.takeSeparator rest
  | .operand text :: rest => readWords (r.takeOperand text) rest
  | .unknown text :: rest => readWords (r.reject text) rest
  | .switch .help none :: _ => .ok .help
  | .switch s (some value) :: rest =>
    if s.takesValue then do
      let settings ← r.settings.setValue s value
      readWords { r.leave with settings } rest
    else
      .error (.unwantedValue s value)
  | .switch s none :: .operand value :: rest =>
    if s.takesValue then do
      let settings ← r.settings.setValue s value
      readWords { r.leave with settings } rest
    else
      readWords ({ r.leave with settings := r.settings.setFlag s }.takeOperand value) rest
  | .switch s none :: rest =>
    if s.takesValue then
      .error (.missingValue s)
    else
      readWords { r.leave with settings := r.settings.setFlag s } rest

/-- What a command line asks for. -/
def parse (arguments : List String) : Except Problem Wish := do
  readWords .start (← Word.ofArguments arguments)

/-- The name of the program. -/
def programName : String := "chip8"

/-- How the program is called. -/
def usage : String :=
  "usage: chip8 [-h] [--cpu-hz CPU_HZ] [--scale SCALE] [--trace] [--paused]\n" ++
  "             [--no-sound]\n" ++
  "             [rom]\n"

/-- The help text. -/
def help : String :=
  usage ++
  "\nCHIP-8 virtual machine\n" ++
  "\npositional arguments:\n" ++
  "  rom              program image to run (default: " ++ Settings.defaultRom ++ ")\n" ++
  "\noptions:\n" ++
  "  -h, --help       show this help message and exit\n" ++
  "  --cpu-hz CPU_HZ  instructions per second (default: " ++
    toString Settings.defaultCpuHz ++ ")\n" ++
  "  --scale SCALE    window pixels per CHIP-8 pixel (default: " ++
    toString Settings.defaultScale ++ ")\n" ++
  "  --trace          log every executed instruction (toggle at runtime with F1)\n" ++
  "  --paused         start paused; Space resumes, P single-steps\n" ++
  "  --no-sound       disable the beeper\n"

/-- The complaint about a problem. -/
def complaint (p : Problem) : String :=
  usage ++ programName ++ ": error: " ++ p.message ++ "\n"

end ChipEight.CommandLine
