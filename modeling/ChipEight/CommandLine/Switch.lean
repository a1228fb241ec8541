import ChipEight.Text.Quoted

/-!
# Switches and what can be wrong with a command line

The switches of the command line, with their spellings in the order in which
they are declared. A mistake on the command line is a `Problem`; it is reported
below the usage text.
-/

namespace ChipEight.CommandLine

/-- A switch of the command line. -/
inductive Switch where
  /-- show the help text and nothing else -/
  | help
  /-- how many instructions to execute in a second -/
  | cpuHz
  /-- how large to show a pixel -/
  | scale
  /-- log every instruction -/
  | trace
  /-- start paused -/
  | paused
  /-- be silent -/
  | noSound
  deriving DecidableEq, Repr

namespace Switch

/-- All spellings of all switches. -/
def spellings : List (String × Switch) :=
  [("-h", help), ("--help", help), ("--cpu-hz", cpuHz), ("--scale", scale), ("--trace", trace),
   ("--paused", paused), ("--no-sound", noSound)]

/-- The switch with exactly this spelling. -/
def ofSpelling? (text : String) : Option Switch := spellings.lookup text

/-- Whether a value belongs to the switch. -/
def takesValue : Switch → Bool
  | cpuHz | scale => true
  | _ => false

/-- All spellings of one switch. -/
def title (s : Switch) : String :=
  "/".intercalate ((spellings.filter (·.2 = s)).map (·.1))

end Switch

/-- A mistake on the command line. -/
inductive Problem where
  /-- an abbreviation of several spellings -/
  | ambiguous (text : String) (spellings : List String)
  /-- a value for a switch that takes none -/
  | unwantedValue (switch : Switch) (value : String)
  /-- no value for a switch that takes one -/
  | missingValue (switch : Switch)
  /-- a value that is no numeral of the kind that is asked for -/
  | badValue (switch : Switch) (kind value : String)
  /-- arguments that nothing was found for -/
  | unrecognized (texts : List String)
  /-- a rate or a scale that is not positive -/
  | notPositive
  deriving DecidableEq, Repr

namespace Problem

/-- What is told to the user about a problem with a switch. -/
def about (switch : Switch) (text : String) : String :=
  "argument " ++ switch.title ++ ": " ++ text

/-- What is told to the user about a problem. -/
def message : Problem → String
  | ambiguous text spellings =>
    "ambiguous option: " ++ text ++ " could match " ++ ", ".intercalate spellings
  | unwantedValue switch value =>
    about switch ("ignored explicit argument " ++ Text.quoted value)
  | missingValue switch => about switch "expected one argument"
  | badValue switch kind value =>
    about switch ("invalid " ++ kind ++ " value: " ++ Text.quoted value)
  | unrecognized texts => "unrecognized arguments: " ++ " ".intercalate texts
  | notPositive => "--cpu-hz and --scale must be positive"

end Problem

end ChipEight.CommandLine
