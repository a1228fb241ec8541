import ChipEight.CommandLine.Switch
import ChipEight.Text.Numeral

/-!
# The words of a command line

Every argument is looked at by itself first, to tell switches from operands. A
switch may be abbreviated to any beginning that no other spelling shares, and
its value may follow in the same argument after an equals sign. What looks like
a negative number or holds a space is an operand even if it begins with a dash,
as is everything behind the separator `--`.
-/

namespace ChipEight.CommandLine

/-- An argument, told apart from the others. -/
inductive Word where
  | operand (text : String)
  /-- the two dashes that end the switches -/
  | separator
  /-- a switch with the value in the same argument -/
  | switch (switch : Switch) (value : Option String)
  /-- what looks like a switch and is none -/
  | unknown (text : String)
  deriving DecidableEq, Repr

namespace Word

/-- Split an argument at its first equals sign. -/
def splitValue (text : List Char) : String × Option String :=
  match text.span (· ≠ '=') with
  | (name, _ :: value) => (String.ofList name, some (String.ofList value))
  | (name, []) => (String.ofList name, none)

/-- Whether one text begins another. -/
def begins (start text : String) : Bool :=
  start.toList.isPrefixOf text.toList

/-- The switches that a long argument may abbreviate, each with its spelling. -/
def longMatches (text : List Char) : List (String × Word) :=
  let (name, value) := splitValue text
  (Switch.spellings.filter fun (spelling, _) => begins name spelling).map
    fun (spelling, s) => (spelling, .switch s value)

/-- The value that follows a short switch in the same argument. Short switches
may follow one another behind one dash, and there is only one; what is left
behind the last of them is the value, and nothing is left of them alone. This is the
rule of release 3.11.0 of the parser; 3.11.10 takes what is left for more switches. -/
def shortValue (text : List Char) : Option String :=
  match text, text.dropWhile (· = 'h') with
  | _ :: _, [] => none
  | _, rest => some (String.ofList rest)

/-- The switches that an argument with a single dash may mean, each with its
spelling: the value of a short switch may follow it at once. -/
def shortMatches (text : List Char) : List (String × Word) :=
  let short := String.ofList (text.take 2)
  let whole := String.ofList text
  Switch.spellings.filterMap fun (spelling, s) =>
    if spelling = short then some (spelling, .switch s (shortValue (text.drop 2)))
    else if begins whole spelling then some (spelling, .switch s none)
    else none

/-- Whether digits, or digits behind a point that digits may precede, are all
that follows a dash. A line break may stand at the end. -/
def looksNegative : List Char → Bool
  | '-' :: rest =>
    let isDigit (c : Char) := (Text.digit? c).isSome
    let ends (cs : List Char) := cs = [] || cs = ['\n']
    let (whole, rest) := rest.span isDigit
    match rest with
    | '.' :: rest =>
      let (fraction, rest) := rest.span isDigit
      fraction ≠ [] && ends rest
    | _ => whole ≠ [] && ends rest
  | _ => false

/-- What an argument that begins with a dash and is no spelling means. -/
def ofDashed (text : List Char) (found : List (String × Word)) : Except Problem Word :=
  match found with
  | [(_, word)] => .ok word
  | [] =>
    if looksNegative text || text.contains ' ' then .ok (.operand (String.ofList text))
    else .ok (.unknown (String.ofList text))
  | several => .error (.ambiguous (String.ofList text) (several.map (·.1)))

/-- Tell an argument apart that begins with two dashes and is no spelling. -/
def ofLong (text : List Char) : Except Problem Word :=
  match splitValue text with
  | (name, some value) =>
    match Switch.ofSpelling? name with
    | some s => .ok (.switch s (some value))
    | none => ofDashed text (longMatches text)
  | (_, none) => ofDashed text (longMatches text)

/-- Tell an argument apart that begins with one dash and is no spelling. -/
def ofShort (text : List Char) : Except Problem Word :=
  match splitValue text with
  | (name, some value) =>
    match Switch.ofSpelling? name with
    | some s => .ok (.switch s (shortValue value.toList))
    | none => ofDashed text (shortMatches text)
  | (_, none) => ofDashed text (shortMatches text)

/-- Tell a single argument apart. -/
def ofArgument (text : String) : Except Problem Word :=
  match Switch.ofSpelling? text, text.toList with
  | some s, _ => .ok (.switch s none)
  | none, '-' :: '-' :: rest => ofLong ('-' :: '-' :: rest)
  | none, '-' :: c :: rest => ofShort ('-' :: c :: rest)
  | none, _ => .ok (.operand text)

/-- Tell all arguments apart. -/
def ofArguments : List String → Except Problem (List Word)
  | [] => .ok []
  | text :: rest =>
    if text = "--" then .ok (.separator :: rest.map .operand)
    else do
      let word ← ofArgument text
      let words ← ofArguments rest
      return word :: words

example : (ofArgument "--cpu=3").toOption = some (.switch .cpuHz (some "3")) := by decide +kernel
example : (ofArgument "-5").toOption = some (.operand "-5") := by decide +kernel
example : (ofArgument "-hx").toOption = some (.switch .help (some "x")) := by decide +kernel
example : (ofArgument "-x").toOption = some (.unknown "-x") := by decide +kernel

end Word

end ChipEight.CommandLine
