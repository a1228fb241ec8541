/-!
# The log

Lines of text with a level. Lines of the debug level are kept only while
tracing is on; all others are always kept.
-/

namespace ChipEight

/-- How much a line of the log matters. -/
inductive Level where
  | debug
  | info
  | error
  deriving DecidableEq, Repr

/-- The name of a level at the head of a line. -/
def Level.name : Level → String
  | .debug => "DEBUG"
  | .info => "INFO"
  | .error => "ERROR"

/-- A line of the log. -/
structure LogLine where
  level : Level
  text : String
  deriving DecidableEq, Repr

/-- A line as it is printed. -/
def LogLine.render (line : LogLine) : String :=
  "[" ++ line.level.name ++ "]:  " ++ line.text

/-- The lines logged so far, and whether tracing is on. -/
structure Log where
  /-- whether lines of the debug level are kept -/
  tracing : Bool
  /-- the kept lines, the oldest first -/
  lines : Array LogLine
  deriving DecidableEq, Repr

namespace Log

/-- A log without lines. -/
def new (tracing : Bool) : Log := ⟨tracing, #[]⟩

/-- Log a line of the debug level. -/
def debug (log : Log) (text : String) : Log :=
  if log.tracing then { log with lines := log.lines.push ⟨.debug, text⟩ } else log

/-- Log a line of the info level. -/
def info (log : Log) (text : String) : Log :=
  { log with lines := log.lines.push ⟨.info, text⟩ }

/-- Log a line of the error level. -/
def error (log : Log) (text : String) : Log :=
  { log with lines := log.lines.push ⟨.error, text⟩ }

/-- Log a debug line that is made of several parts. -/
def trace (log : Log) (parts : List String) : Log :=
  log.debug (" ".intercalate parts)

/-- Turn tracing on or off. -/
def setTracing (log : Log) (on : Bool) : Log :=
  { log with tracing := on }

/-- Switch tracing over, and say so. -/
def toggleTracing (log : Log) : Log :=
  let log := log.setTracing (!log.tracing)
  log.info ("trace logging: " ++ if log.tracing then "on" else "off")

end Log

end ChipEight
