import ChipEight.Text.Numeral

/-!
# Faults and misuse

A `Fault` is a fatal condition of the emulated machine: whoever drives the
machine reports its message and stops. A `Misuse` is a mistake that nobody
provides for, such as posting something that is no event; it says nothing about
the emulated program and is never turned into an exit status.

The payloads are integers, because a caller may pass any address, length or
key, and the message shows it as it was passed.
-/

namespace ChipEight

open Text (hex)

/-- A fatal condition of the emulated machine. -/
inductive Fault where
  /-- a word that no instruction form admits; `pc` is its address, if it was fetched -/
  | unknownOpcode (word : Int) (pc : Option Int)
  /-- a call at `pc` with every slot of the call stack in use -/
  | stackOverflow (pc : Int)
  /-- a return at `pc` with an empty call stack -/
  | stackUnderflow (pc : Int)
  /-- an access to `length` bytes from `address` that leaves memory -/
  | memoryAccess (address length : Int)
  /-- a key number outside the keypad -/
  | keyIndex (key : Int)
  /-- a program image that could not be read, with the whole text of the complaint -/
  | unreadable (text : String)
  /-- a program image of `size` bytes where at most `limit` fit -/
  | programTooLarge (size limit : Int)
  /-- any other fatal condition, with its text -/
  | other (text : String)
  deriving DecidableEq, Repr

/-- What is told to the user about a fault. -/
def Fault.message : Fault → String
  | .unknownOpcode word none => "Unknown opcode: " ++ hex 4 word
  | .unknownOpcode word (some pc) => "Unknown opcode: " ++ hex 4 word ++ " at 0x" ++ hex 3 pc
  | .stackOverflow pc => "Stack overflow on CALL at 0x" ++ hex 3 pc
  | .stackUnderflow pc => "Stack underflow on 00EE at 0x" ++ hex 3 pc
  | .memoryAccess address length =>
    "Memory access out of bounds: 0x" ++ hex 0 address ++ " (+" ++ toString length ++ ")"
  | .keyIndex key => "Key index out of range: " ++ toString key
  | .unreadable text => text
  | .programTooLarge size limit =>
    "ROM is " ++ toString size ++ " bytes, at most " ++ toString limit ++ " fit in memory"
  | .other text => text

/-- Whether the fault concerns reading a program image, before any machine exists. -/
def Fault.atStartup : Fault → Bool
  | .unreadable _ | .programTooLarge _ _ => true
  | _ => false

/-- A mistake that nobody provides for. -/
inductive Misuse where
  /-- a queued value that is no event; the text is the value as it is written in reports -/
  | foreignEvent (shown : String)
  /-- a key arrived for a register with a number that no register has -/
  | noSuchRegister (number : Int)
  /-- a value given to a block write is not a byte -/
  | notAByte
  /-- a setting was left without a value where its value is compared -/
  | noValue
  /-- a path holds the character with the code zero -/
  | nullInPath
  deriving DecidableEq, Repr

/-- What is told to the user about a misuse. -/
def Misuse.message : Misuse → String
  | .foreignEvent shown => "unknown scheduler event: " ++ shown
  | .noSuchRegister number =>
    if -0x8000000000000000 ≤ number ∧ number < 0x8000000000000000 then "bytearray index out of range"
    else "cannot fit 'int' into an index-sized integer"
  | .notAByte => "bytes must be in range(0, 256)"
  | .noValue => "'<=' not supported between instances of 'list' and 'int'"
  | .nullInPath => "embedded null byte"

/-- Either reason for which an operation on the machine is refused. -/
inductive Error where
  | fault (fault : Fault)
  | misuse (misuse : Misuse)
  deriving DecidableEq, Repr

/-- What is told to the user about a refused operation. -/
def Error.message : Error → String
  | .fault f => f.message
  | .misuse m => m.message

end ChipEight
