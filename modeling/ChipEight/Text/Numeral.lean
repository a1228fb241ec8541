import ChipEight.Text.Nearest

/-!
# Numerals

Two kinds of numerals are read: whole numbers, and decimal numbers that become
floating-point numbers. Both may stand between blanks, start with a sign, use
the digits of any script and have underscores between digits. A decimal number
may also have a point, an exponent, or be an infinity or no number at all,
spelled in letters of either case.

Among the ASCII characters the blanks are the space and the five characters from
tab to carriage return; beyond ASCII they are the separators and the line
controls of the Unicode standard. The digits of a script are ten characters in a
row, in ascending order, so a script is known by its zero. The table holds the
zeros of version 14 of the standard.

Addresses, instruction words and register values are written in upper-case
hexadecimal. A numeral may have a least width: it is then filled with zeros on
the left, and the sign of a negative number counts towards the width.
-/

namespace ChipEight.Text

/-! ## Blanks and digits -/

/-- The first and the last code point of every range of blanks. -/
def blanks : List (Nat × Nat) :=
  [(0x09, 0x0D), (0x20, 0x20), (0x85, 0x85), (0xA0, 0xA0), (0x1680, 0x1680), (0x2000, 0x200A),
   (0x2028, 0x2029), (0x202F, 0x202F), (0x205F, 0x205F), (0x3000, 0x3000)]

/-- Whether a character is a blank. -/
def isBlank (c : Char) : Bool :=
  blanks.any fun (first, last) => first ≤ c.toNat && c.toNat ≤ last

/-- A text without the blanks around it. -/
def strip (cs : List Char) : List Char :=
  ((cs.dropWhile isBlank).reverse.dropWhile isBlank).reverse

/-- The code points of the zeros of all scripts. -/
def zeros : List Nat :=
  [0x0030, 0x0660, 0x06F0, 0x07C0, 0x0966, 0x09E6, 0x0A66, 0x0AE6, 0x0B66, 0x0BE6, 0x0C66,
   0x0CE6, 0x0D66, 0x0DE6, 0x0E50, 0x0ED0, 0x0F20, 0x1040, 0x1090, 0x17E0, 0x1810, 0x1946,
   0x19D0, 0x1A80, 0x1A90, 0x1B50, 0x1BB0, 0x1C40, 0x1C50, 0xA620, 0xA8D0, 0xA900, 0xA9D0,
   0xA9F0, 0xAA50, 0xABF0, 0xFF10, 0x104A0, 0x10D30, 0x11066, 0x110F0, 0x11136, 0x111D0, 0x112F0,
   0x11450, 0x114D0, 0x11650, 0x116C0, 0x11730, 0x118E0, 0x11950, 0x11C50, 0x11D50, 0x11DA0,
   0x16A60, 0x16AC0, 0x16B50, 0x1D7CE, 0x1D7D8, 0x1D7E2, 0x1D7EC, 0x1D7F6, 0x1E140, 0x1E2F0,
   0x1E950, 0x1FBF0]

/-- The value of a decimal digit. -/
def digit? (c : Char) : Option Nat :=
  (zeros.find? fun z => z ≤ c.toNat && c.toNat < z + 10).map (c.toNat - ·)

example : zeros.length = 66 := rfl
example : digit? '7' = some 7 ∧ digit? '٣' = some 3 ∧ digit? 'a' = none := by decide

/-! ## Reading -/

/-- Digits of any script as plain digits; all other characters stay. -/
def plainDigit (c : Char) : Char :=
  match digit? c with
  | some d => Char.ofNat (0x30 + d)
  | none => c

/-- Drop underscores that stand between two digits; refuse all others. The last
character before the rest is given. -/
def dropUnderscores (last : Char) : List Char → Option (List Char)
  | [] => some []
  | '_' :: c :: rest =>
    if last.isDigit && c.isDigit then (dropUnderscores c rest).map (c :: ·) else none
  | c :: rest => if c = '_' then none else (dropUnderscores c rest).map (c :: ·)

/-- The characters of a numeral: without blanks around it, in plain digits and
without underscores. -/
def numeralChars? (text : String) : Option (List Char) :=
  dropUnderscores ' ' ((strip text.toList).map plainDigit)

/-- Split off a sign. The result says whether it was a minus. -/
def splitSign : List Char → Bool × List Char
  | '-' :: rest => (true, rest)
  | '+' :: rest => (false, rest)
  | cs => (false, cs)

/-- The number that plain digits stand for. -/
def digitsValue (digits : List Char) : Nat :=
  digits.foldl (fun n c => n * 10 + (c.toNat - 0x30)) 0

/-- The most digits that a whole number may have. -/
def wholeDigitLimit : Nat := 4300

/-- The whole number that a text stands for. -/
def readWhole? (text : String) : Option Int := do
  let (negative, digits) := splitSign (← numeralChars? text)
  guard (digits ≠ [] ∧ digits.all Char.isDigit ∧ digits.length ≤ wholeDigitLimit)
  let value : Int := digitsValue digits
  return if negative then -value else value

/-- What the numeral of a floating-point number says. -/
inductive Decimal where
  /-- the number `digits * 10 ^ exponent`, or its opposite -/
  | finite (negative : Bool) (digits : Nat) (exponent : Int)
  | infinite (negative : Bool)
  | notANumber
  deriving DecidableEq, Repr

namespace Decimal

/-- The exponent behind the digits of a numeral; none is an exponent of zero. -/
def readExponent? : List Char → Option Int
  | [] => some 0
  | e :: rest => do
    guard (e = 'e' ∨ e = 'E')
    let (negative, digits) := splitSign rest
    guard (digits ≠ [] ∧ digits.all Char.isDigit)
    let value : Int := digitsValue digits
    return if negative then -value else value

/-- The digits behind the point of a numeral, and what follows them. -/
def splitFraction : List Char → List Char × List Char
  | '.' :: rest => rest.span Char.isDigit
  | cs => ([], cs)

/-- Read the numeral of a finite number without its sign. -/
def readFinite? (negative : Bool) (cs : List Char) : Option Decimal := do
  let (whole, rest) := cs.span Char.isDigit
  let (fraction, rest) := splitFraction rest
  guard (whole ++ fraction ≠ [])
  let exponent ← readExponent? rest
  return .finite negative (digitsValue (whole ++ fraction)) (exponent - fraction.length)

/-- Read the numeral of a floating-point number. -/
def read? (text : String) : Option Decimal := do
  let (negative, cs) := splitSign (← numeralChars? text)
  let word := String.ofList (cs.map Char.toLower)
  if word = "inf" ∨ word = "infinity" then
    return .infinite negative
  if word = "nan" then
    return .notANumber
  readFinite? negative cs

/-- The floating-point number nearest to `digits * 10 ^ exponent`. An exponent far
out of range is settled without computing the power. -/
def magnitude (digits : Nat) (exponent : Int) : Float :=
  let places : Int := Nat.log2 digits / 3 + exponent
  if digits = 0 ∨ places + 1 < -400 then 0.0
  else if 400 < exponent then Float.ofBits (UInt64.ofNat infinityBits)
  else if exponent < 0 then nearestFloat digits (Nat.pow 10 exponent.natAbs)
  else nearestFloat (digits * Nat.pow 10 exponent.natAbs) 1

/-- The floating-point number nearest to what a numeral says. -/
def toFloat : Decimal → Float
  | .finite negative digits exponent =>
    let value := magnitude digits exponent
    if negative then -value else value
  | .infinite negative => if negative then -1.0 / 0.0 else 1.0 / 0.0
  | .notANumber => 0.0 / 0.0

end Decimal

/-- The floating-point number that a text stands for. -/
def readFloat? (text : String) : Option Float :=
  (Decimal.read? text).map Decimal.toFloat

example : readWhole? " +1_000\n" = some 1000 := by decide +kernel
example : readWhole? "1__0" = none := by decide +kernel
example : Decimal.read? "-2.50e3" = some (.finite true 250 1) := by decide +kernel
example : Decimal.read? "1e" = none := by decide +kernel

/-! ## Hexadecimal numerals -/

/-- The upper-case digit of a value below sixteen. -/
def hexDigit (d : Nat) : Char :=
  if d < 10 then Char.ofNat (0x30 + d) else Char.ofNat (0x37 + d)

/-- The hexadecimal digits of a number, most significant first; zero has one digit. -/
def hexDigits (n : Nat) : List Char :=
  if n < 16 then [hexDigit n] else hexDigits (n / 16) ++ [hexDigit (n % 16)]

/-- The numeral of `n` filled with zeros to at least `width` characters, sign included. -/
def hex (width : Nat) (n : Int) : String :=
  if n < 0 then
    String.ofList ('-' :: (hexDigits n.natAbs).leftpad (width - 1) '0')
  else
    String.ofList ((hexDigits n.natAbs).leftpad width '0')

example : hex 3 0x2A = "02A" := by decide +kernel
example : hex 4 0x12345 = "12345" := by decide +kernel
example : hex 3 (-1) = "-01" := by decide +kernel
example : hex 0 (-0x1F) = "-1F" := by decide +kernel

end ChipEight.Text
