import ChipEight.Text.Numeral
import ChipEight.Text.Printable

/-!
# Quoted text

A text is shown between single quotes, or between double quotes if it holds a
single quote and no double one. Backslashes and the quote in use are escaped,
as are the characters that cannot be printed: tab, newline and carriage return
by a letter, the others by their code point in two, four or eight digits.
-/

namespace ChipEight.Text

/-- The code point of a character in lower-case digits, at least `width` of them. -/
def codePoint (width : Nat) (c : Char) : List Char :=
  ((hexDigits c.toNat).map Char.toLower).leftpad width '0'

/-- The way a character is written between quotes. -/
def escape (quote c : Char) : List Char :=
  if c = quote || c = '\\' then ['\\', c]
  else if c = '\t' then ['\\', 't']
  else if c = '\n' then ['\\', 'n']
  else if c = '\r' then ['\\', 'r']
  else if isPrintable c then [c]
  else if c.toNat < 0x100 then '\\' :: 'x' :: codePoint 2 c
  else if c.toNat < 0x10000 then '\\' :: 'u' :: codePoint 4 c
  else '\\' :: 'U' :: codePoint 8 c

/-- The quote that a text is put between. -/
def quoteFor (cs : List Char) : Char :=
  if '\'' ∈ cs && '"' ∉ cs then '"' else '\''

/-- A text between quotes. -/
def quoted (text : String) : String :=
  let cs := text.toList
  let quote := quoteFor cs
  String.ofList (quote :: cs.flatMap (escape quote) ++ [quote])

example : quoted "plain" = "'plain'" := by decide +kernel
example : quoted "it's" = "\"it's\"" := by decide +kernel
example : quoted "a\\b\t" = "'a\\\\b\\t'" := by decide +kernel
example : quoted "\x7f" = "'\\x7f'" := by decide +kernel

end ChipEight.Text
