import VirtualPrinter.Text.Printable

/-!
# Quoted text

Text shown in a message stands between single quotes, or between double quotes when it holds single
quotes only. The backslash and the surrounding quote are escaped by a backslash, line ends and
tabulators by their letters, and everything unprintable by its code point.
-/

namespace VirtualPrinter.Text

/-- The hexadecimal digits of a number, padded with zeros to the given width. -/
def hexPadded (width n : Nat) : List Char :=
  let digits := Nat.toDigits 16 n
  List.replicate (width - digits.length) '0' ++ digits

/-- The escape of a code point, as short as it allows. -/
def codePointEscape (code : Nat) : List Char :=
  if code ≤ 0xff then '\\' :: 'x' :: hexPadded 2 code
  else if code ≤ 0xffff then '\\' :: 'u' :: hexPadded 4 code
  else '\\' :: 'U' :: hexPadded 8 code

def quotedChar (quote c : Char) : List Char :=
  if c = quote ∨ c = '\\' then ['\\', c]
  else if c = '\t' then ['\\', 't']
  else if c = '\n' then ['\\', 'n']
  else if c = '\r' then ['\\', 'r']
  else if isPrintable c then [c]
  else codePointEscape c.toNat

def quoteFor (text : List Char) : Char :=
  if '\'' ∈ text ∧ '"' ∉ text then '"' else '\''

/-- The text between quotes, everything inside readable. -/
def quoted (text : String) : String :=
  let quote := quoteFor text.toList
  String.ofList (quote :: text.toList.flatMap (quotedChar quote) ++ [quote])

end VirtualPrinter.Text
