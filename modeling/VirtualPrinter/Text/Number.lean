import VirtualPrinter.Binary64.Decimal
import VirtualPrinter.Text.Character

/-!
# Numbers as people write them

The texts that options accept as numbers: blanks around, a sign, decimal digits of any script with
single underscores between them, a point, a power of ten, or the words for infinity and
not-a-number in any case.
-/

namespace VirtualPrinter.Text

/-- The blanks that may surround a number; the four ASCII separators are not among them. -/
def isNumberBlank (c : Char) : Bool := isPlainBlank c || wideBlanks.contains c.toNat

def isAsciiDigit (c : Char) : Bool := '0' ≤ c ∧ c ≤ '9'

/-- Digits of every script become the ASCII digits of the same value. -/
def plainDigits (text : List Char) : List Char :=
  text.map fun c =>
    match digitValue? c with
    | some value => Char.ofNat ('0'.toNat + value)
    | none => c

/-- The text without its underscores, each of which has to stand between two digits; `afterDigit`
says whether a digit has just been read. -/
def dropUnderscores? (afterDigit : Bool) : List Char → Option (List Char)
  | [] => some []
  | [c] => if c = '_' then none else some [c]
  | c :: next :: rest =>
    if c = '_' then
      if afterDigit && isAsciiDigit next then dropUnderscores? false (next :: rest) else none
    else (dropUnderscores? (isAsciiDigit c) (next :: rest)).map (c :: ·)

/-- A leading sign, true for minus, and what follows it. -/
def splitSign : List Char → Bool × List Char
  | '-' :: rest => (true, rest)
  | '+' :: rest => (false, rest)
  | text => (false, text)

/-- A power of ten after the digits: nothing, or `e` with a signed number. -/
def readPower? : List Char → Option Int
  | [] => some 0
  | c :: rest =>
    let (negative, digits) := splitSign rest
    if (c = 'e' ∨ c = 'E') ∧ digits ≠ [] ∧ digits.all isAsciiDigit then
      some (if negative then -(digitsValue digits : Int) else digitsValue digits)
    else none

/-- The digits before and after the point, and the rest; there is at least one digit. -/
def splitDigits? (text : List Char) : Option (List Char × List Char × List Char) :=
  let whole := text.takeWhile isAsciiDigit
  let (fraction, rest) := match text.dropWhile isAsciiDigit with
    | '.' :: after => (after.takeWhile isAsciiDigit, after.dropWhile isAsciiDigit)
    | other => ([], other)
  if whole = [] ∧ fraction = [] then none else some (whole, fraction, rest)

/-- The value of an unsigned number in ASCII. -/
def readUnsigned? (negative : Bool) (text : List Char) : Option Binary64 :=
  let word := text.map Char.toLower
  if word = ['i', 'n', 'f'] ∨ word = ['i', 'n', 'f', 'i', 'n', 'i', 't', 'y'] then
    some (.infinity negative)
  else if word = ['n', 'a', 'n'] then some .nan
  else do
    let (whole, fraction, rest) ← splitDigits? text
    let power ← readPower? rest
    return .ofDecimal negative (digitsValue (whole ++ fraction)) (power - fraction.length)

def readNumber? (text : String) : Option Binary64 := do
  let plain ← dropUnderscores? false (plainDigits (trimWhile isNumberBlank text.toList))
  let (negative, unsigned) := splitSign plain
  readUnsigned? negative unsigned

/-- The integer that a text spells, of at most 4300 digits. -/
def readInteger? (text : String) : Option Int := do
  let plain ← dropUnderscores? false (plainDigits (trimWhile isNumberBlank text.toList))
  let (negative, digits) := splitSign plain
  if digits ≠ [] ∧ digits.all isAsciiDigit ∧ digits.length ≤ 4300 then
    some (if negative then -(digitsValue digits : Int) else digitsValue digits)
  else none

end VirtualPrinter.Text
