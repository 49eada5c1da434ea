import VirtualPrinter.Binary64.SixDigits
import VirtualPrinter.Text.Number
import VirtualPrinter.Text.Uppercase

/-!
# Lines of a program

A line is read up to its first semicolon, without surrounding blanks and in upper case. A word is a
letter with a numeral behind it. A `G` or `M` word at the very start names the command; elsewhere
such words are ignored. Of every other letter the first word counts.
-/

namespace VirtualPrinter.GCode

open Text

/-! ### Numerals

A numeral is an optional sign with ASCII digits before or after a point, or both. The longest
numeral at the start of a text is read; a point without digits behind it is left unread.
-/

/-- A numeral by its sign and its digits before and after the point. -/
structure Numeral where
  negative : Bool
  whole : List Char
  fraction : List Char

namespace Numeral

/-- The longest numeral at the start of a text. -/
def read? (text : List Char) : Option Numeral :=
  let (negative, body) := splitSign text
  let whole := body.takeWhile isAsciiDigit
  let fraction := match body.dropWhile isAsciiDigit with
    | '.' :: after => after.takeWhile isAsciiDigit
    | _ => []
  if whole = [] ∧ fraction = [] then none else some ⟨negative, whole, fraction⟩

def value (n : Numeral) : Binary64 :=
  .ofRatio n.negative (digitsValue (n.whole ++ n.fraction)) (10 ^ n.fraction.length)

end Numeral

/-! ### Command names

A command is named by its letter and its code. Whole codes are written with all their digits, so
that leading zeros do not matter; codes with a fraction are written with six significant digits.
-/

/-- The name of the command with the given letter and code; a code that is no number has none. -/
def commandName (letter : String) (code : Binary64) : Except Binary64.IntegerFault String := do
  let whole ← code.truncate
  return letter ++ if code.sameNumber (.ofInt whole) then toString whole else code.sixDigitText

/-! ### Lines -/

/-- A line that holds anything: its command, if it has one, and its words by letter. -/
structure Line where
  command : Option String
  words : List (Char × Binary64)

def significant (text : List Char) : List Char :=
  upper (trim (text.takeWhile (· ≠ ';')))

def isWordLetter (c : Char) : Bool := 'A' ≤ c ∧ c ≤ 'Z'

def isCommandLetter (c : Char) : Bool := c = 'G' ∨ c = 'M'

/-- All words of a text from left to right. A numeral holds no letter, so the search may go on right
behind the letter of a word. -/
def allWords : List Char → List (Char × Binary64)
  | [] => []
  | c :: rest =>
    match if isWordLetter c then Numeral.read? rest else none with
    | some numeral => (c, numeral.value) :: allWords rest
    | none => allWords rest

def firstOfEach {α : Type} : List (Char × α) → List (Char × α)
  | [] => []
  | entry :: rest => entry :: (firstOfEach rest).filter (·.1 ≠ entry.1)

/-- The command word at the start of a text. -/
def leadingCommand (text : List Char) : Except Binary64.IntegerFault (Option String) :=
  match text with
  | [] => .ok none
  | c :: rest =>
    match if isCommandLetter c then Numeral.read? rest else none with
    | some numeral => (commandName (String.singleton c) numeral.value).map some
    | none => .ok none

namespace Line

/-- Reads a line; there is nothing on a blank or comment line. A leading command whose code is too
large to be a number is a fault. -/
def parse (text : List Char) : Except Binary64.IntegerFault (Option Line) :=
  let content := significant text
  if content = [] then .ok none
  else do
    let command ← leadingCommand content
    let words := (allWords content).filter fun word => !isCommandLetter word.1
    return some ⟨command, firstOfEach words⟩

end Line

end VirtualPrinter.GCode
