import VirtualPrinter.Text.Character

/-!
# Arguments of the command line

Before anything else every argument is told apart: an option, perhaps with a value attached to it,
an operand, or the mark after which everything is an operand. Long options may be shortened as long
as only one is meant. Negative numbers and texts with blanks are operands although they begin with a
dash.
-/

namespace VirtualPrinter.CommandLine

inductive Flag where
  | help
  | feed
  | printSeconds
  | dialect
  | interval
  | count
  | verbose
deriving DecidableEq, Repr

namespace Flag

def takesValue : Flag → Bool
  | help | verbose => false
  | _ => true

def spellings : List (String × Flag) := [
  ("-h", help), ("--help", help),
  ("--feed", feed),
  ("--print-seconds", printSeconds),
  ("--dialect", dialect),
  ("--interval", interval),
  ("--count", count),
  ("-v", verbose), ("--verbose", verbose)]

end Flag

/-- What is attached to an option: a value behind an equals sign, or letters behind its own. -/
inductive Attached where
  | none
  | equals (value : String)
  | letters (following : List Char)
deriving DecidableEq

inductive Argument where
  | option (flag : Flag) (attached : Attached)
  | unknown
  | operand (text : String)
  | separator
deriving DecidableEq

/-- Whether a text is a dash and a number in plain decimal form; a line end may follow. -/
def isNegativeNumber (text : List Char) : Bool :=
  match text with
  | '-' :: number =>
    let number := if number.getLast? = some '\n' then number.dropLast else number
    let rest := number.dropWhile Text.isDecimalDigit
    match rest with
    | [] => number ≠ []
    | '.' :: fraction => fraction ≠ [] && fraction.all Text.isDecimalDigit
    | _ => false
  | _ => false

/-- An argument that begins with a dash but is no option. -/
def nonOption (text : String) : Argument :=
  if isNegativeNumber text.toList ∨ ' ' ∈ text.toList then .operand text else .unknown

/-- The part of a text before its first equals sign, and the part behind it, if there is one. -/
def splitEquals (text : List Char) : String × Attached :=
  match text.dropWhile (· ≠ '=') with
  | _ :: value => (String.ofList (text.takeWhile (· ≠ '=')), .equals (String.ofList value))
  | [] => (String.ofList text, .none)

/-- An argument with two dashes: the one option that it begins, with what is attached. It is an
error to begin several. -/
def longArgument? (text : String) : Option Argument :=
  let (name, attached) := splitEquals text.toList
  match Flag.spellings.filter fun spelling => name.toList.isPrefixOf spelling.1.toList with
  | [] => some (nonOption text)
  | [(_, flag)] => some (.option flag attached)
  | _ => none

/-- An argument with a single dash: an option letter and the letters behind it, from which one
equals sign may part it. -/
def shortArgument (text : String) (letter : Char) (following : List Char) : Argument :=
  match Flag.spellings.lookup (String.ofList ['-', letter]) with
  | some flag =>
    .option flag (.letters (if following.head? = some '=' then following.tail else following))
  | none => nonOption text

/-- Tells one argument apart; nothing when it could be several options. -/
def classify? (text : String) : Option Argument :=
  match Flag.spellings.lookup text with
  | some flag => some (.option flag .none)
  | none =>
    match text.toList with
    | '-' :: '-' :: _ => longArgument? text
    | '-' :: letter :: following => some (shortArgument text letter following)
    | _ => some (.operand text)

def classifyAll? : List String → Option (List Argument)
  | [] => some []
  | "--" :: rest => some (.separator :: rest.map .operand)
  | text :: rest => do
    let argument ← classify? text
    let later ← classifyAll? rest
    return argument :: later

end VirtualPrinter.CommandLine
