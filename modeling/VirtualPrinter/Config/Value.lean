import VirtualPrinter.Binary64.Shortest
import VirtualPrinter.Text.Number
import VirtualPrinter.Text.Quoted

/-!
# Option values

An option may hold a value of any kind that a configuration file can write. Values are shown in
messages in a fixed form, those that stand for a number convert to one, and those that stand for a
file give its path.
-/

namespace VirtualPrinter

inductive OptionValue where
  | null
  | bool (value : Bool)
  | integer (value : Int)
  | number (value : Binary64)
  | text (value : String)
  | list (items : List OptionValue)
  | table (fields : List (String × OptionValue))
deriving Inhabited

namespace OptionValue

/-! ### Showing -/

mutual

def render : OptionValue → String
  | null => "None"
  | bool value => if value then "True" else "False"
  | integer value => toString value
  | number value => value.shortestText
  | text value => Text.quoted value
  | list items => "[" ++ ", ".intercalate (renderItems items) ++ "]"
  | table fields => "\x7b" ++ ", ".intercalate (renderFields fields) ++ "\x7d"

def renderItems : List OptionValue → List String
  | [] => []
  | item :: rest => item.render :: renderItems rest

def renderFields : List (String × OptionValue) → List String
  | [] => []
  | (key, value) :: rest => (Text.quoted key ++ ": " ++ value.render) :: renderFields rest

end

/-! ### Conversion to a number -/

/-- The number that a value stands for: a truth value is one or zero, and a text is read. An integer
beyond all floating-point values converts to an infinity. -/
def toNumber? : OptionValue → Option Binary64
  | bool value => some (if value then 1 else 0)
  | integer value => some (.ofInt value)
  | number value => some value
  | text value => Text.readNumber? value
  | _ => none

/-- Whether the value is an integer that no floating-point value comes near. -/
def isOversized : OptionValue → Bool
  | integer value => !(Binary64.ofInt value).isFinite
  | _ => false

end OptionValue

/-! ### Paths -/

/-- Why a value cannot stand for a file: it is of a kind that never does, or it is an integer beyond
the numbers of open files. -/
inductive PathFault where
  | number
  | list
  | table
  | aboveHandles
  | belowHandles
deriving DecidableEq, Repr

def PathFault.message : PathFault → String
  | number => "stat: path should be string, bytes, os.PathLike or integer, not float"
  | list => "stat: path should be string, bytes, os.PathLike or integer, not list"
  | table => "stat: path should be string, bytes, os.PathLike or integer, not dict"
  | aboveHandles => "fd is greater than maximum"
  | belowHandles => "fd is less than minimum"

/-- The path that a value stands for, if there is one. Integers of 32 bits and truth values are the
numbers of open files, and no program is read from those; zeros and empty values stand for none. -/
def OptionValue.toPath : OptionValue → Except PathFault (Option String)
  | null | bool _ | list [] | table [] => .ok none
  | text path => .ok (some path)
  | integer handle =>
    if 2 ^ (31 : Nat) ≤ handle then .error .aboveHandles
    else if handle < -2 ^ (31 : Nat) then .error .belowHandles
    else .ok none
  | number value => if value.sameNumber 0 then .ok none else .error .number
  | list _ => .error .list
  | table _ => .error .table

end VirtualPrinter
