import VirtualPrinter.Config.Value
import VirtualPrinter.Text.Uppercase

/-!
# Configuration

A configuration maps keys to values. An option is looked up by its own name, then by the name of its
environment variable, then in upper case; empty texts count as not given. Numeric options may have
to lie in a range.
-/

namespace VirtualPrinter

inductive ConfigError where
  | missing (option : String)
  | unparsable (option : String) (value : OptionValue)
  | oversized
  | belowMinimum (option : String) (limit : Binary64)
  | notAbove (option : String) (limit : Binary64)

def ConfigError.message : ConfigError → String
  | missing option => s!"Option '{option}' must be specified"
  | unparsable option value => s!"Unable to parse option '{option}': {value.render}"
  | oversized => "int too large to convert to float"
  | belowMinimum option limit => s!"Option '{option}' must have minimum of {limit.shortestText}"
  | notAbove option limit => s!"Option '{option}' must be above {limit.shortestText}"

/-- The limits of a numeric option: the least value allowed, and one that has to be exceeded. -/
structure NumberRange where
  least : Option Binary64 := none
  above : Option Binary64 := none

/-- Whether a value is refused; not-a-number is below nothing and passes every limit. -/
def NumberRange.check (range : NumberRange) (option : String) (value : Binary64) :
    Except ConfigError Unit := do
  if let some limit := range.least then
    if value.lt limit then throw (.belowMinimum option limit)
  if let some limit := range.above then
    if value.le limit then throw (.notAbove option limit)

structure Config where
  values : List (String × OptionValue)

namespace Config

/-- The environment variables of options, by option. -/
def environmentNames : List (String × String) := [
  ("print_seconds", "PRINT_SECONDS"),
  ("feed_rate", "FEED_MM_PER_MIN"),
  ("start_file", "START_FILE")]

/-- The keys under which an option is looked up, in order. -/
def keys (option : String) : List String :=
  [option] ++ (environmentNames.lookup option).toList ++
    [String.ofList (Text.upper option.toList)]

def isGiven : OptionValue → Bool
  | .text value => !value.isEmpty
  | _ => true

def given? (c : Config) (key : String) : Option OptionValue :=
  if key.isEmpty then none else (c.values.lookup key).filter isGiven

def find? (c : Config) (option : String) : Option OptionValue :=
  (keys option).findSome? c.given?

/-- The value of an option, or the default; without either it is missing. -/
def get (c : Config) (option : String) (default : Option OptionValue) :
    Except ConfigError OptionValue :=
  match (c.find? option).or default with
  | some value => .ok value
  | none => .error (.missing option)

/-- The number an option stands for, within its range; an option without a value has none. -/
def getNumber (c : Config) (option : String) (default : Option OptionValue)
    (range : NumberRange) : Except ConfigError (Option Binary64) := do
  match ← c.get option default with
  | .null => return none
  | value =>
    if value.isOversized then throw .oversized
    match value.toNumber? with
    | none => throw (.unparsable option value)
    | some number =>
      range.check option number
      return some number

def set (c : Config) (key : String) (value : OptionValue) : Config :=
  ⟨(key, value) :: c.values.filter (·.1 ≠ key)⟩

end Config

end VirtualPrinter
