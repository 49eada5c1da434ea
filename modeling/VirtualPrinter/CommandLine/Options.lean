import VirtualPrinter.CommandLine.Argument
import VirtualPrinter.Status
import VirtualPrinter.Text.Number

/-!
# Options of a run

Arguments take effect from left to right, the last of several values counting. The first operand is
the program file; a second one, an unknown option, a missing or a bad value make the command line
unusable. Asking for help ends the reading at once. The mark of the operands, attached to an option
in the place of its value, is no bad value: it gives the option nothing.
-/

namespace VirtualPrinter.CommandLine

/-- What an option is given: a value, or nothing in its place. -/
inductive Given (α : Type) where
  | value (value : α)
  | nothing

namespace Given

def read? {α : Type} (readValue? : String → Option α) (text : String) : Option (Given α) :=
  if text = "--" then some nothing else (readValue? text).map value

def getD {α : Type} : Given α → α → α
  | value a, _ => a
  | nothing, a => a

end Given

/-- What a run is asked for: the file to start, overriding settings, the dialect, the seconds
between status lines and their number, where zero or less means without end. -/
structure Options where
  file : Option String := none
  feed : Option (Given Binary64) := none
  printSeconds : Option (Given Binary64) := none
  dialect : Dialect := .objectModel
  interval : Given Binary64 := .value 1
  count : Given Int := .value 10
  verbose : Bool := false

inductive Refusal where
  | help
  | misuse
deriving DecidableEq, Repr

def Refusal.exitCode : Refusal → Nat
  | help => 0
  | misuse => 2

def dialectNamed? : String → Option Dialect
  | "dsf" => some .objectModel
  | "rr" => some .legacy
  | _ => none

namespace Options

/-- The options with one value set. A dialect that is given nothing is that of the object model. -/
def setValue? (o : Options) (flag : Flag) (value : String) : Option Options :=
  match flag with
  | .feed => (Given.read? Text.readNumber? value).map fun x => { o with feed := some x }
  | .printSeconds =>
    (Given.read? Text.readNumber? value).map fun x => { o with printSeconds := some x }
  | .interval => (Given.read? Text.readNumber? value).map fun x => { o with interval := x }
  | .count => (Given.read? Text.readInteger? value).map fun n => { o with count := n }
  | .dialect =>
    (Given.read? dialectNamed? value).map fun d => { o with dialect := d.getD .objectModel }
  | .help | .verbose => none

def setFlag (o : Options) (flag : Flag) : Except Refusal Options :=
  match flag with
  | .help => .error .help
  | .verbose => .ok { o with verbose := true }
  | _ => .error .misuse

end Options

/-- The reading of arguments so far. `awaiting` is an option whose value comes next, `mayClose`
tells that the file has just been read, so that the mark of the operands may still follow it, and
`surplus` that something was left over. -/
structure Reading where
  options : Options := {}
  awaiting : Option Flag := none
  fileRead : Bool := false
  mayClose : Bool := false
  surplus : Bool := false

namespace Reading

def withOptions (r : Reading) (options : Options) : Reading :=
  { r with options, awaiting := none, mayClose := false }

def withSurplus (r : Reading) : Reading := { r with surplus := true, mayClose := false }

/-- The options of letters, if each of them is that of an option. -/
def cluster? (letters : List Char) : Option (List Flag) :=
  letters.mapM fun letter => Flag.spellings.lookup (String.ofList ['-', letter])

/-- Takes a run of option letters, of which there is at least one behind the first. -/
def takeCluster (r : Reading) (flag : Flag) (letters : List Char) : Except Refusal Reading :=
  match cluster? letters with
  | none | some [] => .error .misuse
  | some flags => ((flag :: flags).foldlM Options.setFlag r.options).map r.withOptions

def takeFlag (r : Reading) (flag : Flag) (attached : Attached) : Except Refusal Reading :=
  match attached with
  | .none => (r.options.setFlag flag).map r.withOptions
  | .equals _ => .error .misuse
  | .letters following => r.takeCluster flag following

def takeValue (r : Reading) (flag : Flag) (value : String) : Except Refusal Reading :=
  match r.options.setValue? flag value with
  | some options => .ok (r.withOptions options)
  | none => .error .misuse

def takeOperand (r : Reading) (text : String) : Reading :=
  if r.fileRead then r.withSurplus
  else
    { r with options := { r.options with file := some text }, fileRead := true, mayClose := true }

/-- Takes the mark of the operands; it is left over when the file was read before other options. -/
def takeSeparator (r : Reading) : Reading :=
  if r.fileRead && !r.mayClose then r.withSurplus else r

/-- Takes an option, or begins to wait for its value. -/
def takeOption (r : Reading) (flag : Flag) (attached : Attached) : Except Refusal Reading :=
  if !flag.takesValue then r.takeFlag flag attached
  else match attached with
    | .none => .ok { r with awaiting := some flag, mayClose := false }
    | .equals value => r.takeValue flag value
    | .letters _ => .error .misuse

/-- Takes the next argument. Only an operand can be the value that an option waits for. -/
def step (r : Reading) (argument : Argument) : Except Refusal Reading :=
  match r.awaiting, argument with
  | some flag, .operand value => r.takeValue flag value
  | some _, _ => .error .misuse
  | none, .operand text => .ok (r.takeOperand text)
  | none, .separator => .ok r.takeSeparator
  | none, .unknown => .ok r.withSurplus
  | none, .option flag attached => r.takeOption flag attached

end Reading

def Options.ofArguments (arguments : List String) : Except Refusal Options :=
  match classifyAll? arguments with
  | none => .error .misuse
  | some classified => do
    let reading ← classified.foldlM Reading.step {}
    if reading.surplus ∨ reading.awaiting.isSome then .error .misuse else return reading.options

end VirtualPrinter.CommandLine
