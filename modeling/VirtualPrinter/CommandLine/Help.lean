import VirtualPrinter.CommandLine.Argument

/-!
# The help text

The help names the program, shows how it is called, and then lists the operand and the options with
their summaries in a second column. The options in the first lines are broken between two of them
when a line is full, and the operand begins a line of its own.
-/

namespace VirtualPrinter.CommandLine

namespace Flag

def all : List Flag := [help, feed, printSeconds, dialect, interval, count, verbose]

def ownSpellings (flag : Flag) : List String :=
  (spellings.filter fun entry => entry.2 = flag).map (·.1)

def placeholder? : Flag → Option String
  | feed => some "FEED"
  | printSeconds => some "PRINT_SECONDS"
  | dialect => some "\x7bdsf,rr\x7d"
  | interval => some "INTERVAL"
  | count => some "COUNT"
  | help | verbose => none

def summary : Flag → String
  | help => "show this help message and exit"
  | feed => "feed rate in mm/min (default: $FEED_MM_PER_MIN or 600)"
  | printSeconds => "fixed job duration (default: estimate)"
  | interval => "seconds between status lines"
  | count => "number of status lines (0 = forever)"
  | dialect | verbose => ""

/-- The forms in which an option is written, with a placeholder behind each. -/
def forms (flag : Flag) : List String :=
  flag.ownSpellings.map fun spelling =>
    match flag.placeholder? with
    | some value => spelling ++ " " ++ value
    | none => spelling

end Flag

/-! ### Lines -/

def lineWidth : Nat := 78

def summaryColumn : Nat := 24

/-- A text with blanks behind it up to a column. -/
def padTo (column : Nat) (text : String) : String := text.pushn ' ' (column - text.length)

/-- Puts words behind the line begun, and begins a line at an indent where one would be too long. -/
def fillLines (indent : String) (line : String) : List String → List String
  | [] => [line]
  | word :: rest =>
    if line.length + 1 + word.length ≤ lineWidth then
      fillLines indent (line ++ " " ++ word) rest
    else line :: fillLines indent (indent ++ word) rest

/-- An entry of a list: its summary stands behind its name, or below it when the name is long. -/
def entryLines (name summary : String) : List String :=
  let begun := "  " ++ name
  if summary.isEmpty then [begun]
  else if begun.length + 2 ≤ summaryColumn then
    [padTo summaryColumn begun ++ summary]
  else [begun, padTo summaryColumn "" ++ summary]

/-! ### The text -/

def usageLines (program : String) : List String :=
  let head := "usage: " ++ program
  let indent := padTo (head.length + 1) ""
  fillLines indent head (Flag.all.map fun flag => "[" ++ flag.forms.headD "" ++ "]") ++
    [indent ++ "[file]"]

def helpLines (program : String) : List String :=
  usageLines program ++
    ["", "Mock printer telemetry", "", "positional arguments:"] ++
    entryLines "file" "G-code file to start (default: $START_FILE)" ++
    ["", "options:"] ++
    Flag.all.flatMap fun flag => entryLines (", ".intercalate flag.forms) flag.summary

end VirtualPrinter.CommandLine
