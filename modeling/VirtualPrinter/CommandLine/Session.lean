import VirtualPrinter.CommandLine.Options
import VirtualPrinter.Printer.Seed

/-!
# Runs of the command line

A run configures a printer from the environment and the options, starts the program file, and then
prints status lines with a pause between each two. The clock counts seconds and the machine's time
is that in milliseconds.
-/

namespace VirtualPrinter.CommandLine

/-- The machine's time at a time of the clock. -/
def machineTime (seconds : Binary64) : Binary64 := seconds * 1000

/-- The value of a setting that an option overrides. Nothing is shown as an empty list, which stands
for no number. -/
def Given.setting : Given Binary64 → OptionValue
  | value x => .number x
  | nothing => .list []

/-- The configuration of a run: the environment, and the options over it. -/
def configuration (options : Options) (environment : List (String × String)) : Config :=
  let base : Config := ⟨environment.map fun entry => (entry.1, .text entry.2)⟩
  let fed := match options.feed with
    | some feed => base.set "feed_rate" feed.setting
    | none => base
  match options.printSeconds with
  | some seconds => fed.set "print_seconds" seconds.setting
  | none => fed

/-- Why a run fails: its printer fails, or an option that has to have a value was given nothing. -/
inductive RunError where
  | printer (error : PrinterError)
  | countNotGiven
  | intervalNotGiven

def RunError.message : RunError → String
  | printer error => error.message
  | countNotGiven => "'<=' not supported between instances of 'list' and 'int'"
  | intervalNotGiven => "unsupported operand type(s) for +=: 'float' and 'list'"

/-- A run whose program has been started, and how many status lines it has to print, if there is an
end. -/
structure Session where
  options : Options
  lineCount : Option Nat
  printer : Printer

/-- What opening a run comes to: a session, nothing to start, or a failure. -/
inductive Opening where
  | running (session : Session)
  | nothingToStart
  | failed (error : RunError)

/-- How many status lines a count asks for, if there is an end. -/
def linesAskedFor (count : Int) : Option Nat := if count ≤ 0 then none else some count.toNat

namespace Session

/-- Opens a run at a time of the clock. -/
def openAt (options : Options) (environment : List (String × String)) (read : FileReader)
    (seconds : Binary64) : Opening × List LogRecord :=
  match Printer.openAt (configuration options environment) (machineTime seconds) with
  | .error error => (.failed (.printer (.configuration error)), [])
  | .ok printer =>
    let seeded := printer.seed read options.file (machineTime seconds)
    let opening : Opening := match seeded.answer, options.count with
      | .error error, _ => .failed (.printer error)
      | .ok none, _ => .nothingToStart
      | .ok (some _), .nothing => .failed .countNotGiven
      | .ok (some _), .value count =>
        .running { options, lineCount := linesAskedFor count, printer := seeded.printer }
    (opening, seeded.records)

def statusLine (s : Session) (seconds : Binary64) : Response String :=
  (s.printer.status s.options.dialect (machineTime seconds)).map (·.render)

end Session

/-! ### Turns

A run goes by turns, each a status line and what comes behind it.
-/

/-- What a turn comes to: a failure, the last line, or a line and a pause, if there is one to make,
with the session that goes on after it. -/
inductive Turn where
  | failed (error : PrinterError)
  | last (line : String)
  | next (line : String) (pause : Given Binary64) (later : Session)

def Session.turn (s : Session) (seconds : Binary64) : Turn × List LogRecord :=
  let response := s.statusLine seconds
  let turn : Turn := match response.answer with
    | .error error => .failed error
    | .ok line =>
      if s.lineCount = some 1 then .last line
      else .next line s.options.interval
        { s with lineCount := s.lineCount.map (· - 1), printer := response.printer }
  (turn, response.records)

/-! ### Transcripts -/

inductive Ending where
  | exited (code : Nat) (complaint : String)
  | interrupted
  | failed (error : RunError)

/-- What a run did: the lines printed, the pauses asked for in seconds, and how it ended. -/
structure Transcript where
  lines : List String := []
  pauses : List (Given Binary64) := []
  ending : Ending

def nothingToStartText : String := "No G-code file to start\n"

namespace Session

/-- The transcript of a session, turn by turn. A pause lasts exactly as long as it is asked to, and
the run is interrupted where it would pause more often than `pauses` times. -/
def play (s : Session) (pauses : Nat) (seconds : Binary64) : Transcript :=
  match (s.turn seconds).1, pauses with
  | .failed error, _ => { ending := .failed (.printer error) }
  | .last line, _ => { lines := [line], ending := .exited 0 "" }
  | .next line _ _, 0 => { lines := [line], ending := .interrupted }
  | .next line .nothing _, _ + 1 =>
    { lines := [line], pauses := [.nothing], ending := .failed .intervalNotGiven }
  | .next line (.value interval) later, left + 1 =>
    let rest := later.play left (seconds + interval)
    { rest with lines := line :: rest.lines, pauses := .value interval :: rest.pauses }

end Session

/-- The transcript of a whole run, interrupted where it would pause more often than `pauses` times.
-/
def transcript (options : Options) (environment : List (String × String)) (read : FileReader)
    (seconds : Binary64) (pauses : Nat) : Transcript :=
  match (Session.openAt options environment read seconds).1 with
  | .failed error => { ending := .failed error }
  | .nothingToStart => { ending := .exited 2 nothingToStartText }
  | .running session => session.play pauses seconds

/-- The transcript of a run with the given arguments; there is none when they are refused. -/
def run (arguments : List String) (environment : List (String × String)) (read : FileReader)
    (seconds : Binary64) (pauses : Nat) : Except Refusal Transcript :=
  (Options.ofArguments arguments).map fun options =>
    transcript options environment read seconds pauses

end VirtualPrinter.CommandLine
