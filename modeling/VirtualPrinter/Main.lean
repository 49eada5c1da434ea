import VirtualPrinter.CommandLine.Help
import VirtualPrinter.CommandLine.Session

/-!
# The program

Runs a program file on a virtual printer and prints a status line at every interval. Log records go
to standard error, those for debugging only when asked for.
-/

namespace VirtualPrinter.CommandLine

def programName : String := "printer"

def clockSeconds : IO Binary64 := do
  return .ofRatio false (← IO.monoNanosNow) 1000000000

def readEnvironment : IO (List (String × String)) := do
  let keys := Config.environmentNames.flatMap fun entry => Config.keys entry.1
  let entries ← keys.mapM fun key => do
    return (← IO.getEnv key).map fun value => (key, value)
  return entries.filterMap id

/-- The bytes of the file at a path, if it can be read. -/
def readBytes? (path : String) : IO (Option (List UInt8)) := do
  try
    return some (← IO.FS.readBinFile path).toList
  catch _ => return none

def printRecords (verbose : Bool) (records : List LogRecord) : IO Unit := do
  for record in records do
    if verbose || record.level ≠ .debug then
      IO.eprintln (record.level.name ++ " " ++ record.message)

/-- Waits for a number of seconds, if it is a finite one above zero. -/
def pauseFor (seconds : Binary64) : IO Unit :=
  match (seconds * 1000).floor with
  | .ok milliseconds => IO.sleep (UInt32.ofNat (min milliseconds.toNat (2 ^ (32 : Nat) - 1)))
  | .error _ => return ()

def printLine (line : String) : IO Unit := do
  let out ← IO.getStdout
  out.putStrLn line
  out.flush

partial def printLines (session : Session) : IO UInt32 := do
  let (turn, records) := session.turn (← clockSeconds)
  printRecords session.options.verbose records
  match turn with
  | .failed error =>
    IO.eprintln error.message
    return 1
  | .last line =>
    printLine line
    return 0
  | .next line .nothing _ =>
    printLine line
    IO.eprintln RunError.intervalNotGiven.message
    return 1
  | .next line (.value interval) later =>
    printLine line
    pauseFor interval
    printLines later

def runWith (options : Options) : IO UInt32 := do
  let environment ← readEnvironment
  let bytes ← match Printer.seedPath (configuration options environment) options.file with
    | .ok (some path) => readBytes? path
    | _ => pure none
  let (opening, records) :=
    Session.openAt options environment (fun _ => bytes) (← clockSeconds)
  printRecords options.verbose records
  match opening with
  | .failed error =>
    IO.eprintln error.message
    return 1
  | .nothingToStart =>
    IO.eprint nothingToStartText
    return 2
  | .running session => printLines session

end VirtualPrinter.CommandLine

open VirtualPrinter.CommandLine in
def main (arguments : List String) : IO UInt32 := do
  match Options.ofArguments arguments with
  | .error .help =>
    (helpLines programName).forM IO.println
    return 0
  | .error .misuse =>
    (usageLines programName).forM IO.eprintln
    return 2
  | .ok options => runWith options
