import VirtualPrinter.Machine.Basic
import VirtualPrinter.Store.Name
import VirtualPrinter.Text.Json

/-!
# Status reports

The answers to status queries in the two dialects that clients speak: the object model, and the
older single-letter report. Both show the same job block. Heaters, fans and the supply voltage are
fixed placeholders.
-/

namespace VirtualPrinter

inductive Dialect where
  | objectModel
  | legacy
deriving DecidableEq, Repr

/-- The status letter of a run mode in the legacy dialect. -/
def RunMode.letter : RunMode → String
  | idle => "I"
  | printing => "P"
  | paused => "M"
  | stopped => "S"

namespace Snapshot

/-- The file of a job, its name under a single leading slash. -/
def fileReport (s : Snapshot) : Json :=
  match s.fileName with
  | none => .null
  | some name => .object [("fileName", .text ("/" ++ dropSlashes name))]

def jobReport (s : Snapshot) : Json :=
  .object [
    ("file", s.fileReport),
    ("progress", .object [("completion", .number s.completion)]),
    ("filePosition", .integer s.filePosition),
    ("fileSize", .integer s.fileSize)]

def headReport (s : Snapshot) : Json :=
  .array [.number s.head.x, .number s.head.y, .number s.head.z]

def heaterReport : Json := .object [("current", .integer 25), ("target", .integer 0)]

def objectModelReport (s : Snapshot) : Json :=
  .object [
    ("state", .object [("status", .text s.runMode.name), ("heaterFault", .bool false)]),
    ("system", .object [("voltage", .integer 24), ("uptime", .integer s.uptime)]),
    ("coords", .object [("xyz", s.headReport), ("extruders", .array [.integer 0])]),
    ("currentTool", .integer s.tool),
    ("job", s.jobReport),
    ("heat", .object [("bed", heaterReport), ("heaters", .array [heaterReport])]),
    ("fans", .array [])]

def legacyReport (s : Snapshot) : Json :=
  .object [
    ("status", .text s.runMode.letter),
    ("coords", .object [("xyz", s.headReport), ("extr", .array [.integer 0])]),
    ("currentTool", .integer s.tool),
    ("time", .integer s.uptime),
    ("job", s.jobReport)]

def report (s : Snapshot) : Dialect → Json
  | .objectModel => s.objectModelReport
  | .legacy => s.legacyReport

end Snapshot

end VirtualPrinter
