import VirtualPrinter.LogRecord
import VirtualPrinter.Machine.Basic
import VirtualPrinter.Program.Text

/-!
# The passage of time

Time passes for the machine only when it is told the time. While a job prints, elapsed time is
mapped onto the endpoint path of the program; when the duration is used up, the finished state is
handed to an observer and the same job starts again at once.
-/

namespace VirtualPrinter

/-- Why the machine cannot go on: a count is not finite, a text cannot be encoded, an index lies off
the path, the duration of its job is not known, or there is no feed rate to estimate one by. -/
inductive MachineFault where
  | notWhole (fault : Binary64.IntegerFault)
  | notEncodable (fault : EncodingFault)
  | offPath
  | durationUnknown
  | feedRateUnknown
deriving DecidableEq

def MachineFault.message : MachineFault → String
  | notWhole fault => fault.message
  | notEncodable fault => fault.message
  | offPath => "list index out of range"
  | durationUnknown => "'>' not supported between instances of 'NoneType' and 'int'"
  | feedRateUnknown => "unsupported operand type(s) for /: 'NoneType' and 'float'"

/-! ### Progress -/

/-- Where a job stands: the head, the completed fraction and the position in the file. -/
structure Progress where
  head : Point
  completion : Binary64
  filePosition : Int
deriving DecidableEq

/-- The whole part of a value that is not negative, as a count. -/
def wholeStep (x : Binary64) : Except MachineFault Int := x.floor.mapError .notWhole

def parked (z : Binary64) : Point := ⟨0, 0, z⟩

namespace Program

/-- The index on the path, whose last index is `last`, after a fraction of the run. -/
def pathIndex (last : Nat) (fraction : Binary64) : Except MachineFault Int :=
  wholeStep (fraction * .ofNat last)

def endpointAt (p : Program) (index : Int) : Except MachineFault Point :=
  match index with
  | .ofNat i => p.endpoints[i]?.elim (.error .offPath) .ok
  | .negSucc _ => .error .offPath

/-- Progress after a fraction of the run: along the path when it has two points or more, and by time
alone, the head held at the lowest layer, when it has not. -/
def progress (p : Program) (fileSize : Nat) (fraction : Binary64) :
    Except MachineFault Progress :=
  if 1 < p.endpoints.length then do
    let last := p.endpoints.length - 1
    let index ← pathIndex last fraction
    let head ← p.endpointAt index
    let completion := Binary64.ofRatio false index.toNat last
    let filePosition ← wholeStep (completion * .ofNat fileSize)
    return { head, completion, filePosition }
  else do
    let filePosition ← wholeStep (fraction * .ofNat fileSize)
    return { head := parked p.layers.low, completion := fraction, filePosition }

/-- Where a run leaves the head: at the last endpoint, or at the highest layer of a program that
prints nothing. -/
def finishedHead (p : Program) : Point := p.endpoints.getLast?.getD (parked p.layers.high)

end Program

/-! ### The observer -/

/-- Who is shown the finished state of every run: nobody, or an observer that takes it, or one that
takes it and then fails. -/
inductive Observer where
  | absent
  | accepting
  | failing
deriving DecidableEq, Repr

/-- What the observer makes of a machine: the snapshots taken, and the records. A
failure, also one to form the snapshot, goes no further than a record. -/
def Observer.receive (observer : Observer) (m : Machine) (now : Binary64) :
    List Snapshot × List LogRecord :=
  match observer, m.snapshot now with
  | .absent, _ => ([], [])
  | _, .error _ => ([], [.observerFailed m.job.fileName])
  | .accepting, .ok s => ([s], [])
  | .failing, .ok s => ([s], [.observerFailed m.job.fileName])

/-! ### Ticks -/

structure Tick where
  machine : Machine
  wrapped : Bool := false
  published : List Snapshot := []
  records : List LogRecord := []

namespace Machine

/-- The fraction of the duration that has elapsed, within zero and one; without a positive duration
everything has. -/
def elapsedFraction (elapsed duration : Binary64) : Binary64 :=
  if Binary64.lt 0 duration then (elapsed / duration).clampToUnit else 1

def showing (m : Machine) (p : Progress) : Machine :=
  { m with
    head := p.head
    job := { m.job with completion := p.completion, filePosition := p.filePosition } }

def finished (m : Machine) (program : Program) : Machine :=
  m.showing ⟨program.finishedHead, 1, m.job.fileSize⟩

/-- The machine at the start of the next run of its job; the head stays where it is. -/
def restarted (m : Machine) (now : Binary64) : Machine :=
  { m with
    job := { m.job with
      loops := m.job.loops + 1, startedAt := some now, completion := 0, filePosition := 0 } }

def wrap (m : Machine) (program : Program) (now : Binary64) (observer : Observer) : Tick :=
  let done := m.finished program
  let (published, records) := observer.receive done now
  let next := done.restarted now
  { machine := next
    wrapped := true
    published
    records := records ++ [.runFinished next.job.fileName next.job.loops] }

/-- A running job of the given duration at a time after its start. -/
def tickPrinting (m : Machine) (program : Program) (duration startedAt now : Binary64)
    (observer : Observer) : Except MachineFault Tick := do
  let elapsed := now - startedAt
  let fraction := elapsedFraction elapsed duration
  let progress ← program.progress m.job.fileSize fraction
  if elapsed.lt duration then return { machine := m.showing progress }
  else return (m.showing progress).wrap program now observer

/-- The height at which an idle machine holds its head. -/
def idleHeight (m : Machine) : Binary64 :=
  match m.program with
  | some program => program.layers.low
  | none => 0

/-- Tells the machine the time. Idle, it holds its height; printing, its job goes on; paused or
stopped, or without a job to print, nothing changes. -/
def tick (m : Machine) (now : Binary64) (observer : Observer) : Except MachineFault Tick :=
  match m.runMode, m.job.startedAt, m.program with
  | .idle, _, _ => .ok { machine := { m with head := { m.head with z := m.idleHeight } } }
  | .printing, some startedAt, some program =>
    match m.job.duration with
    | some duration => m.tickPrinting program duration startedAt now observer
    | none => .error .durationUnknown
  | _, _, _ => .ok { machine := m }

end Machine

end VirtualPrinter
