import VirtualPrinter.Program.Duration

/-!
# The simulated machine

The state of the machine, of the job it runs, and the view of both that status queries report. Times
are in milliseconds on one clock.
-/

namespace VirtualPrinter

inductive RunMode where
  | idle
  | printing
  | paused
  | stopped
deriving DecidableEq, Repr

def RunMode.name : RunMode → String
  | idle => "idle"
  | printing => "printing"
  | paused => "paused"
  | stopped => "stopped"

/-- The progress of a job. It has a start time while it runs or is paused, its duration need not be
known, and `loops` counts its completed runs. -/
structure Job where
  fileName : Option String := none
  fileSize : Nat := 0
  startedAt : Option Binary64 := none
  duration : Option Binary64 := some 0
  completion : Binary64 := 0
  filePosition : Int := 0
  loops : Nat := 0
  pausedAt : Option Binary64 := none
deriving DecidableEq

structure Machine where
  runMode : RunMode := .idle
  head : Point := ⟨0, 0, 0⟩
  tool : Int := 0
  job : Job := {}
  program : Option Program := none
  bootedAt : Binary64
deriving DecidableEq

/-- What a status query reports; the uptime is in whole seconds. -/
structure Snapshot where
  runMode : RunMode
  head : Point
  tool : Int
  fileName : Option String
  fileSize : Int
  filePosition : Int
  completion : Binary64
  uptime : Int
deriving DecidableEq

namespace Machine

/-- The whole seconds since the machine was booted; a time before that counts as the same moment. -/
def uptime (m : Machine) (now : Binary64) : Except Binary64.IntegerFault Int :=
  (Binary64.larger 0 (now - m.bootedAt)).wholeQuotient 1000

/-- The view of the machine at a time; there is none when the uptime is not finite. -/
def snapshot (m : Machine) (now : Binary64) : Except Binary64.IntegerFault Snapshot :=
  (m.uptime now).map fun uptime =>
    { runMode := m.runMode
      head := m.head
      tool := m.tool
      fileName := m.job.fileName
      fileSize := m.job.fileSize
      filePosition := m.job.filePosition
      completion := m.job.completion
      uptime }

end Machine

end VirtualPrinter
