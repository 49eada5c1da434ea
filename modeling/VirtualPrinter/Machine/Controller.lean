import VirtualPrinter.Machine.Tick

/-!
# Commands to the machine

A controller owns a machine and answers commands: starting a job from a program text, pausing,
resuming and stopping it, resetting, and the queries that tell the machine the time. Every command
answers with the machine it leaves, what it published and what it logged; a command that fails keeps
whatever it had done before.
-/

namespace VirtualPrinter

/-- A machine with the settings it is run by; the feed rate, if there is one, is in millimetres per
minute. -/
structure Controller where
  feedRate : Option Binary64 := some 600
  observer : Observer := .absent
  machine : Machine

structure Outcome (α : Type) where
  answer : Except MachineFault α
  machine : Machine
  published : List Snapshot := []
  records : List LogRecord := []

namespace Controller

/-- A fresh controller whose machine is booted at the given time. -/
def boot (now : Binary64) (feedRate : Option Binary64) (observer : Observer) : Controller :=
  { feedRate, observer, machine := { bootedAt := now } }

def unchanged {α : Type} (c : Controller) (answer : α) : Outcome α :=
  { answer := .ok answer, machine := c.machine }

/-- Tells the machine the time and goes on with what the tick left. -/
def afterTick {α : Type} (c : Controller) (now : Binary64) (next : Tick → Outcome α) : Outcome α :=
  match c.machine.tick now c.observer with
  | .error fault => { answer := .error fault, machine := c.machine }
  | .ok tick =>
    let outcome := next tick
    { outcome with
      published := tick.published ++ outcome.published
      records := tick.records ++ outcome.records }

/-! ### Starting a job -/

/-- The estimated duration of a program in milliseconds, which takes a feed rate. -/
def estimate (c : Controller) (program : Program) : Except MachineFault Binary64 :=
  match c.feedRate with
  | some feedRate => .ok (program.duration feedRate)
  | none => .error .feedRateUnknown

/-- The duration of a job in milliseconds: the given one when it is not zero or less, and the
estimate otherwise. -/
def effectiveDuration (c : Controller) (program : Program) (given : Option Binary64) :
    Except MachineFault Binary64 :=
  match given with
  | none => c.estimate program
  | some duration => if duration.le 0 then c.estimate program else .ok duration

/-- The machine with a program newly loaded, on which the job is still the one before. -/
def load (c : Controller) (program : Program) : Machine := { c.machine with program := some program }

/-- The machine with a program newly installed and its job started. -/
def install (c : Controller) (name : Option String) (text : String) (program : Program)
    (now duration : Binary64) : Machine :=
  { c.machine with
    runMode := .printing
    head := parked program.layers.low
    program := some program
    job := {
      fileName := name
      fileSize := text.utf8ByteSize
      startedAt := some now
      duration := some duration } }

/-- The machine with a program's job started, and the record of the start; a duration that cannot be
spelled fails once the job runs. -/
def startJob (c : Controller) (name : Option String) (text : String) (program : Program)
    (now duration : Binary64) : Outcome Program :=
  let machine := c.install name text program now duration
  match spellDuration (duration / 1000) with
  | .error fault => { answer := .error (.notWhole fault), machine }
  | .ok spelled =>
    { answer := .ok program
      machine
      records := [.jobStarted name program.segments.length program.endpoints.length spelled] }

/-- Starts a program of which the duration is known. Its job is measured by the bytes of the text, so
a text that cannot be encoded fails, with the program loaded already. -/
def startProgram (c : Controller) (name : Option String) (text : ProgramText) (program : Program)
    (now duration : Binary64) : Outcome Program :=
  match text.encodable with
  | .error fault => { answer := .error (.notEncodable fault), machine := c.load program }
  | .ok text => c.startJob name text program now duration

/-- Starts printing a program text, in place of any running job. A text that cannot be interpreted,
or that has no duration, changes nothing. -/
def start (c : Controller) (name : Option String) (text : ProgramText) (now : Binary64)
    (given : Option Binary64) : Outcome Program :=
  let path := Toolpath.ofText {} text.legible
  let skipped := path.skipped.toList.map LogRecord.commandSkipped
  match path.program with
  | .error fault =>
    { answer := .error (.notWhole fault), machine := c.machine, records := skipped }
  | .ok program =>
    match c.effectiveDuration program given with
    | .error fault => { answer := .error fault, machine := c.machine, records := skipped }
    | .ok duration =>
      let outcome := c.startProgram name text program now duration
      { outcome with records := skipped ++ outcome.records }

/-! ### Pausing, resuming and stopping -/

/-- Pauses a printing job: elapsed time stops counting. -/
def pause (c : Controller) (now : Binary64) : Outcome Bool :=
  if c.machine.runMode = .printing then
    c.afterTick now fun tick =>
      let m := tick.machine
      { answer := .ok true
        machine := { m with runMode := .paused, job := { m.job with pausedAt := some now } }
        records := [.jobPaused] }
  else c.unchanged false

/-- The start time of a job that goes on after a pause, later by as long as the pause was. -/
def shiftedStart (job : Job) (now : Binary64) : Option Binary64 :=
  match job.startedAt, job.pausedAt with
  | some startedAt, some pausedAt => some (startedAt + (now - pausedAt))
  | startedAt, _ => startedAt

def resume (c : Controller) (now : Binary64) : Outcome Bool :=
  let m := c.machine
  if m.runMode = .paused then
    { answer := .ok true
      machine := { m with
        runMode := .printing
        job := { m.job with startedAt := shiftedStart m.job now, pausedAt := none } }
      records := [.jobResumed] }
  else c.unchanged false

/-- Stops the active job; position and progress are kept for display. -/
def stop (c : Controller) (now : Binary64) : Outcome Bool :=
  if c.machine.runMode = .printing ∨ c.machine.runMode = .paused then
    c.afterTick now fun tick =>
      let m := tick.machine
      { answer := .ok true
        machine := { m with
          runMode := .stopped
          job := { m.job with startedAt := none, pausedAt := none } }
        records := [.jobStopped] }
  else c.unchanged false

/-- Drops the job; the loaded program stays. -/
def reset (c : Controller) : Outcome Unit :=
  { answer := .ok ()
    machine := { c.machine with runMode := .idle, job := {} }
    records := [.controllerReset] }

/-! ### Queries -/

/-- Tells the machine the time; the answer is whether its job wrapped. -/
def tick (c : Controller) (now : Binary64) : Outcome Bool :=
  c.afterTick now fun tick => { answer := .ok tick.wrapped, machine := tick.machine }

def snapshot (c : Controller) (now : Binary64) : Outcome Snapshot :=
  { answer := (c.machine.snapshot now).mapError .notWhole, machine := c.machine }

def status (c : Controller) (now : Binary64) : Outcome Snapshot :=
  c.afterTick now fun tick =>
    { answer := (tick.machine.snapshot now).mapError .notWhole, machine := tick.machine }

/-! ### Commands as data -/

inductive Operation where
  | start (name : Option String) (text : ProgramText) (now : Binary64)
    (duration : Option Binary64)
  | pause (now : Binary64)
  | resume (now : Binary64)
  | stop (now : Binary64)
  | reset
  | tick (now : Binary64)
  | status (now : Binary64)
  | snapshot (now : Binary64)

inductive Answer where
  | program (program : Program)
  | flag (value : Bool)
  | view (snapshot : Snapshot)
  | done
deriving DecidableEq

end Controller

def Outcome.map {α β : Type} (f : α → β) (o : Outcome α) : Outcome β :=
  { answer := o.answer.map f, machine := o.machine, published := o.published, records := o.records }

namespace Controller

def perform (c : Controller) : Operation → Outcome Answer
  | .start name text now duration => (c.start name text now duration).map .program
  | .pause now => (c.pause now).map .flag
  | .resume now => (c.resume now).map .flag
  | .stop now => (c.stop now).map .flag
  | .reset => c.reset.map fun _ => .done
  | .tick now => (c.tick now).map .flag
  | .status now => (c.status now).map .view
  | .snapshot now => (c.snapshot now).map .view

def next (c : Controller) (o : Operation) : Controller :=
  { c with machine := (c.perform o).machine }

end Controller

end VirtualPrinter
