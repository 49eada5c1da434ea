import VirtualPrinter.Config.Basic
import VirtualPrinter.Machine.Controller
import VirtualPrinter.Status
import VirtualPrinter.Store.Basic

/-!
# The virtual printer

A printer joins a configuration, a program store and a machine controller. Clients upload and
download programs, start stored ones, pause, resume and stop, and ask for the status in either
dialect. Every request answers with the printer it leaves; a failing request keeps whatever it had
done before.
-/

namespace VirtualPrinter

inductive PrinterError where
  | configuration (error : ConfigError)
  | programNotFound (name : ProgramName)
  | upload (error : UploadError)
  | unsupportedCommand
  | undecodableFile
  | notPath (fault : PathFault)
  | printTimeUnknown
  | machine (fault : MachineFault)

def PrinterError.message : PrinterError → String
  | configuration error => error.message
  | programNotFound name => name.text
  | upload error => error.message
  | unsupportedCommand => "Unsupported gcode"
  | undecodableFile => "file is not UTF-8"
  | notPath fault => fault.message
  | printTimeUnknown => "'>' not supported between instances of 'NoneType' and 'int'"
  | machine fault => fault.message

/-- A printer. The print time is in seconds, and zero leaves durations to the estimate; the feed
rate is in millimetres per minute. Either may have been configured to have no value. -/
structure Printer where
  config : Config
  printSeconds : Option Binary64
  feedRate : Option Binary64
  store : ProgramStore
  machine : Machine

structure Response (α : Type) where
  answer : Except PrinterError α
  printer : Printer
  records : List LogRecord := []

def Response.map {α β : Type} (f : α → β) (r : Response α) : Response β :=
  { answer := r.answer.map f, printer := r.printer, records := r.records }

namespace Printer

/-! ### Opening -/

/-- A printer with the given configuration, booted at a time. -/
def openAt (config : Config) (now : Binary64) : Except ConfigError Printer := do
  let printSeconds ← config.getNumber "print_seconds" (some (.number 0)) { least := some 0 }
  let feedRate ← config.getNumber "feed_rate" (some (.number 600)) { above := some 0 }
  return { config, printSeconds, feedRate, store := .empty, machine := { bootedAt := now } }

def controller (p : Printer) : Controller := { feedRate := p.feedRate, machine := p.machine }

def respond {α : Type} (p : Printer) (o : Outcome α) : Response α :=
  { answer := o.answer.mapError .machine
    printer := { p with machine := o.machine }
    records := o.records }

def refuse {α : Type} (p : Printer) (error : PrinterError) : Response α :=
  { answer := .error error, printer := p }

/-! ### Jobs -/

/-- The duration of jobs in milliseconds, when it is set; the print time has to have a value. -/
def fixedDuration (p : Printer) : Except PrinterError (Option Binary64) :=
  match p.printSeconds with
  | none => .error .printTimeUnknown
  | some seconds => .ok (if Binary64.lt 0 seconds then some (seconds * 1000) else none)

/-- The text of a stored program that can be started: it must not be empty. -/
def startableText? (p : Printer) (name : ProgramName) : Option ProgramText :=
  (p.store.get? name).join.filter (!·.isEmpty)

/-- Starts a stored program; the answer is its name. -/
def start (p : Printer) (file : Option String) (now : Binary64) : Response String :=
  let name := ProgramName.ofText file
  match p.startableText? name, p.fixedDuration with
  | none, _ => p.refuse (.programNotFound name)
  | some _, .error error => p.refuse error
  | some text, .ok duration =>
    (p.respond (p.controller.start (some name.text) text now duration)).map fun _ => name.rooted

def pause (p : Printer) (now : Binary64) : Response Bool := p.respond (p.controller.pause now)

def resume (p : Printer) (now : Binary64) : Response Bool := p.respond (p.controller.resume now)

def stop (p : Printer) (now : Binary64) : Response Bool := p.respond (p.controller.stop now)

/-! ### Status -/

/-- The status in a dialect; the machine is told the time first. -/
def status (p : Printer) (dialect : Dialect) (now : Binary64) : Response Json :=
  (p.respond (p.controller.status now)).map (·.report dialect)

/-! ### Files -/

def put (p : Printer) (name : ProgramName) (body : Option Body) : Printer :=
  { p with store := p.store.put name body }

/-- A form upload; the answer is the name as clients see it. -/
def uploadForm (p : Printer) (file : Option String) (body : Option Body) : Response String :=
  let (name, store) := p.store.uploadForm file body
  { answer := .ok name.rooted, printer := { p with store } }

/-- A raw upload to a path in the program directory; the answer is the stored name. -/
def uploadRaw (p : Printer) (path : Option String) (body : Option Body) : Response String :=
  let name := ProgramName.ofText path
  match p.store.uploadRaw name body with
  | .error error => p.refuse (.upload error)
  | .ok store => { answer := .ok name.text, printer := { p with store } }

/-- What is stored under a name. -/
def download (p : Printer) (path : Option String) : Response (Option ProgramText) :=
  let name := ProgramName.ofText path
  match p.store.get? name with
  | none => p.refuse (.programNotFound name)
  | some text => { answer := .ok text, printer := p }

end Printer

end VirtualPrinter
