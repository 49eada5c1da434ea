/-!
# Log records

What the simulation reports about its work, each record with a level and a line of text.
-/

namespace VirtualPrinter

inductive LogLevel where
  | debug
  | info
  | warning
  | error
deriving DecidableEq, Repr

def LogLevel.name : LogLevel → String
  | debug => "DEBUG"
  | info => "INFO"
  | warning => "WARNING"
  | error => "ERROR"

inductive LogRecord where
  | commandSkipped (command : String)
  | jobStarted (file : Option String) (segments endpoints : Nat) (duration : String)
  | jobPaused
  | jobResumed
  | jobStopped
  | controllerReset
  | observerFailed (file : Option String)
  | runFinished (file : Option String) (loops : Nat)
  | seedEmpty (path : String)
  | seeded (name : String)
deriving DecidableEq

namespace LogRecord

def level : LogRecord → LogLevel
  | commandSkipped _ => .debug
  | observerFailed _ => .error
  | seedEmpty _ => .warning
  | _ => .info

/-- The text that stands for a file, which may have no name. -/
def fileText (file : Option String) : String := file.getD "None"

def message : LogRecord → String
  | commandSkipped command => s!"Skipping unsupported command {command}"
  | jobStarted file segments endpoints duration =>
    s!"Started {fileText file}: {segments} segments, {endpoints} printed endpoints, est. {duration}"
  | jobPaused => "Job paused"
  | jobResumed => "Job resumed"
  | jobStopped => "Job stopped"
  | controllerReset => "Controller reset"
  | observerFailed file => s!"Wrap observer failed for {fileText file}"
  | runFinished file loops => s!"Job {fileText file} finished run {loops}, restarting"
  | seedEmpty path => s!"[seed] {path} is empty, not starting it"
  | seeded name => s!"[seed] Loaded and started {name}"

end LogRecord

end VirtualPrinter
