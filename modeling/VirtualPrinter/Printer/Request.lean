import VirtualPrinter.Printer.Gcode
import VirtualPrinter.Printer.Seed

/-!
# Requests as data

Everything that can be asked of a printer, as data, and the printer that requests leave. A request
that starts a job names a stored program, gives a line of G-code or a file on disk.
-/

namespace VirtualPrinter

inductive Request where
  | start (file : Option String) (now : Binary64)
  | pause (now : Binary64)
  | resume (now : Binary64)
  | stop (now : Binary64)
  | execute (gcode : Option String) (now : Binary64)
  | status (dialect : Dialect) (now : Binary64)
  | uploadForm (file : Option String) (body : Option Body)
  | uploadRaw (path : Option String) (body : Option Body)
  | download (path : Option String)
  | seed (read : FileReader) (path : Option String) (now : Binary64)

namespace Printer

/-- The printer that a request leaves, whatever the answer is. -/
def serve (p : Printer) : Request → Printer
  | .start file now => (p.start file now).printer
  | .pause now => (p.pause now).printer
  | .resume now => (p.resume now).printer
  | .stop now => (p.stop now).printer
  | .execute gcode now => (p.execute gcode now).printer
  | .status dialect now => (p.status dialect now).printer
  | .uploadForm file body => (p.uploadForm file body).printer
  | .uploadRaw path body => (p.uploadRaw path body).printer
  | .download path => (p.download path).printer
  | .seed read path now => (p.seed read path now).printer

/-- The printer that requests leave, served in order. -/
def serveAll (p : Printer) (requests : List Request) : Printer := requests.foldl serve p

end Printer

end VirtualPrinter
