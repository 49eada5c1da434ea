import VirtualPrinter.Printer.Basic

/-!
# Starting from a file on disk

A program file named on request or by the configuration is stored in the program directory under its
base name and started at once.
-/

namespace VirtualPrinter

/-- What can be read from disk: the bytes of the file at a path, if there is one. -/
abbrev FileReader := String → Option (List UInt8)

namespace Printer

/-- The path to seed from, if there is one: the one given, or else that of the configuration. -/
def seedPath (config : Config) (path : Option String) : Except PathFault (Option String) :=
  match path.filter (!·.isEmpty), config.find? "start_file" with
  | some given, _ => .ok (some given)
  | none, some configured => configured.toPath
  | none, none => .ok none

/-- Stores and starts a program text under the base name of its path; the answer is its name. -/
def seedText (p : Printer) (path text : String) (now : Binary64) : Response (Option String) :=
  let name := ProgramStore.inDirectory (baseName path)
  let started := (p.put name (some (.text text))).start (some name.text) now
  match started.answer with
  | .error error => { started with answer := .error error }
  | .ok _ =>
    { started with
      answer := .ok (some name.text)
      records := started.records ++ [.seeded name.text] }

/-- Stores and starts the program in the bytes of a file, which have to be UTF-8; there is no name
when there are none. -/
def seedBytes (p : Printer) (path : String) (bytes : List UInt8) (now : Binary64) :
    Response (Option String) :=
  match Text.utf8Strict? bytes with
  | none => p.refuse .undecodableFile
  | some text =>
    if text.isEmpty then { answer := .ok none, printer := p, records := [.seedEmpty path] }
    else p.seedText path text now

/-- Seeds the printer from a file; there is no name when there is no file or nothing in it. -/
def seed (p : Printer) (read : FileReader) (path : Option String) (now : Binary64) :
    Response (Option String) :=
  match seedPath p.config path with
  | .error fault => p.refuse (.notPath fault)
  | .ok none => { answer := .ok none, printer := p }
  | .ok (some path) =>
    match read path with
    | none => { answer := .ok none, printer := p }
    | some bytes => p.seedBytes path bytes now

end Printer

end VirtualPrinter
