import VirtualPrinter.Printer.Basic

/-!
# Commands sent by clients

Clients may send a single line of G-code: `M32` with a quoted file starts it, and `M25`, `M24` and
`M0` pause, resume and stop the job. Nothing else is supported.
-/

namespace VirtualPrinter

/-- The file of a start command that begins a text: `M32` in either case, blanks, and a name that is
not empty between double quotes. -/
def startCommandAt? (text : List Char) : Option (List Char) :=
  match text with
  | m :: '3' :: '2' :: rest =>
    if m = 'M' ∨ m = 'm' then
      match rest.takeWhile Text.isBlank, rest.dropWhile Text.isBlank with
      | _ :: _, '"' :: quoted =>
        let name := quoted.takeWhile (· ≠ '"')
        if name ≠ [] ∧ (quoted.dropWhile (· ≠ '"')) ≠ [] then some name else none
      | _, _ => none
    else none
  | _ => none

/-- The file of the first start command anywhere in a text. -/
def startCommand? : List Char → Option (List Char)
  | [] => none
  | c :: rest => (startCommandAt? (c :: rest)).or (startCommand? rest)

namespace Printer

def execute (p : Printer) (gcode : Option String) (now : Binary64) : Response Unit :=
  let text := Text.trim (gcode.getD "").toList
  match startCommand? text with
  | some file => (p.start (some (String.ofList file)) now).map fun _ => ()
  | none =>
    match GCode.Line.parse text with
    | .error fault => p.refuse (.machine (.notWhole fault))
    | .ok line =>
      match line.bind (·.command) with
      | some "M25" => (p.pause now).map fun _ => ()
      | some "M24" => (p.resume now).map fun _ => ()
      | some "M0" => (p.stop now).map fun _ => ()
      | _ => p.refuse .unsupportedCommand

end Printer

end VirtualPrinter
