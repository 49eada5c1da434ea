import Mathlib.Data.List.Forall2
import VirtualPrinter.Program.Basic

/-!
# Lines one after the other

The toolpath of lines that have been read. A line leaves a modal state and at most one segment; the
toolpath of a list is that of its first line, followed by that of the others from the state it
leaves. The text of a program has the toolpath of its lines unless one of them is a fault.
-/

namespace VirtualPrinter

namespace GCode.Line

/-- The command of a line; a blank line has none. -/
def command? (line : Option Line) : Option String := line.bind (·.command)

/-- The value that a line gives to a letter; a blank line gives none. -/
def value? (line : Option Line) (letter : Char) : Option Binary64 :=
  line.bind fun line => Words.value? line.words letter

end GCode.Line

namespace ModalState

variable (m : ModalState)

theorem interpret_of_command_none {line : Option GCode.Line} (h : GCode.Line.command? line = none) :
    m.interpret line = { modal := m } := by
  cases line with
  | none => rfl
  | some line =>
    obtain ⟨command, words⟩ := line
    have hcommand : command = none := h
    subst hcommand
    rfl

/- Words are only looked at through the values they give to letters. -/
theorem interpret_of_command_some {line : Option GCode.Line} {command : String}
    (h : GCode.Line.command? line = some command) :
    ∃ words : Words, (∀ letter, words.value? letter = GCode.Line.value? line letter) ∧
      m.interpret line = m.execute command words := by
  cases line with
  | none => exact absurd h nofun
  | some line =>
    obtain ⟨command', words⟩ := line
    have hcommand : command' = some command := h
    subst hcommand
    exact ⟨words, fun _ => rfl, rfl⟩

/-! ### A move -/

/-- The ends of the segment that a move between two positions emits. -/
def ends? (words : Words) (start stop : Position) : Option (Point × Point) :=
  start.point?.bind fun p => stop.point?.bind fun q => if moved words p q then some (p, q) else none

theorem modal_linearMove (words : Words) :
    (m.linearMove words).modal =
      { m with
        position := m.resolveTarget words
        extrusion := m.resolveExtrusion words } := by
  simp only [linearMove]
  split <;> rfl

theorem segment_linearMove (words : Words) :
    (m.linearMove words).segment =
      (ends? words m.position (m.resolveTarget words)).map fun ends =>
        ⟨ends.1, ends.2, m.extrudes words⟩ := by
  simp only [linearMove, ends?]
  cases m.position.point? with
  | none => rfl
  | some p =>
    cases (m.resolveTarget words).point? with
    | none => rfl
    | some q =>
      simp only [Option.bind_some]
      split <;> rfl

end ModalState

namespace Toolpath

def follow (path : Toolpath) (line : Option GCode.Line) : Toolpath :=
  path.extend (path.modal.interpret line)

/-- The toolpath of lines that have been read. -/
def ofParsed (m : ModalState) (lines : List (Option GCode.Line)) : Toolpath :=
  lines.foldl follow { modal := m }

/-! ### Reading first -/

theorem step_eq_follow {path : Toolpath} {text : List Char} {line : Option GCode.Line}
    (hline : GCode.Line.parse text = .ok line) (hfault : path.fault = none) :
    path.step text = path.follow line := by
  simp only [step, hfault, Option.isSome_none, Bool.false_eq_true, if_false, hline, follow]

/- Reading all lines of a text first and interpreting them afterwards makes the same toolpath. -/
theorem ofLines_eq_ofParsed {texts : List (List Char)} {lines : List (Option GCode.Line)}
    (h : List.Forall₂ (fun text line => GCode.Line.parse text = .ok line) texts lines)
    (m : ModalState) : ofLines m texts = ofParsed m lines := by
  suffices hfold : ∀ path : Toolpath, path.fault = none →
      texts.foldl step path = lines.foldl follow path from hfold { modal := m } rfl
  induction h with
  | nil => exact fun _ _ => rfl
  | cons hline hlines ih =>
    intro path hfault
    rw [List.foldl_cons, List.foldl_cons, step_eq_follow hline hfault]
    exact ih _ hfault

/-! ### Line by line -/

/- Interpreting goes on from the state that a toolpath left, and appends to its segments. -/
theorem foldl_follow (path : Toolpath) (lines : List (Option GCode.Line)) :
    (lines.foldl follow path).modal = (ofParsed path.modal lines).modal ∧
      (lines.foldl follow path).segments.toList =
        path.segments.toList ++ (ofParsed path.modal lines).segments.toList := by
  induction lines generalizing path with
  | nil => exact ⟨rfl, (List.append_nil _).symm⟩
  | cons line lines ih =>
    obtain ⟨hmodal, hsegments⟩ := ih (path.follow line)
    obtain ⟨hmodal', hsegments'⟩ := ih (follow { modal := path.modal } line)
    rw [ofParsed, List.foldl_cons, List.foldl_cons]
    constructor
    · rw [hmodal, hmodal']
      rfl
    · rw [hsegments, hsegments']
      simp [follow, extend]

variable (m : ModalState) (line : Option GCode.Line) (lines : List (Option GCode.Line))

theorem modal_ofParsed_cons :
    (ofParsed m (line :: lines)).modal = (ofParsed (m.interpret line).modal lines).modal :=
  (foldl_follow (follow { modal := m } line) lines).1

theorem segments_ofParsed_cons :
    (ofParsed m (line :: lines)).segments.toList =
      (m.interpret line).segment.toList ++
        (ofParsed (m.interpret line).modal lines).segments.toList := by
  rw [ofParsed, List.foldl_cons, (foldl_follow (follow { modal := m } line) lines).2]
  simp [follow, extend]

end Toolpath

end VirtualPrinter
