import VirtualPrinter.GCode.Line
import VirtualPrinter.Motion.Modal

/-!
# The toolpath of a program

Lines are interpreted in order, each in the modal state that the ones before it left. A linear move
from a known point emits a segment when it changes a coordinate; mode commands change the state
only, and every other command is skipped.
-/

namespace VirtualPrinter

/-! ### One line -/

/-- What a line does: the state it leaves, the segment it emits and the command it skips. -/
structure LineEffect where
  modal : ModalState
  segment : Option Segment := none
  skipped : Option String := none

namespace ModalState

/-- Whether a word moved its axis: a coordinate that no word names has not moved, a named one has
unless the numbers are equal. -/
def axisMoved (word : Option Binary64) (old new : Binary64) : Bool :=
  word.isSome && !old.sameNumber new

def moved (words : Words) (start stop : Point) : Bool :=
  axisMoved (words.value? 'X') start.x stop.x ||
    axisMoved (words.value? 'Y') start.y stop.y ||
    axisMoved (words.value? 'Z') start.z stop.z

/-- Whether the words of a move extrude: they name an amount that is more than the running one. -/
def extrudes (m : ModalState) (words : Words) : Bool :=
  (words.value? 'E').isSome && Binary64.lt 0 (m.resolveExtrusion words - m.extrusion)

/-- A linear move. It always takes over position and amount, and emits a segment when it starts from
a known point and changes it. -/
def linearMove (m : ModalState) (words : Words) : LineEffect :=
  let target := m.resolveTarget words
  let next := { m with position := target, extrusion := m.resolveExtrusion words }
  match m.position.point?, target.point? with
  | some start, some stop =>
    { modal := next
      segment := if moved words start stop then some ⟨start, stop, m.extrudes words⟩ else none }
  | _, _ => { modal := next }

def execute (m : ModalState) (command : String) (words : Words) : LineEffect :=
  if command = "G90" ∨ command = "G91" then { modal := m.setPositioning command }
  else if command = "M82" ∨ command = "M83" then { modal := m.setExtrusionMode command }
  else if command = "G92" then { modal := m.setExtrusion words }
  else if command = "G1" then m.linearMove words
  else { modal := m, skipped := some command }

/-- The effect of a line; without a command it has none. -/
def interpret (m : ModalState) (line : Option GCode.Line) : LineEffect :=
  match line with
  | none => { modal := m }
  | some line =>
    match line.command with
    | none => { modal := m }
    | some command => m.execute command line.words

end ModalState

/-! ### Whole programs -/

/-- The lines of a text. Only line feeds divide lines; a carriage return before one is a blank at
the end of its line. -/
def splitLines (text : List Char) : List (List Char) :=
  text.foldr (fun c lines =>
    if c = '\n' then [] :: lines
    else match lines with
      | [] => [[c]]
      | line :: later => (c :: line) :: later) [[]]

/-- What interpreting lines has done so far: the state it left, the segments emitted and the
commands skipped, in order, and the fault that ended it. -/
structure Toolpath where
  modal : ModalState
  segments : Array Segment := #[]
  skipped : Array String := #[]
  fault : Option Binary64.IntegerFault := none

namespace Toolpath

def extend (path : Toolpath) (effect : LineEffect) : Toolpath :=
  { path with
    modal := effect.modal
    segments := path.segments ++ effect.segment.toArray
    skipped := path.skipped ++ effect.skipped.toArray }

/-- Interprets the next line, unless a fault has ended the program. -/
def step (path : Toolpath) (line : List Char) : Toolpath :=
  if path.fault.isSome then path
  else match GCode.Line.parse line with
    | .error fault => { path with fault := some fault }
    | .ok parsed => path.extend (path.modal.interpret parsed)

def ofLines (m : ModalState) (lines : List (List Char)) : Toolpath :=
  lines.foldl step { modal := m }

def ofText (m : ModalState) (text : String) : Toolpath := ofLines m (splitLines text.toList)

end Toolpath

end VirtualPrinter
