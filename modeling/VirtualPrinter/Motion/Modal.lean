import VirtualPrinter.Binary64.Arithmetic

/-!
# Modal state

What a program line means depends on the lines before it: the running position and amount of
extruded filament, and whether coordinates and amounts are absolute or relative. X and Y are unknown
until a move names them; Z starts at zero.
-/

namespace VirtualPrinter

/-! ### Points and segments

A segment is one straight move between two fully known points. Segments that extrude leave printed
material; the others are travel.
-/

/-- A point of the machine's space, in millimetres. -/
structure Point where
  x : Binary64
  y : Binary64
  z : Binary64
deriving DecidableEq, Inhabited

structure Segment where
  start : Point
  stop : Point
  extrudes : Bool
deriving DecidableEq

namespace Segment

def length (s : Segment) : Binary64 :=
  let dx := s.stop.x - s.start.x
  let dy := s.stop.y - s.start.y
  let dz := s.stop.z - s.start.z
  (dx * dx + dy * dy + dz * dz).sqrt

end Segment

/-! ### Positions -/

/-- Whether a word gives a new value or a change of the running one. -/
inductive DistanceMode where
  | absolute
  | relative
deriving DecidableEq, Repr

def DistanceMode.name : DistanceMode → String
  | absolute => "absolute"
  | relative => "relative"

/-- The running position; an axis without a value is unknown. -/
structure Position where
  x : Option Binary64
  y : Option Binary64
  z : Option Binary64
deriving DecidableEq

def Position.point? (p : Position) : Option Point :=
  match p.x, p.y, p.z with
  | some x, some y, some z => some ⟨x, y, z⟩
  | _, _, _ => none

abbrev Words := List (Char × Binary64)

/-- The value of the first word with the given letter. -/
def Words.value? (words : Words) (letter : Char) : Option Binary64 := words.lookup letter

structure ModalState where
  position : Position := ⟨none, none, some 0⟩
  extrusion : Binary64 := 0
  positioning : DistanceMode := .absolute
  extrusionMode : DistanceMode := .absolute
deriving DecidableEq

namespace ModalState

def primed (m : ModalState) : Bool := m.position.x.isSome && m.position.y.isSome

/-! ### Modes -/

/-- The positioning mode set by a command; other commands leave it. -/
def setPositioning (m : ModalState) (command : String) : ModalState :=
  if command = "G90" then { m with positioning := .absolute }
  else if command = "G91" then { m with positioning := .relative }
  else m

/-- The extrusion mode set by a command; other commands leave it. -/
def setExtrusionMode (m : ModalState) (command : String) : ModalState :=
  if command = "M82" then { m with extrusionMode := .absolute }
  else if command = "M83" then { m with extrusionMode := .relative }
  else m

/-- The running amount set by the `E` word, if there is one; the axes stay. -/
def setExtrusion (m : ModalState) (words : Words) : ModalState :=
  match words.value? 'E' with
  | some amount => { m with extrusion := amount }
  | none => m

/-! ### Targets -/

/-- The new coordinate of an axis. A word adds to a known coordinate in relative mode; it replaces
an unknown one in either mode. -/
def resolveAxis (mode : DistanceMode) (old word : Option Binary64) : Option Binary64 :=
  match word, mode, old with
  | none, _, _ => old
  | some value, .relative, some running => some (running + value)
  | some value, _, _ => some value

def resolveTarget (m : ModalState) (words : Words) : Position where
  x := resolveAxis m.positioning m.position.x (words.value? 'X')
  y := resolveAxis m.positioning m.position.y (words.value? 'Y')
  z := resolveAxis m.positioning m.position.z (words.value? 'Z')

def resolveExtrusion (m : ModalState) (words : Words) : Binary64 :=
  match words.value? 'E', m.extrusionMode with
  | none, _ => m.extrusion
  | some amount, .relative => m.extrusion + amount
  | some amount, .absolute => amount

end ModalState

end VirtualPrinter
