import VirtualPrinter.Motion.Toolpath

/-!
# Programs and their geometry

A program is its segments in order. From them follow the box around all motion, the layer range of
the printed material and the endpoint path that progress is shown on.
-/

namespace VirtualPrinter

structure Box where
  low : Point
  high : Point
deriving DecidableEq

def Box.empty : Box := ⟨⟨0, 0, 0⟩, ⟨10, 10, 0⟩⟩

namespace Binary64

/-- The least of a value and the values after it; among equals the first stays. -/
def least (first : Binary64) (others : List Binary64) : Binary64 := others.foldl smaller first

/-- The greatest of a value and the values after it; among equals the first stays. -/
def greatest (first : Binary64) (others : List Binary64) : Binary64 := others.foldl larger first

end Binary64

def Box.around (first : Point) (others : List Point) : Box where
  low := {
    x := .least first.x (others.map (·.x))
    y := .least first.y (others.map (·.y))
    z := .least first.z (others.map (·.z)) }
  high := {
    x := .greatest first.x (others.map (·.x))
    y := .greatest first.y (others.map (·.y))
    z := .greatest first.z (others.map (·.z)) }

structure LayerRange where
  low : Binary64
  high : Binary64
deriving DecidableEq

structure Program where
  segments : List Segment
deriving DecidableEq

namespace Program

def points (segments : List Segment) : List Point :=
  segments.flatMap fun s => [s.start, s.stop]

def printed (p : Program) : List Segment := p.segments.filter (·.extrudes)

/-- The box around all segments, travel included. -/
def box (p : Program) : Box :=
  match points p.segments with
  | [] => Box.empty
  | first :: others => Box.around first others

/-- The heights of printed material, or those of the box when nothing is printed. -/
def layers (p : Program) : LayerRange :=
  match points p.printed with
  | [] => ⟨p.box.low.z, p.box.high.z⟩
  | first :: others =>
    ⟨.least first.z (others.map (·.z)), .greatest first.z (others.map (·.z))⟩

def endpoints (p : Program) : List Point := p.printed.map (·.stop)

end Program

/-- The program of a toolpath that came to its end. -/
def Toolpath.program (path : Toolpath) : Except Binary64.IntegerFault Program :=
  match path.fault with
  | some fault => .error fault
  | none => .ok ⟨path.segments.toList⟩

def Program.ofText (text : String) : Except Binary64.IntegerFault Program :=
  (Toolpath.ofText {} text).program

end VirtualPrinter
