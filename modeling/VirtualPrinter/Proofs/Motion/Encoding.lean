import VirtualPrinter.Proofs.Binary64.Whole
import VirtualPrinter.Proofs.Motion.Lines

/-!
# Toolpaths and their encodings

A toolpath is a list of moves between whole coordinates. It can be written down in many ways: before
every move the modes may change and the amount may be set anew, and each word gives its target or
the way there, as the modes in force have it. However it is written, the lines emit the segments
that the moves draw.
-/

namespace VirtualPrinter

open Binary64 GCode

attribute [local irreducible] Binary64.ofNat Binary64.ofRatio

/-! ### What moves draw -/

/-- A move: the targets of the axes it names, and what it extrudes if it extrudes anything. -/
structure Move where
  x : Option Int := none
  y : Option Int := none
  z : Option Int := none
  extrusion : Option Int := none
deriving DecidableEq

/-- Where moves have led; an axis without a value has not been named. -/
@[ext] structure Place where
  x : Option Int := none
  y : Option Int := none
  z : Int := 0
deriving DecidableEq

def Move.extrudes (move : Move) : Bool := move.extrusion.any (0 < ·)

namespace Place

def after (p : Place) (move : Move) : Place := ⟨move.x.or p.x, move.y.or p.y, move.z.getD p.z⟩

def point? (p : Place) : Option Point :=
  match p.x, p.y with
  | some x, some y => some ⟨ofInt x, ofInt y, ofInt p.z⟩
  | _, _ => none

/-- The segment of a move: from a known point, unless the move stays there. -/
def stroke? (p : Place) (move : Move) : Option Segment :=
  match p.point?, (p.after move).point? with
  | some start, some stop =>
    if p.after move = p then none else some ⟨start, stop, move.extrudes⟩
  | _, _ => none

def drawn (p : Place) : List Move → List Segment
  | [] => []
  | move :: moves => (p.stroke? move).toList ++ (p.after move).drawn moves

end Place

/-! ### How moves are written -/

inductive Setting where
  | positioning (mode : DistanceMode)
  | extrusionMode (mode : DistanceMode)
  | amount (n : Int)

def Setting.command : Setting → String
  | positioning .absolute => "G90"
  | positioning .relative => "G91"
  | extrusionMode .absolute => "M82"
  | extrusionMode .relative => "M83"
  | amount _ => "G92"

structure Setting.WrittenAs (setting : Setting) (line : Option Line) : Prop where
  command : Line.command? line = some setting.command
  amount : ∀ n, setting = amount n → Line.value? line 'E' = some (ofInt n)

/-- The value of a word for a target: the target itself, or in relative mode the way there from the
running value if there is one. -/
def wordValue (mode : DistanceMode) (running : Option Int) (target : Int) : Int :=
  match mode, running with
  | .relative, some n => target - n
  | _, _ => target

/-- The running values and the modes that lines written so far have led to. -/
structure Writer where
  place : Place := {}
  amount : Int := 0
  positioning : DistanceMode := .absolute
  extrusionMode : DistanceMode := .absolute

namespace Writer

def set (w : Writer) : Setting → Writer
  | .positioning mode => { w with positioning := mode }
  | .extrusionMode mode => { w with extrusionMode := mode }
  | .amount n => { w with amount := n }

def after (w : Writer) (move : Move) : Writer :=
  { w with place := w.place.after move, amount := w.amount + move.extrusion.getD 0 }

/-- A line that a move is written as in the modes in force. -/
structure Writes (w : Writer) (move : Move) (line : Option Line) : Prop where
  command : Line.command? line = some "G1"
  x : Line.value? line 'X' = move.x.map fun n => ofInt (wordValue w.positioning w.place.x n)
  y : Line.value? line 'Y' = move.y.map fun n => ofInt (wordValue w.positioning w.place.y n)
  z : Line.value? line 'Z' = move.z.map fun n => ofInt (wordValue w.positioning w.place.z n)
  extrusion : Line.value? line 'E' = move.extrusion.map fun n =>
    ofInt (wordValue w.extrusionMode w.amount (w.amount + n))

structure InRange (w : Writer) : Prop where
  x : ∀ n ∈ w.place.x, n.natAbs < 2 ^ 51
  y : ∀ n ∈ w.place.y, n.natAbs < 2 ^ 51
  z : w.place.z.natAbs < 2 ^ 51
  amount : w.amount.natAbs < 2 ^ 51

instance (w : Writer) : Decidable w.InRange :=
  decidable_of_iff ((∀ n ∈ w.place.x, n.natAbs < 2 ^ 51) ∧ (∀ n ∈ w.place.y, n.natAbs < 2 ^ 51) ∧
      w.place.z.natAbs < 2 ^ 51 ∧ w.amount.natAbs < 2 ^ 51)
    ⟨fun ⟨hx, hy, hz, hamount⟩ => ⟨hx, hy, hz, hamount⟩, fun h => ⟨h.x, h.y, h.z, h.amount⟩⟩

/-- Lines that write moves, with any settings between them, and keep the running values in range. -/
inductive Encodes : Writer → List Move → List (Option Line) → Prop
  | done {w : Writer} : Encodes w [] []
  | setting {w : Writer} {moves : List Move} {line : Option Line} {lines : List (Option Line)}
      (setting : Setting) (hline : setting.WrittenAs line) (hrange : (w.set setting).InRange)
      (hrest : Encodes (w.set setting) moves lines) : Encodes w moves (line :: lines)
  | move {w : Writer} {move : Move} {moves : List Move} {line : Option Line}
      {lines : List (Option Line)} (hline : w.Writes move line) (hrange : (w.after move).InRange)
      (hrest : Encodes (w.after move) moves lines) : Encodes w (move :: moves) (line :: lines)

end Writer

/-! ### Words -/

namespace ModalState

variable {mode : DistanceMode} {running target : Option Int}

/- A word leads to its target in either mode, since differences of values in range are exact. -/
theorem resolveAxis_wordValue (hrunning : ∀ n ∈ running, n.natAbs < 2 ^ 51)
    (htarget : ∀ n ∈ target.or running, n.natAbs < 2 ^ 51) :
    resolveAxis mode (running.map ofInt) (target.map fun n => ofInt (wordValue mode running n)) =
      (target.or running).map ofInt := by
  cases target with
  | none => rfl
  | some n =>
    cases mode with
    | absolute => rfl
    | relative =>
      cases running with
      | none => rfl
      | some k =>
        have hk : k.natAbs < 2 ^ 51 := hrunning k rfl
        have hn : n.natAbs < 2 ^ 51 := htarget n rfl
        have hsum : ofInt k + ofInt (n - k) = ofInt (k + (n - k)) :=
          ofInt_add (by omega) (by omega) (by omega)
        have hback : k + (n - k) = n := by omega
        rw [hback] at hsum
        exact congrArg some hsum

theorem resolveAxis_wordValue_known {known : Int} (hknown : known.natAbs < 2 ^ 51)
    (htarget : (target.getD known).natAbs < 2 ^ 51) :
    resolveAxis mode (some (ofInt known)) (target.map fun n => ofInt (wordValue mode known n)) =
      some (ofInt (target.getD known)) := by
  have hrunning : ∀ n ∈ some known, n.natAbs < 2 ^ 51 := by
    rintro n ⟨rfl⟩
    exact hknown
  have hor : ∀ n ∈ target.or (some known), n.natAbs < 2 ^ 51 := by
    rw [Option.or_some]
    rintro n ⟨rfl⟩
    exact htarget
  have h : resolveAxis mode ((some known).map ofInt) _ = _ := resolveAxis_wordValue hrunning hor
  rwa [Option.or_some] at h

/- An amount resolves like a coordinate that is known. -/
theorem some_resolveExtrusion (m : ModalState) (words : Words) :
    some (m.resolveExtrusion words) =
      resolveAxis m.extrusionMode (some m.extrusion) (words.value? 'E') := by
  unfold resolveExtrusion resolveAxis
  cases words.value? 'E' with
  | none => rfl
  | some amount => cases m.extrusionMode <;> rfl

theorem axisMoved_ofInt {word : Option Binary64} {old : Int} (hword : word.isSome = target.isSome)
    (hold : old.natAbs < 2 ^ 51) (hnew : (target.getD old).natAbs < 2 ^ 51) :
    axisMoved word (ofInt old) (ofInt (target.getD old)) = !decide (target.getD old = old) := by
  unfold axisMoved
  have hsame := (isWhole_ofInt (n := old) (by omega)).sameNumber_eq
    (isWhole_ofInt (n := target.getD old) (by omega))
  rw [hword, hsame]
  cases target with
  | none => simp
  | some n => simp [eq_comm]

end ModalState

/-! ### Lines -/

namespace Place

def position (p : Place) : Position := ⟨p.x.map ofInt, p.y.map ofInt, some (ofInt p.z)⟩

theorem point?_position (p : Place) : p.position.point? = p.point? := by
  obtain ⟨x, y, z⟩ := p
  cases x <;> cases y <;> rfl

theorem eq_of_point? {p : Place} {a : Point} (h : p.point? = some a) :
    ∃ x y, p = ⟨some x, some y, p.z⟩ ∧ a = ⟨ofInt x, ofInt y, ofInt p.z⟩ := by
  obtain ⟨x, y, z⟩ := p
  cases x with
  | none => exact absurd h nofun
  | some x =>
    cases y with
    | none => exact absurd h nofun
    | some y => exact ⟨x, y, rfl, (Option.some.inj h).symm⟩

end Place

namespace Writer

/-- The state of an interpreter that has read the lines so far. -/
def modal (w : Writer) : ModalState where
  position := w.place.position
  extrusion := ofInt w.amount
  positioning := w.positioning
  extrusionMode := w.extrusionMode

variable {w : Writer} {move : Move} {line : Option Line} {words : Words}

theorem interpret_setting (w : Writer) {setting : Setting} (h : setting.WrittenAs line) :
    w.modal.interpret line = { modal := (w.set setting).modal } := by
  obtain ⟨words, hwords, heq⟩ := w.modal.interpret_of_command_some h.command
  rw [heq]
  rcases setting with ⟨_ | _⟩ | ⟨_ | _⟩ | n
  · rfl
  · rfl
  · rfl
  · rfl
  · have hset : w.modal.setExtrusion words = (w.set (.amount n)).modal := by
      unfold ModalState.setExtrusion
      rw [hwords, h.amount n rfl]
      rfl
    rw [← hset]
    rfl

section Moves

variable (hline : w.Writes move line)
  (hwords : ∀ letter, words.value? letter = Line.value? line letter)
  (hw : w.InRange) (hafter : (w.after move).InRange)

include hline hwords hw hafter

theorem resolveTarget_of_writes :
    w.modal.resolveTarget words = (w.place.after move).position := by
  unfold ModalState.resolveTarget
  rw [hwords, hwords, hwords, hline.x, hline.y, hline.z]
  simp only [Place.position, Position.mk.injEq]
  exact ⟨ModalState.resolveAxis_wordValue hw.x hafter.x,
    ModalState.resolveAxis_wordValue hw.y hafter.y,
    ModalState.resolveAxis_wordValue_known hw.z hafter.z⟩

theorem resolveExtrusion_of_writes :
    w.modal.resolveExtrusion words = ofInt (w.after move).amount := by
  have hamount : (move.extrusion.map (w.amount + ·)).getD w.amount = (w.after move).amount := by
    unfold after
    cases move.extrusion with
    | none => exact (Int.add_zero w.amount).symm
    | some n => rfl
  apply Option.some.inj
  rw [ModalState.some_resolveExtrusion, hwords, hline.extrusion]
  calc ModalState.resolveAxis w.extrusionMode (some (ofInt w.amount)) (move.extrusion.map
        fun n => ofInt (wordValue w.extrusionMode w.amount (w.amount + n)))
      = ModalState.resolveAxis w.extrusionMode (some (ofInt w.amount))
          ((move.extrusion.map (w.amount + ·)).map
            fun n => ofInt (wordValue w.extrusionMode w.amount n)) := by
        rw [Option.map_map]
        rfl
    _ = some (ofInt ((move.extrusion.map (w.amount + ·)).getD w.amount)) :=
        ModalState.resolveAxis_wordValue_known hw.amount (hamount.symm ▸ hafter.amount)
    _ = some (ofInt (w.after move).amount) := by rw [hamount]

/- The difference of two amounts in range is exact, so its sign is that of what is extruded. -/
theorem extrudes_of_writes : w.modal.extrudes words = move.extrudes := by
  have hstartRange := hw.amount
  have hstopRange := hafter.amount
  have hstart := isWhole_ofInt (n := w.amount) (by omega)
  have hstop := isWhole_ofInt (n := (w.after move).amount) (by omega)
  have hzero : (0 : Binary64).IsWhole 0 := isWhole_ofNat (n := 0) (by omega)
  have hlt := hzero.lt_eq (hstop.sub hstart (by omega))
  unfold ModalState.extrudes Move.extrudes
  rw [resolveExtrusion_of_writes hline hwords hw hafter, hwords, hline.extrusion, Option.isSome_map]
  change (move.extrusion.isSome && lt 0 (ofInt (w.after move).amount - ofInt w.amount)) = _
  rw [hlt]
  cases hextrusion : move.extrusion with
  | none => rfl
  | some n => simp [after, hextrusion]

theorem moved_of_writes {a b : Point} (ha : w.place.point? = some a)
    (hb : (w.place.after move).point? = some b) :
    ModalState.moved words a b = !decide (w.place.after move = w.place) := by
  obtain ⟨x, y, hplace, rfl⟩ := Place.eq_of_point? ha
  obtain ⟨x', y', hplace', rfl⟩ := Place.eq_of_point? hb
  have hx : w.place.x = some x := congrArg Place.x hplace
  have hy : w.place.y = some y := congrArg Place.y hplace
  have hx' : (w.place.after move).x = some x' := congrArg Place.x hplace'
  have hy' : (w.place.after move).y = some y' := congrArg Place.y hplace'
  have hgetX : move.x.getD x = x' := by
    rw [Place.after, hx, Option.or_some] at hx'
    exact Option.some.inj hx'
  have hgetY : move.y.getD y = y' := by
    rw [Place.after, hy, Option.or_some] at hy'
    exact Option.some.inj hy'
  have hsame : w.place.after move = w.place ↔
      (x' = x ∧ y' = y) ∧ (w.place.after move).z = w.place.z := by
    rw [Place.ext_iff, hx, hx', hy, hy', Option.some.injEq, Option.some.injEq, and_assoc]
  subst hgetX hgetY
  unfold ModalState.moved
  rw [hwords, hwords, hwords, hline.x, hline.y, hline.z,
    ModalState.axisMoved_ofInt Option.isSome_map (hw.x x hx) (hafter.x _ hx'),
    ModalState.axisMoved_ofInt Option.isSome_map (hw.y y hy) (hafter.y _ hy')]
  have hz : ModalState.axisMoved (move.z.map fun n =>
      ofInt (wordValue w.positioning w.place.z n)) (ofInt w.place.z)
      (ofInt (w.place.after move).z) = !decide ((w.place.after move).z = w.place.z) :=
    ModalState.axisMoved_ofInt Option.isSome_map hw.z hafter.z
  rw [hz, decide_eq_decide.2 hsame, Bool.decide_and, Bool.decide_and, Bool.not_and, Bool.not_and]

theorem segment_of_writes :
    (w.modal.linearMove words).segment = w.place.stroke? move := by
  rw [ModalState.segment_linearMove, resolveTarget_of_writes hline hwords hw hafter,
    extrudes_of_writes hline hwords hw hafter]
  unfold ModalState.ends? Place.stroke?
  rw [show w.modal.position = w.place.position from rfl, Place.point?_position,
    Place.point?_position]
  cases ha : w.place.point? with
  | none => rfl
  | some a =>
    cases hb : (w.place.after move).point? with
    | none => rfl
    | some b =>
      simp only [Option.bind_some, moved_of_writes hline hwords hw hafter ha hb]
      by_cases hstay : w.place.after move = w.place <;> simp [hstay]

end Moves

theorem interpret_move (hline : w.Writes move line) (hw : w.InRange)
    (hafter : (w.after move).InRange) :
    (w.modal.interpret line).modal = (w.after move).modal ∧
      (w.modal.interpret line).segment = w.place.stroke? move := by
  obtain ⟨words, hwords, heq⟩ := w.modal.interpret_of_command_some hline.command
  rw [heq]
  change (w.modal.linearMove words).modal = _ ∧ (w.modal.linearMove words).segment = _
  refine ⟨?_, segment_of_writes hline hwords hw hafter⟩
  rw [ModalState.modal_linearMove, resolveTarget_of_writes hline hwords hw hafter,
    resolveExtrusion_of_writes hline hwords hw hafter]
  rfl

/-! ### Whole encodings -/

open Toolpath

/- Along an encoding the interpreter stays in the state of the writer: a setting is followed there
without a segment, and a move with its stroke. -/
theorem segments_of_encodes {moves : List Move} {lines : List (Option Line)}
    (h : w.Encodes moves lines) (hw : w.InRange) :
    (ofParsed w.modal lines).segments.toList = w.place.drawn moves := by
  induction h with
  | done => rfl
  | setting setting hline hrange hrest ih =>
    rw [segments_ofParsed_cons, interpret_setting _ hline, ih hrange]
    cases setting <;> rfl
  | move hline hrange hrest ih =>
    obtain ⟨hmodal, hsegment⟩ := interpret_move hline hw hrange
    rw [segments_ofParsed_cons, hmodal, hsegment, ih hrange]
    rfl

theorem modal_start : ({} : Writer).modal = {} := by
  have hzero : ofInt 0 = (0 : Binary64) := by decide +kernel
  change ModalState.mk ⟨none, none, some (ofInt 0)⟩ (ofInt 0) .absolute .absolute = {}
  rw [hzero]

theorem inRange_start : ({} : Writer).InRange := by decide

/-- However moves are written, with the modes and the amount set anew wherever one likes and words
that give targets or the way there, a fresh interpreter emits the segments that the moves draw: one
for each move from a known point to another one, which extrudes when the move extrudes a positive
amount. -/
theorem segments_encoding_independent (moves : List Move) (lines : List (Option Line))
    (h : ({} : Writer).Encodes moves lines) :
    (ofParsed {} lines).segments.toList = ({} : Place).drawn moves := by
  rw [← modal_start]
  exact segments_of_encodes h inRange_start

/- The first two moves only make the place known, the fourth stays where it is, and the last one
takes filament back. -/
theorem segments_encoding_independent_mixed :
    let moves : List Move := [{ x := some 10, extrusion := some 1 }, { y := some 5 },
      { x := some 20, extrusion := some 3 }, { extrusion := some 1 }, { x := some 20, z := some 2 },
      { y := some (-5), z := some 2, extrusion := some (-4) }]
    let plain : List (Option Line) :=
      [some ⟨some "G1", [('X', ofInt 10), ('E', ofInt 1)]⟩, some ⟨some "G1", [('Y', ofInt 5)]⟩,
        some ⟨some "G1", [('X', ofInt 20), ('E', ofInt 4)]⟩, some ⟨some "G1", [('E', ofInt 5)]⟩,
        some ⟨some "G1", [('X', ofInt 20), ('Z', ofInt 2)]⟩,
        some ⟨some "G1", [('Y', ofInt (-5)), ('Z', ofInt 2), ('E', ofInt 1)]⟩]
    let mixed : List (Option Line) :=
      [some ⟨some "G91", []⟩, some ⟨some "G1", [('E', ofInt 1), ('X', ofInt 10)]⟩,
        some ⟨some "M83", []⟩, some ⟨some "G1", [('Y', ofInt 5)]⟩,
        some ⟨some "G1", [('X', ofInt 10), ('E', ofInt 3)]⟩,
        some ⟨some "G92", [('E', ofInt 100)]⟩, some ⟨some "M82", []⟩,
        some ⟨some "G1", [('E', ofInt 101)]⟩, some ⟨some "G90", []⟩,
        some ⟨some "G1", [('Z', ofInt 2), ('X', ofInt 20)]⟩, some ⟨some "G91", []⟩,
        some ⟨some "G1", [('Y', ofInt (-10)), ('Z', ofInt 0), ('E', ofInt 97)]⟩]
    ({} : Writer).Encodes moves plain ∧ ({} : Writer).Encodes moves mixed ∧
      ({} : Place).drawn moves =
        [⟨⟨ofInt 10, ofInt 5, ofInt 0⟩, ⟨ofInt 20, ofInt 5, ofInt 0⟩, true⟩,
          ⟨⟨ofInt 20, ofInt 5, ofInt 0⟩, ⟨ofInt 20, ofInt 5, ofInt 2⟩, false⟩,
          ⟨⟨ofInt 20, ofInt 5, ofInt 2⟩, ⟨ofInt 20, ofInt (-5), ofInt 2⟩, false⟩] ∧
      (ofParsed {} plain).segments.toList = ({} : Place).drawn moves ∧
      (ofParsed {} mixed).segments.toList = ({} : Place).drawn moves := by
  intro moves plain mixed
  have hplain : ({} : Writer).Encodes moves plain :=
    .move ⟨rfl, rfl, rfl, rfl, rfl⟩ (by decide) (.move ⟨rfl, rfl, rfl, rfl, rfl⟩ (by decide)
      (.move ⟨rfl, rfl, rfl, rfl, rfl⟩ (by decide) (.move ⟨rfl, rfl, rfl, rfl, rfl⟩ (by decide)
        (.move ⟨rfl, rfl, rfl, rfl, rfl⟩ (by decide) (.move ⟨rfl, rfl, rfl, rfl, rfl⟩ (by decide)
          .done)))))
  have hmixed : ({} : Writer).Encodes moves mixed :=
    .setting (.positioning .relative) ⟨rfl, nofun⟩ (by decide)
      (.move ⟨rfl, rfl, rfl, rfl, rfl⟩ (by decide)
      (.setting (.extrusionMode .relative) ⟨rfl, nofun⟩ (by decide)
      (.move ⟨rfl, rfl, rfl, rfl, rfl⟩ (by decide)
      (.move ⟨rfl, rfl, rfl, rfl, rfl⟩ (by decide)
      (.setting (.amount 100) ⟨rfl, by rintro n ⟨⟩; rfl⟩ (by decide)
      (.setting (.extrusionMode .absolute) ⟨rfl, nofun⟩ (by decide)
      (.move ⟨rfl, rfl, rfl, rfl, rfl⟩ (by decide)
      (.setting (.positioning .absolute) ⟨rfl, nofun⟩ (by decide)
      (.move ⟨rfl, rfl, rfl, rfl, rfl⟩ (by decide)
      (.setting (.positioning .relative) ⟨rfl, nofun⟩ (by decide)
      (.move ⟨rfl, rfl, rfl, rfl, rfl⟩ (by decide) .done)))))))))))
  exact ⟨hplain, hmixed, rfl, segments_encoding_independent moves plain hplain,
    segments_encoding_independent moves mixed hmixed⟩

end Writer

end VirtualPrinter
