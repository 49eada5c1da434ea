import Mathlib.Data.List.Chain
import Mathlib.Data.List.Induction
import VirtualPrinter.Proofs.Motion.Lines
import VirtualPrinter.Proofs.Program.Size

/-!
# A connected path

The segments of a program join end to end, and the running position is at the end of the last one:
lines that emit nothing leave a known position at the same numbers. Every segment comes from a move
of its own, which names an axis that changes, and the first line of a program emits none.
-/

namespace VirtualPrinter

open GCode (Line)

attribute [local irreducible] Binary64.ofNat

/-! ### Coordinates that agree -/

namespace Binary64

variable {x y z : Binary64}

/-- The same number, whatever the sign of a zero, or both not numbers. -/
def Agrees (x y : Binary64) : Prop := x.sameNumber y = true ∨ x = nan ∧ y = nan

theorem agrees_iff : x.Agrees y ↔ x.place? = y.place? := by
  unfold Agrees sameNumber
  rw [← place?_eq_none_iff, ← place?_eq_none_iff]
  cases x.place? with
  | none => cases y.place? <;> simp
  | some a => cases y.place? <;> simp

theorem Agrees.refl (x : Binary64) : x.Agrees x := agrees_iff.2 rfl

theorem Agrees.trans (hxy : x.Agrees y) (hyz : y.Agrees z) : x.Agrees z :=
  agrees_iff.2 ((agrees_iff.1 hxy).trans (agrees_iff.1 hyz))

end Binary64

/-- The letters of the axes. -/
def axes : List Char := ['X', 'Y', 'Z']

theorem axes_cases {axis : Char} (h : axis ∈ axes) : axis = 'X' ∨ axis = 'Y' ∨ axis = 'Z' := by
  simpa [axes] using h

theorem forall_axes_iff {P : Char → Prop} : (∀ axis ∈ axes, P axis) ↔ P 'X' ∧ P 'Y' ∧ P 'Z' := by
  simp [axes]

/-- The coordinate along an axis. -/
def Point.along (p : Point) (axis : Char) : Binary64 :=
  if axis = 'X' then p.x else if axis = 'Y' then p.y else p.z

/-- The coordinate along an axis, if it is known. -/
def Position.along (p : Position) (axis : Char) : Option Binary64 :=
  if axis = 'X' then p.x else if axis = 'Y' then p.y else p.z

/-- Points whose coordinates agree. -/
def Point.Meets (p q : Point) : Prop := ∀ axis ∈ axes, (p.along axis).Agrees (q.along axis)

theorem Point.Meets.refl (p : Point) : p.Meets p := fun _ _ => .refl _

theorem Point.Meets.trans {p q r : Point} (hpq : p.Meets q) (hqr : q.Meets r) : p.Meets r :=
  fun axis haxis => (hpq axis haxis).trans (hqr axis haxis)

theorem Position.point?_eq_some_iff {p : Position} {a : Point} :
    p.point? = some a ↔ ∀ axis ∈ axes, p.along axis = some (a.along axis) := by
  obtain ⟨x, y, z⟩ := p
  obtain ⟨a, b, c⟩ := a
  rw [forall_axes_iff]
  cases x <;> cases y <;> cases z <;> simp [point?, along, Point.along]

theorem Position.exists_point?_iff {p : Position} :
    (∃ a, p.point? = some a) ↔ ∀ axis ∈ axes, (p.along axis).isSome = true := by
  obtain ⟨x, y, z⟩ := p
  rw [forall_axes_iff]
  cases x <;> cases y <;> cases z <;> simp [point?, along]

/-! ### One axis of a move -/

namespace ModalState

variable {m : ModalState} {words : Words} {mode : DistanceMode} {old word : Option Binary64}
  {axis : Char} {p q : Point}

theorem isSome_resolveAxis :
    (resolveAxis mode old word).isSome = (old.isSome || word.isSome) := by
  cases word <;> cases mode <;> cases old <;> rfl

theorem resolveAxis_none : resolveAxis mode old none = old := by
  cases mode <;> cases old <;> rfl

theorem along_resolveTarget (haxis : axis ∈ axes) :
    (m.resolveTarget words).along axis =
      resolveAxis m.positioning (m.position.along axis) (words.value? axis) := by
  rcases axes_cases haxis with rfl | rfl | rfl <;> rfl

theorem moved_iff :
    moved words p q = true ↔
      ∃ axis ∈ axes, (words.value? axis).isSome = true ∧
        (p.along axis).sameNumber (q.along axis) = false := by
  simp [moved, axisMoved, axes, Point.along, or_assoc]

/- An axis that is not named keeps its coordinate. -/
theorem along_carried (hp : m.position.point? = some p)
    (hq : (m.resolveTarget words).point? = some q) (haxis : axis ∈ axes)
    (hword : words.value? axis = none) : q.along axis = p.along axis := by
  have hnew := Position.point?_eq_some_iff.1 hq axis haxis
  rw [along_resolveTarget haxis, hword, resolveAxis_none,
    Position.point?_eq_some_iff.1 hp axis haxis, Option.some.injEq] at hnew
  exact hnew.symm

theorem meets_of_not_moved (hp : m.position.point? = some p)
    (hq : (m.resolveTarget words).point? = some q) (hmoved : ¬ moved words p q = true) :
    p.Meets q := by
  intro axis haxis
  cases hword : words.value? axis with
  | none =>
    rw [along_carried hp hq haxis hword]
    exact .refl _
  | some value =>
    refine Or.inl (by_contra fun hne => hmoved (moved_iff.2 ⟨axis, haxis, ?_, ?_⟩))
    · rw [hword]
      rfl
    · exact Bool.eq_false_iff.2 hne

end ModalState

/-! ### One line -/

/-- The line makes the move of a segment: it changes an axis that it names and carries over the
others. -/
structure GCode.Line.Moves (line : Line) (s : Segment) : Prop where
  command : line.command = some "G1"
  changes : ∃ axis ∈ axes, (Words.value? line.words axis).isSome = true ∧
    (s.start.along axis).sameNumber (s.stop.along axis) = false
  carries : ∀ axis ∈ axes, Words.value? line.words axis = none →
    s.stop.along axis = s.start.along axis

namespace ModalState

variable {m : ModalState}

theorem position_setPositioning (m : ModalState) (command : String) :
    (m.setPositioning command).position = m.position := by
  unfold setPositioning
  split_ifs <;> rfl

theorem position_setExtrusionMode (m : ModalState) (command : String) :
    (m.setExtrusionMode command).position = m.position := by
  unfold setExtrusionMode
  split_ifs <;> rfl

theorem position_setExtrusion (m : ModalState) (words : Words) :
    (m.setExtrusion words).position = m.position := by
  unfold setExtrusion
  split <;> rfl

/- Only moves have to do with the position. -/
theorem interpret_cases (m : ModalState) (line : Option Line) :
    ((m.interpret line).modal.position = m.position ∧ (m.interpret line).segment = none) ∨
      ∃ move : Line, line = some move ∧ move.command = some "G1" ∧
        m.interpret line = m.linearMove move.words := by
  cases line with
  | none => exact Or.inl ⟨rfl, rfl⟩
  | some line =>
    cases hcommand : line.command with
    | none =>
      have hnone : Line.command? (some line) = none := hcommand
      rw [interpret_of_command_none m hnone]
      exact Or.inl ⟨rfl, rfl⟩
    | some command =>
      have hexecute : m.interpret (some line) = m.execute command line.words := by
        simp only [interpret, hcommand]
      rw [hexecute]
      unfold execute
      split_ifs with hpositioning hmode hamount hmove
      · exact Or.inl ⟨m.position_setPositioning command, rfl⟩
      · exact Or.inl ⟨m.position_setExtrusionMode command, rfl⟩
      · exact Or.inl ⟨m.position_setExtrusion line.words, rfl⟩
      · exact Or.inr ⟨line, rfl, hmove ▸ hcommand, rfl⟩
      · exact Or.inl ⟨rfl, rfl⟩

/-- The height is known. It is from the start, and nothing makes it unknown. -/
def HasHeight (m : ModalState) : Prop := m.position.z.isSome = true

theorem primed_iff (h : m.HasHeight) : m.primed = true ↔ ∃ p, m.position.point? = some p := by
  rw [Position.exists_point?_iff, forall_axes_iff]
  simp only [primed, Bool.and_eq_true]
  exact ⟨fun hxy => ⟨hxy.1, hxy.2, h⟩, fun hxyz => ⟨hxyz.1, hxyz.2.1⟩⟩

theorem exists_point?_resolveTarget {p : Point} (hp : m.position.point? = some p) (words : Words) :
    ∃ q, (m.resolveTarget words).point? = some q := by
  rw [Position.exists_point?_iff]
  intro axis haxis
  rw [along_resolveTarget haxis, isSome_resolveAxis, Position.point?_eq_some_iff.1 hp axis haxis]
  rfl

theorem hasHeight_interpret (h : m.HasHeight) (line : Option Line) :
    (m.interpret line).modal.HasHeight := by
  unfold HasHeight at h ⊢
  rcases m.interpret_cases line with ⟨hposition, -⟩ | ⟨move, -, -, hmove⟩
  · rwa [hposition]
  · rw [hmove, modal_linearMove]
    change (resolveAxis _ m.position.z _).isSome = true
    rw [isSome_resolveAxis, h]
    rfl

/-- What a line can do to the position and emit: it leaves a known position at the same numbers and
emits nothing, or it makes a move from the position. -/
inductive Passage (m : ModalState) (line : Option Line) (e : LineEffect) : Prop
  | still (hsegment : e.segment = none)
      (hmeets : ∀ p, m.position.point? = some p →
        ∃ q, e.modal.position.point? = some q ∧ p.Meets q)
  | drawn {move : Line} {s : Segment} (hline : line = some move) (hmove : move.Moves s)
      (hsegment : e.segment = some s) (hstart : m.position.point? = some s.start)
      (hstop : e.modal.position.point? = some s.stop)

theorem passage_interpret (m : ModalState) (line : Option Line) :
    m.Passage line (m.interpret line) := by
  rcases m.interpret_cases line with ⟨hposition, hsegment⟩ | ⟨move, rfl, hcommand, hmove⟩
  · refine .still hsegment fun p hp => ⟨p, ?_, .refl p⟩
    rw [hposition, hp]
  · have hnext : (m.linearMove move.words).modal.position = m.resolveTarget move.words := by
      rw [modal_linearMove]
    rw [hmove]
    cases hp : m.position.point? with
    | none =>
      refine .still ?_ fun p h => ?_
      · rw [segment_linearMove, ends?, hp]
        rfl
      · rw [hp] at h
        contradiction
    | some p =>
      obtain ⟨q, hq⟩ := exists_point?_resolveTarget hp move.words
      have hends : ends? move.words m.position (m.resolveTarget move.words) =
          if moved move.words p q then some (p, q) else none := by
        simp only [ends?, hp, hq, Option.bind_some]
      by_cases hmoved : moved move.words p q = true
      · rw [if_pos hmoved] at hends
        have hmakes : move.Moves ⟨p, q, m.extrudes move.words⟩ :=
          ⟨hcommand, moved_iff.1 hmoved, fun axis haxis => along_carried hp hq haxis⟩
        refine .drawn rfl hmakes ?_ hp (hnext ▸ hq)
        rw [segment_linearMove, hends]
        rfl
      · rw [if_neg hmoved] at hends
        refine .still ?_ fun a ha => ⟨q, hnext ▸ hq, ?_⟩
        · rw [segment_linearMove, hends]
          rfl
        · rw [hp, Option.some.injEq] at ha
          exact ha ▸ meets_of_not_moved hp hq hmoved

end ModalState

/-! ### Line by line -/

namespace Toolpath

variable {path : Toolpath} {text : List Char}

/-- A line adds a segment to a toolpath: from the known position that it leads to on to a known
position. -/
structure Draws (path : Toolpath) (text : List Char) (s : Segment) : Prop where
  line : ∃ line : Line, Line.parse text = .ok (some line) ∧ line.Moves s
  segments : (path.step text).segments.toList = path.segments.toList ++ [s]
  start : path.modal.position.point? = some s.start
  stop : (path.step text).modal.position.point? = some s.stop

/-- A line adds nothing to a toolpath, and leaves a known position at the same numbers. -/
structure Passes (path : Toolpath) (text : List Char) : Prop where
  segments : (path.step text).segments.toList = path.segments.toList
  meets : ∀ p, path.modal.position.point? = some p →
    ∃ q, (path.step text).modal.position.point? = some q ∧ p.Meets q

theorem step_passes_or_draws (path : Toolpath) (text : List Char) :
    path.Passes text ∨ ∃ s, path.Draws text s := by
  have hidle : ∀ fault, path.step text = { path with fault := fault } → path.Passes text := by
    intro fault hstep
    refine ⟨by rw [hstep], fun p hp => ⟨p, ?_, .refl p⟩⟩
    rw [hstep, hp]
  by_cases hfault : path.fault = none
  · cases hline : Line.parse text with
    | error fault =>
      refine Or.inl (hidle (some fault) ?_)
      simp only [step, hfault, hline, Option.isSome_none, Bool.false_eq_true, if_false]
    | ok line =>
      have hstep := step_eq_follow hline hfault
      rcases path.modal.passage_interpret line with ⟨hsegment, hmeets⟩ |
        ⟨hmove, hmoves, hsegment, hstart, hstop⟩
      · refine Or.inl ⟨?_, ?_⟩
        · rw [hstep]
          simp [follow, extend, hsegment]
        · rw [hstep]
          exact hmeets
      · refine Or.inr ⟨_, ⟨⟨_, hmove ▸ hline, hmoves⟩, ?_, hstart, ?_⟩⟩
        · rw [hstep]
          simp [follow, extend, hsegment]
        · rw [hstep]
          exact hstop
  · refine Or.inl (hidle path.fault ?_)
    unfold step
    rw [if_pos (Option.isSome_iff_ne_none.2 hfault)]

/-! ### Whole programs -/

theorem ofLines_append (m : ModalState) (before after : List (List Char)) :
    ofLines m (before ++ after) = after.foldl step (ofLines m before) := List.foldl_append

theorem ofLines_concat (m : ModalState) (lines : List (List Char)) (text : List Char) :
    ofLines m (lines ++ [text]) = (ofLines m lines).step text := ofLines_append m lines [text]

/-- The segments join end to end, and the running position is at the end of the last one. -/
structure Connected (path : Toolpath) : Prop where
  chain : path.segments.toList.IsChain fun s t => s.stop.Meets t.start
  last : ∀ s ∈ path.segments.toList.getLast?,
    ∃ p, path.modal.position.point? = some p ∧ s.stop.Meets p

theorem connected_step (h : Connected path) (text : List Char) : Connected (path.step text) := by
  rcases path.step_passes_or_draws text with hpasses | ⟨s, hdraws⟩
  · refine ⟨by rw [hpasses.segments]; exact h.chain, fun s hs => ?_⟩
    rw [hpasses.segments] at hs
    obtain ⟨p, hp, hsp⟩ := h.last s hs
    obtain ⟨q, hq, hpq⟩ := hpasses.meets p hp
    exact ⟨q, hq, hsp.trans hpq⟩
  · constructor
    · rw [hdraws.segments]
      refine List.isChain_append.2 ⟨h.chain, List.isChain_singleton s, ?_⟩
      intro last hlast first hfirst
      obtain ⟨p, hp, hmeets⟩ := h.last last hlast
      rw [hdraws.start, Option.some.injEq] at hp
      rw [List.head?_cons, Option.mem_def, Option.some.injEq] at hfirst
      rw [← hfirst, hp]
      exact hmeets
    · intro last hlast
      rw [hdraws.segments, List.getLast?_concat, Option.mem_def, Option.some.injEq] at hlast
      exact ⟨s.stop, hdraws.stop, hlast ▸ .refl _⟩

theorem connected_ofLines (m : ModalState) (lines : List (List Char)) :
    Connected (ofLines m lines) := by
  induction lines using List.reverseRecOn with
  | nil =>
    refine ⟨List.IsChain.nil, fun s hs => ?_⟩
    contradiction
  | append_singleton lines text ih =>
    rw [ofLines_concat]
    exact connected_step ih text

/- Every segment has the line that drew it, after the lines that drew the segments before. -/
theorem exists_draws (m : ModalState) (lines : List (List Char)) {earlier later : List Segment}
    {s : Segment} (h : (ofLines m lines).segments.toList = earlier ++ s :: later) :
    ∃ before text after, lines = before ++ text :: after ∧
      (ofLines m before).segments.toList = earlier ∧ (ofLines m before).Draws text s := by
  induction lines using List.reverseRecOn generalizing later with
  | nil => exact absurd h (by simp [ofLines])
  | append_singleton lines text ih =>
    have hextend : ∀ later', (ofLines m lines).segments.toList = earlier ++ s :: later' →
        ∃ before line after, lines ++ [text] = before ++ line :: after ∧
          (ofLines m before).segments.toList = earlier ∧ (ofLines m before).Draws line s := by
      intro later' hsegments
      obtain ⟨before, line, after, rfl, hrest⟩ := ih hsegments
      exact ⟨before, line, after ++ [text], by simp, hrest⟩
    rw [ofLines_concat] at h
    rcases (ofLines m lines).step_passes_or_draws text with hpasses | ⟨t, hdraws⟩
    · exact hextend later (hpasses.segments ▸ h)
    · rw [hdraws.segments] at h
      rcases List.eq_nil_or_concat later with rfl | ⟨later', last, rfl⟩
      · obtain ⟨hearlier, hlast⟩ := List.append_inj' h rfl
        rw [List.cons.injEq] at hlast
        exact ⟨lines, text, [], rfl, hearlier, hlast.1 ▸ hdraws⟩
      · rw [List.concat_eq_append, ← List.cons_append, ← List.append_assoc] at h
        exact hextend later' (List.append_inj' h rfl).1

/-! ### Known positions -/

theorem known_step {p : Point} (h : path.modal.position.point? = some p) (text : List Char) :
    ∃ q, (path.step text).modal.position.point? = some q := by
  rcases path.step_passes_or_draws text with hpasses | ⟨s, hdraws⟩
  · obtain ⟨q, hq, -⟩ := hpasses.meets p h
    exact ⟨q, hq⟩
  · exact ⟨s.stop, hdraws.stop⟩

theorem known_foldl {p : Point} (h : path.modal.position.point? = some p)
    (lines : List (List Char)) :
    ∃ q, (lines.foldl step path).modal.position.point? = some q := by
  induction lines generalizing path p with
  | nil => exact ⟨p, h⟩
  | cons text lines ih =>
    obtain ⟨q, hq⟩ := known_step h text
    exact ih hq

theorem hasHeight_step (h : path.modal.HasHeight) (text : List Char) :
    (path.step text).modal.HasHeight := by
  unfold step
  split
  · exact h
  · split
    · exact h
    · exact ModalState.hasHeight_interpret h _

theorem hasHeight_ofLines {m : ModalState} (h : m.HasHeight) (lines : List (List Char)) :
    (ofLines m lines).modal.HasHeight := by
  induction lines using List.reverseRecOn with
  | nil => exact h
  | append_singleton lines text ih =>
    rw [ofLines_concat]
    exact hasHeight_step ih text

/-! ### The number of segments -/

/- The first line starts from an unknown position and draws nothing. -/
theorem length_segments_lt {m : ModalState} (hm : m.position.point? = none)
    {lines : List (List Char)} (hne : lines ≠ []) :
    (ofLines m lines).segments.toList.length < lines.length := by
  induction lines using List.reverseRecOn with
  | nil => contradiction
  | append_singleton lines text ih =>
    rw [ofLines_concat, List.length_append, List.length_singleton]
    rcases (ofLines m lines).step_passes_or_draws text with hpasses | ⟨s, hdraws⟩
    · rw [hpasses.segments]
      rcases eq_or_ne lines [] with rfl | hlines
      · exact Nat.one_pos
      · exact Nat.lt_succ_of_lt (ih hlines)
    · rcases eq_or_ne lines [] with rfl | hlines
      · have hstart : m.position.point? = some s.start := hdraws.start
        rw [hm] at hstart
        contradiction
      · rw [hdraws.segments, List.length_append, List.length_singleton]
        exact Nat.succ_lt_succ (ih hlines)

/-- The path of a text, up to its end or to a line that is a fault, is connected and leads to the
running position. Each segment is drawn by a line of its own, which changes an axis that it names.
Once X and Y are known the position is known for good, and no text has more segments than line
feeds. -/
theorem ofText_connected (text : String) :
    Connected (ofText {} text) ∧
      (∀ earlier s later, (ofText {} text).segments.toList = earlier ++ s :: later →
        ∃ before line after, splitLines text.toList = before ++ line :: after ∧
          (ofLines {} before).segments.toList = earlier ∧ (ofLines {} before).Draws line s) ∧
      (∀ before after : List (List Char), (ofLines {} before).modal.primed = true →
        (ofLines {} (before ++ after)).modal.primed = true ∧
          ∃ p, (ofLines {} (before ++ after)).modal.position.point? = some p) ∧
      (ofText {} text).segments.toList.length ≤ text.toList.count '\n' := by
  refine ⟨connected_ofLines {} _, fun earlier s later => exists_draws {} _, ?_, ?_⟩
  · intro before after hprimed
    have hheight : ∀ lines, (ofLines {} lines).modal.HasHeight := hasHeight_ofLines rfl
    obtain ⟨p, hp⟩ := (ModalState.primed_iff (hheight before)).1 hprimed
    have hknown := known_foldl hp after
    rw [← ofLines_append] at hknown
    exact ⟨(ModalState.primed_iff (hheight _)).2 hknown, hknown⟩
  · have hlength := length_splitLines text.toList
    have hne : splitLines text.toList ≠ [] := by
      intro hnil
      rw [hnil] at hlength
      contradiction
    have hlt := length_segments_lt (m := {}) rfl hne
    change (ofLines {} (splitLines text.toList)).segments.toList.length ≤ _
    omega

/- A line that puts a negative zero in the place of zero draws nothing, and the next segment starts
from there. -/
theorem ofText_connected_zeros :
    ∃ path s t, ofText {} "G1 X1 Y0\nG1 X0 E1\nG1 X-0\nG91\nG1 X5" = path ∧
      path.segments.toList = [s, t] ∧ s.stop = ⟨0, 0, 0⟩ ∧
      t.start = ⟨.signedZero true, 0, 0⟩ ∧ s.stop.Meets t.start ∧
      ∃ before line after,
        splitLines "G1 X1 Y0\nG1 X0 E1\nG1 X-0\nG91\nG1 X5".toList = before ++ line :: after ∧
          (ofLines {} before).segments.toList = [s] ∧ (ofLines {} before).Draws line t := by
  have hsegments : (ofText {} "G1 X1 Y0\nG1 X0 E1\nG1 X-0\nG91\nG1 X5").segments.toList =
      [⟨⟨1, 0, 0⟩, ⟨0, 0, 0⟩, true⟩, ⟨⟨.signedZero true, 0, 0⟩, ⟨5, 0, 0⟩, false⟩] := by
    decide +kernel
  have hall := ofText_connected "G1 X1 Y0\nG1 X0 E1\nG1 X-0\nG91\nG1 X5"
  generalize ofText {} "G1 X1 Y0\nG1 X0 E1\nG1 X-0\nG91\nG1 X5" = path at hsegments hall
  obtain ⟨hconnected, hdraws, -, -⟩ := hall
  have hchain := hconnected.chain
  rw [hsegments, List.isChain_pair] at hchain
  exact ⟨path, _, _, rfl, hsegments, rfl, rfl, hchain, hdraws [_] _ [] hsegments⟩

end Toolpath

end VirtualPrinter
