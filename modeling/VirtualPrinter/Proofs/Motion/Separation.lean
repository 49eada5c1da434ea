import Mathlib.Tactic.SplitIfs
import VirtualPrinter.Proofs.Motion.Lines

/-!
# Geometry and extrusion keep apart

Where the segments of a program run depends on its axis words and positioning commands only, and the
amount it extrudes on its `E` words and extrusion commands only. Both are statements about two runs:
a part of the modal state that neither the words of some letters nor some commands touch stays the
same when a program is edited in these words and commands.
-/

namespace VirtualPrinter

open GCode (Line)

/-! ### Edited programs -/

/-- Lines that differ at most in the words of the given letters. -/
structure GCode.Line.AgreeBut (letters : List Char) (a b : Option Line) : Prop where
  command : command? a = command? b
  words : ∀ letter, letter ∉ letters → value? a letter = value? b letter

theorem Words.value?_filter {letters : List Char} {letter : Char} (h : letter ∉ letters)
    (words : Words) : Words.value? (words.filter (·.1 ∉ letters)) letter = words.value? letter := by
  unfold Words.value?
  induction words with
  | nil => rfl
  | cons word words ih =>
    obtain ⟨other, value⟩ := word
    by_cases hother : other ∈ letters
    · have hne : (letter == other) = false := beq_false_of_ne fun heq => h (heq ▸ hother)
      rw [List.filter_cons_of_neg (by simpa using hother), List.lookup_cons, hne, ih]
    · rw [List.filter_cons_of_pos (by simpa using hother), List.lookup_cons, List.lookup_cons, ih]

/- Lines differ so when their other words are the same words in the same order. -/
theorem GCode.Line.AgreeBut.of_filter {letters : List Char} {a b : Line}
    (hcommand : a.command = b.command)
    (hwords : a.words.filter (·.1 ∉ letters) = b.words.filter (·.1 ∉ letters)) :
    AgreeBut letters (some a) (some b) where
  command := hcommand
  words letter hletter := by
    have h := congrArg (Words.value? · letter) hwords
    rw [Words.value?_filter hletter, Words.value?_filter hletter] at h
    exact h

/-- Programs that differ at most in the words of the given letters on any lines and in lines with
the given commands, which may be anywhere in only one of them. -/
inductive Edited (letters : List Char) (commands : List String) :
    List (Option Line) → List (Option Line) → Prop
  | done : Edited letters commands [] []
  | reword {a b : Option Line} {before after : List (Option Line)}
      (hline : GCode.Line.AgreeBut letters a b) (hrest : Edited letters commands before after) :
      Edited letters commands (a :: before) (b :: after)
  | insert {line : Option Line} {command : String} {before after : List (Option Line)}
      (hline : GCode.Line.command? line = some command) (hcommand : command ∈ commands)
      (hrest : Edited letters commands before after) :
      Edited letters commands before (line :: after)
  | delete {line : Option Line} {command : String} {before after : List (Option Line)}
      (hline : GCode.Line.command? line = some command) (hcommand : command ∈ commands)
      (hrest : Edited letters commands before after) :
      Edited letters commands (line :: before) after

/-- A view of modal states and of segments in which neither the words of the given letters nor the
given commands have a part. -/
structure Blind {α β : Type} (letters : List Char) (commands : List String)
    (view : ModalState → α) (shown : Segment → Option β) : Prop where
  reword : ∀ {m n : ModalState} {v w : Words} (command : String), view m = view n →
    (∀ letter, letter ∉ letters → v.value? letter = w.value? letter) →
    view (m.execute command v).modal = view (n.execute command w).modal ∧
      (m.execute command v).segment.bind shown = (n.execute command w).segment.bind shown
  skip : ∀ (m : ModalState) (words : Words) {command : String}, command ∈ commands →
    view (m.execute command words).modal = view m ∧ (m.execute command words).segment = none

/-! ### Two runs -/

section Runs

variable {α β : Type} {letters : List Char} {commands : List String}
  {view : ModalState → α} {shown : Segment → Option β}

theorem Blind.reword_line (hblind : Blind letters commands view shown) {m n : ModalState}
    {a b : Option Line} (hmn : view m = view n) (hline : GCode.Line.AgreeBut letters a b) :
    view (m.interpret a).modal = view (n.interpret b).modal ∧
      (m.interpret a).segment.bind shown = (n.interpret b).segment.bind shown := by
  cases hcommand : GCode.Line.command? a with
  | none =>
    rw [m.interpret_of_command_none hcommand,
      n.interpret_of_command_none (hline.command.symm.trans hcommand)]
    exact ⟨hmn, rfl⟩
  | some command =>
    obtain ⟨v, hv, hm⟩ := m.interpret_of_command_some hcommand
    obtain ⟨w, hw, hn⟩ := n.interpret_of_command_some (hline.command.symm.trans hcommand)
    rw [hm, hn]
    apply hblind.reword command hmn
    intro letter hletter
    rw [hv, hw, hline.words letter hletter]

theorem Blind.skip_line (hblind : Blind letters commands view shown) (m : ModalState)
    {line : Option Line} {command : String} (hline : GCode.Line.command? line = some command)
    (hcommand : command ∈ commands) :
    view (m.interpret line).modal = view m ∧ (m.interpret line).segment = none := by
  obtain ⟨words, -, hm⟩ := m.interpret_of_command_some hline
  rw [hm]
  exact hblind.skip m words hcommand

namespace Toolpath

theorem shown_ofParsed_cons (m : ModalState) (line : Option Line) (lines : List (Option Line)) :
    (ofParsed m (line :: lines)).segments.toList.filterMap shown =
      ((m.interpret line).segment.bind shown).toList ++
        (ofParsed (m.interpret line).modal lines).segments.toList.filterMap shown := by
  rw [segments_ofParsed_cons, List.filterMap_append]
  congr 1
  cases (m.interpret line).segment with
  | none => rfl
  | some s => cases h : shown s <;> simp [h]

/- Runs of edited programs from states that look the same: a line that both have leaves states that
look the same again, and a line that only one has leaves its state looking as it did. -/
theorem ofParsed_blind (hblind : Blind letters commands view shown) {P Q : List (Option Line)}
    (h : Edited letters commands P Q) {m n : ModalState} (hmn : view m = view n) :
    view (ofParsed m P).modal = view (ofParsed n Q).modal ∧
      (ofParsed m P).segments.toList.filterMap shown =
        (ofParsed n Q).segments.toList.filterMap shown := by
  induction h generalizing m n with
  | done => exact ⟨hmn, rfl⟩
  | reword hline hrest ih =>
    obtain ⟨hview, hshown⟩ := hblind.reword_line hmn hline
    obtain ⟨hmodal, hsegments⟩ := ih hview
    rw [modal_ofParsed_cons, modal_ofParsed_cons, shown_ofParsed_cons, shown_ofParsed_cons, hshown,
      hsegments]
    exact ⟨hmodal, rfl⟩
  | insert hline hcommand hrest ih =>
    obtain ⟨hview, hnone⟩ := hblind.skip_line n hline hcommand
    rw [modal_ofParsed_cons, shown_ofParsed_cons, hnone]
    exact ih (hmn.trans hview.symm)
  | delete hline hcommand hrest ih =>
    obtain ⟨hview, hnone⟩ := hblind.skip_line m hline hcommand
    rw [modal_ofParsed_cons, shown_ofParsed_cons, hnone]
    exact ih (hview.trans hmn)

end Toolpath

end Runs

/-! ### Geometry -/

def Segment.ends (s : Segment) : Point × Point := (s.start, s.stop)

namespace ModalState

variable {m n : ModalState} {v w : Words}

/-- Where a state is and how it reads coordinates. -/
def placing (m : ModalState) : Position × DistanceMode := (m.position, m.positioning)

/-- What a state has extruded and how it reads amounts. -/
def feeding (m : ModalState) : Binary64 × DistanceMode := (m.extrusion, m.extrusionMode)

theorem placing_setPositioning (command : String) (h : m.placing = n.placing) :
    (m.setPositioning command).placing = (n.setPositioning command).placing := by
  unfold setPositioning
  simp only [placing, Prod.mk.injEq] at h ⊢
  split_ifs
  · exact ⟨h.1, rfl⟩
  · exact ⟨h.1, rfl⟩
  · exact h

theorem placing_setExtrusionMode (m : ModalState) (command : String) :
    (m.setExtrusionMode command).placing = m.placing := by
  unfold setExtrusionMode
  split_ifs <;> rfl

theorem placing_setExtrusion (m : ModalState) (words : Words) :
    (m.setExtrusion words).placing = m.placing := by
  unfold setExtrusion
  split <;> rfl

theorem resolveTarget_congr (h : m.placing = n.placing)
    (hw : ∀ letter, letter ∉ ['E'] → v.value? letter = w.value? letter) :
    m.resolveTarget v = n.resolveTarget w := by
  simp only [placing, Prod.mk.injEq] at h
  unfold resolveTarget
  rw [h.1, h.2, hw 'X' (by decide), hw 'Y' (by decide), hw 'Z' (by decide)]

theorem ends?_congr (hw : ∀ letter, letter ∉ ['E'] → v.value? letter = w.value? letter)
    (start stop : Position) : ends? v start stop = ends? w start stop := by
  unfold ends? moved
  rw [hw 'X' (by decide), hw 'Y' (by decide), hw 'Z' (by decide)]

theorem blind_placing :
    Blind ['E'] ["M82", "M83", "G92"] placing (fun s => some s.ends) where
  reword {m n v w} command h hw := by
    unfold execute
    split_ifs
    · exact ⟨placing_setPositioning command h, rfl⟩
    · rw [placing_setExtrusionMode, placing_setExtrusionMode]
      exact ⟨h, rfl⟩
    · rw [placing_setExtrusion, placing_setExtrusion]
      exact ⟨h, rfl⟩
    · have htarget := resolveTarget_congr h hw
      simp only [placing, Prod.mk.injEq] at h
      rw [modal_linearMove, modal_linearMove, segment_linearMove, segment_linearMove, htarget, h.1,
        ends?_congr hw]
      refine ⟨congrArg (_, ·) h.2, ?_⟩
      cases ends? w n.position (n.resolveTarget w) <;> rfl
    · exact ⟨h, rfl⟩
  skip m words command hcommand := by
    simp only [List.mem_cons, List.not_mem_nil, or_false] at hcommand
    rcases hcommand with rfl | rfl | rfl
    · exact ⟨rfl, rfl⟩
    · exact ⟨rfl, rfl⟩
    · exact ⟨placing_setExtrusion m words, rfl⟩

/-! ### Extrusion -/

theorem feeding_setPositioning (m : ModalState) (command : String) :
    (m.setPositioning command).feeding = m.feeding := by
  unfold setPositioning
  split_ifs <;> rfl

theorem feeding_setExtrusionMode (command : String) (h : m.feeding = n.feeding) :
    (m.setExtrusionMode command).feeding = (n.setExtrusionMode command).feeding := by
  unfold setExtrusionMode
  simp only [feeding, Prod.mk.injEq] at h ⊢
  split_ifs
  · exact ⟨h.1, rfl⟩
  · exact ⟨h.1, rfl⟩
  · exact h

theorem feeding_setExtrusion (h : m.feeding = n.feeding) (hw : v.value? 'E' = w.value? 'E') :
    (m.setExtrusion v).feeding = (n.setExtrusion w).feeding := by
  simp only [feeding, Prod.mk.injEq] at h
  unfold setExtrusion
  rw [hw]
  cases w.value? 'E' with
  | none => exact Prod.ext h.1 h.2
  | some amount => exact Prod.ext rfl h.2

theorem resolveExtrusion_congr (h : m.feeding = n.feeding) (hw : v.value? 'E' = w.value? 'E') :
    m.resolveExtrusion v = n.resolveExtrusion w := by
  simp only [feeding, Prod.mk.injEq] at h
  unfold resolveExtrusion
  rw [hw, h.1, h.2]

theorem blind_feeding :
    Blind ['X', 'Y', 'Z'] ["G90", "G91"] feeding (fun _ => (none : Option Unit)) where
  reword {m n v w} command h hw := by
    have hE := hw 'E' (by decide)
    refine ⟨?_, by rw [Option.bind_fun_none, Option.bind_fun_none]⟩
    unfold execute
    split_ifs
    · rw [feeding_setPositioning, feeding_setPositioning]
      exact h
    · exact feeding_setExtrusionMode command h
    · exact feeding_setExtrusion h hE
    · have hamount := resolveExtrusion_congr h hE
      simp only [feeding, Prod.mk.injEq] at h
      rw [modal_linearMove, modal_linearMove, hamount]
      exact congrArg (_, ·) h.2
    · exact h
  skip m words command hcommand := by
    simp only [List.mem_cons, List.not_mem_nil, or_false] at hcommand
    rcases hcommand with rfl | rfl <;> exact ⟨rfl, rfl⟩

end ModalState

/-! ### Both -/

theorem Program.points_eq_flatMap (segments : List Segment) :
    Program.points segments = (segments.map Segment.ends).flatMap fun ends => [ends.1, ends.2] := by
  rw [List.flatMap_map]
  rfl

theorem Program.box_congr {P Q : List Segment} (h : P.map Segment.ends = Q.map Segment.ends) :
    Program.box ⟨P⟩ = Program.box ⟨Q⟩ := by
  unfold Program.box
  rw [Program.points_eq_flatMap, Program.points_eq_flatMap, h]

/-- From any state, programs that differ in `E` words and in lines that set the extrusion mode or
amount have segments with the same ends, hence the same box, and leave the same position and
positioning mode; programs that differ in axis words and in lines that set the positioning mode
leave the same amount and extrusion mode. -/
theorem Toolpath.geometry_extrusion_apart (m : ModalState) (P Q : List (Option Line)) :
    (Edited ['E'] ["M82", "M83", "G92"] P Q →
      (ofParsed m P).segments.toList.map Segment.ends =
          (ofParsed m Q).segments.toList.map Segment.ends ∧
        Program.box ⟨(ofParsed m P).segments.toList⟩ =
          Program.box ⟨(ofParsed m Q).segments.toList⟩ ∧
        (ofParsed m P).modal.position = (ofParsed m Q).modal.position ∧
        (ofParsed m P).modal.positioning = (ofParsed m Q).modal.positioning) ∧
    (Edited ['X', 'Y', 'Z'] ["G90", "G91"] P Q →
      (ofParsed m P).modal.extrusion = (ofParsed m Q).modal.extrusion ∧
        (ofParsed m P).modal.extrusionMode = (ofParsed m Q).modal.extrusionMode) := by
  constructor
  · intro h
    obtain ⟨hplacing, hshown⟩ := ofParsed_blind ModalState.blind_placing h (m := m) rfl
    rw [List.filterMap_eq_map'] at hshown
    exact ⟨hshown, Program.box_congr hshown, congrArg Prod.fst hplacing, congrArg Prod.snd hplacing⟩
  · intro h
    obtain ⟨hfeeding, -⟩ := ofParsed_blind ModalState.blind_feeding h (m := m) rfl
    exact ⟨congrArg Prod.fst hfeeding, congrArg Prod.snd hfeeding⟩

/- A relative move against an infinite coordinate leaves one that is not a number, and the move after
it starts from there. -/
theorem Toolpath.geometry_extrusion_apart_infinite :
    let P : List (Option Line) :=
      [some ⟨some "G1", [('X', .infinity false), ('Y', 0), ('E', 1)]⟩, some ⟨some "G91", []⟩,
        some ⟨some "G1", [('E', .infinity true), ('X', .infinity true)]⟩,
        some ⟨some "M82", []⟩, some ⟨some "G1", [('X', 1)]⟩]
    let Q : List (Option Line) :=
      [some ⟨some "M83", []⟩, some ⟨some "G1", [('X', .infinity false), ('Y', 0)]⟩,
        some ⟨some "G91", []⟩, some ⟨some "G92", [('E', 7)]⟩,
        some ⟨some "G1", [('X', .infinity true)]⟩, some ⟨some "G1", [('X', 1), ('E', 2)]⟩]
    let R : List (Option Line) :=
      [some ⟨some "G91", []⟩, some ⟨some "G1", [('E', 1), ('Z', 3)]⟩,
        some ⟨some "G1", [('E', .infinity true)]⟩, some ⟨some "M82", []⟩, some ⟨some "G1", []⟩]
    Edited ['E'] ["M82", "M83", "G92"] P Q ∧ Edited ['X', 'Y', 'Z'] ["G90", "G91"] P R ∧
      (ofParsed {} Q).segments.toList.map Segment.ends =
        [(⟨.infinity false, 0, 0⟩, ⟨.nan, 0, 0⟩), (⟨.nan, 0, 0⟩, ⟨.nan, 0, 0⟩)] ∧
      (ofParsed {} P).segments.toList.map Segment.ends =
        (ofParsed {} Q).segments.toList.map Segment.ends ∧
      (ofParsed {} P).modal.extrusion = (ofParsed {} R).modal.extrusion := by
  intro P Q R
  have hQ : Edited ['E'] ["M82", "M83", "G92"] P Q :=
    .insert rfl (by decide) (.reword (.of_filter rfl rfl) (.reword (.of_filter rfl rfl)
      (.insert rfl (by decide) (.reword (.of_filter rfl rfl) (.delete rfl (by decide)
        (.reword (.of_filter rfl rfl) .done))))))
  have hR : Edited ['X', 'Y', 'Z'] ["G90", "G91"] P R :=
    .insert rfl (by decide) (.reword (.of_filter rfl rfl) (.delete rfl (by decide)
      (.reword (.of_filter rfl rfl) (.reword (.of_filter rfl rfl)
        (.reword (.of_filter rfl rfl) .done)))))
  refine ⟨hQ, hR, ?_, ((geometry_extrusion_apart {} P Q).1 hQ).1,
    ((geometry_extrusion_apart {} P R).2 hR).1⟩
  decide +kernel

end VirtualPrinter
