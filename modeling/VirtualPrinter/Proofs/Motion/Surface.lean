import Mathlib.Logic.Relation
import VirtualPrinter.Proofs.GCode.Names
import VirtualPrinter.Proofs.Motion.Streaming

/-!
# The surface of a program

How a program is written down leaves no trace in its toolpath: the ends of its lines, the case of its
letters, blanks around lines, comments, and lines that name no supported command.
-/

namespace VirtualPrinter

open GCode (WordAt isCommandLetter significant)
open Text (AllBlank)

/-! ### Places in a text -/

/-- A line starts behind this part of a text. -/
def LineStart (before : List Char) : Prop := before = [] ∨ before.getLast? = some '\n'

/-- A line ends before this part of a text. -/
def LineEnd (after : List Char) : Prop :=
  after = [] ∨ after.head? = some '\n' ∨ ['\r', '\n'] <+: after

theorem LineStart.of_line {line : List Char} (h : LineStart line) (hline : '\n' ∉ line) :
    line = [] := by
  rcases h with h | h
  · exact h
  · exact absurd (List.mem_of_getLast? h) hline

theorem LineStart.of_line_feed {line text : List Char} (h : LineStart (line ++ '\n' :: text)) :
    LineStart text := by
  by_cases hnil : text = []
  · exact Or.inl hnil
  · rcases h with h | h
    · simp at h
    · rw [List.getLast?_append_cons, List.getLast?_cons_of_ne_nil hnil] at h
      exact Or.inr h

/- What stands before a place does not change the lines that begin behind it. -/
theorem exists_lines_before (before : List Char) :
    ∃ earlier start, '\n' ∉ start ∧ (LineStart before → start = []) ∧
      ∀ text, splitLines (before ++ text) = earlier ++ splitLines (start ++ text) := by
  induction before using lineInduction with
  | last line hline => exact ⟨[], line, hline, fun h => h.of_line hline, fun _ => rfl⟩
  | feed line before hline ih =>
    obtain ⟨earlier, start, hstart, hempty, hlines⟩ := ih
    refine ⟨line :: earlier, start, hstart, fun h => hempty h.of_line_feed, fun text => ?_⟩
    rw [List.append_assoc, List.cons_append, splitLines_line_feed hline, hlines, List.cons_append]

theorem exists_line_behind (after : List Char) :
    ∃ stop later, (LineEnd after → stop = [] ∨ stop = ['\r']) ∧
      splitLines after = stop :: later := by
  obtain ⟨stop, later, hlines⟩ := exists_splitLines after
  refine ⟨stop, later, ?_, hlines⟩
  rintro (rfl | hfeed | ⟨rest, rfl⟩)
  · cases hlines
    exact Or.inl rfl
  · obtain ⟨rest, rfl⟩ := List.head?_eq_some_iff.1 hfeed
    rw [splitLines_cons_feed] at hlines
    cases hlines
    exact Or.inl rfl
  · have hreturn : '\n' ∉ ['\r'] := by decide
    have hsplit : splitLines (['\r', '\n'] ++ rest) = ['\r'] :: splitLines rest :=
      splitLines_line_feed hreturn rest
    rw [hsplit] at hlines
    cases hlines
    exact Or.inr rfl

/-! ### Lines that do nothing -/

/-- A line that is blank or a comment, that has no command word at its start, or that names another
command than the supported ones. -/
inductive Passive (line : List Char) : Prop
  | blank (h : AllBlank (line.takeWhile (· ≠ ';')))
  | nameless (h : ∀ letter n, WordAt (significant line) 0 letter n → isCommandLetter letter = false)
  | unsupported {parsed : Option GCode.Line} {name : String}
      (hparse : GCode.Line.parse line = .ok parsed) (hname : GCode.Line.command? parsed = some name)
      (h : name ∉ supportedCommands)

theorem skipped_of_nameless {line : List Char}
    (h : ∀ letter n, WordAt (significant line) 0 letter n → isCommandLetter letter = false) :
    ¬ GCode.Oversized line ∧ isSupported line = false := by
  constructor
  · rintro ⟨letter, n, hat, hletter, -⟩
    rw [h letter n hat] at hletter
    contradiction
  · rw [Bool.eq_false_iff]
    intro hs
    obtain ⟨letter, n, hat, hnear⟩ := (isSupported_iff line).1 hs
    have hletter := hnear.isCommandLetter
    rw [h letter n hat] at hletter
    contradiction

theorem Passive.skipped {line : List Char} (h : Passive line) :
    ¬ GCode.Oversized line ∧ isSupported line = false := by
  cases h with
  | blank h =>
    have hempty : significant line = [] := GCode.significant_append_of_blank h []
    refine skipped_of_nameless fun letter n hat => ?_
    rw [hempty] at hat
    exact absurd hat.letterAt (by simp)
  | nameless h => exact skipped_of_nameless h
  | unsupported hparse hname h =>
    constructor
    · intro ho
      rw [GCode.Line.parse_of_oversized ho] at hparse
      contradiction
    · simp [isSupported, hparse, hname, h]

/-! ### Texts written differently -/

/-- One change to the way a text is written. -/
inductive Restyled : List Char → List Char → Prop
  | lineEnd (before after : List Char) :
      Restyled (before ++ '\n' :: after) (before ++ '\r' :: '\n' :: after)
  | letterCase (before after : List Char) {c d : Char} (h : c.toUpper = d.toUpper) :
      Restyled (before ++ c :: after) (before ++ d :: after)
  | blanksBefore (before blanks after : List Char) (hstart : LineStart before)
      (hblanks : AllBlank blanks) (hline : '\n' ∉ blanks) :
      Restyled (before ++ after) (before ++ (blanks ++ after))
  | blanksBehind (before blanks after : List Char) (hend : LineEnd after)
      (hblanks : AllBlank blanks) (hline : '\n' ∉ blanks) :
      Restyled (before ++ after) (before ++ (blanks ++ after))
  | comment (before remark after : List Char) (hend : LineEnd after) (hremark : '\n' ∉ remark) :
      Restyled (before ++ after) (before ++ (';' :: remark ++ after))
  | lineBefore (before line after : List Char) (hstart : LineStart before) (hline : '\n' ∉ line)
      (hpassive : Passive line) : Restyled (before ++ after) (before ++ (line ++ '\n' :: after))
  | lineBehind (text line : List Char) (hline : '\n' ∉ line) (hpassive : Passive line) :
      Restyled text (text ++ '\n' :: line)

namespace Toolpath

variable {a b : Toolpath} {m : ModalState}

theorem SameMotion.of_eq (h : a = b) : SameMotion a b := by
  rw [h]
  exact ⟨rfl, rfl, rfl⟩

theorem SameMotion.trans {c : Toolpath} (h : SameMotion a b) (h' : SameMotion b c) :
    SameMotion a c :=
  ⟨h.modal.trans h'.modal, h.segments.trans h'.segments, h.fault.trans h'.fault⟩

theorem SameMotion.foldl (h : SameMotion a b) (lines : List (List Char)) :
    SameMotion (lines.foldl step a) (lines.foldl step b) := by
  induction lines generalizing a b with
  | nil => exact h
  | cons line lines ih => exact ih (h.step_both line)

theorem ofLines_congr {line other : List Char} (h : significant line = significant other)
    (m : ModalState) (earlier later : List (List Char)) :
    ofLines m (earlier ++ line :: later) = ofLines m (earlier ++ other :: later) := by
  unfold ofLines
  rw [List.foldl_append, List.foldl_append, List.foldl_cons, List.foldl_cons,
    step_congr (GCode.Line.parse_congr h)]

theorem sameMotion_passive {line : List Char} (h : Passive line) (m : ModalState)
    (earlier later : List (List Char)) :
    SameMotion (ofLines m (earlier ++ later)) (ofLines m (earlier ++ line :: later)) := by
  obtain ⟨ho, hs⟩ := h.skipped
  have hskip := step_unsupported ho hs (ofLines m earlier)
  unfold ofLines at hskip ⊢
  rw [List.foldl_append, List.foldl_append, List.foldl_cons]
  exact SameMotion.foldl ⟨hskip.modal.symm, hskip.segments.symm, hskip.fault.symm⟩ later

/- A change within a line: what counts is how the whole line reads before and after it. -/
theorem ofLines_change {before after x y : List Char} (hx : '\n' ∉ x) (hy : '\n' ∉ y)
    (h : ∀ start stop : List Char, (LineStart before → start = []) →
      (LineEnd after → stop = [] ∨ stop = ['\r']) →
        significant (start ++ x ++ stop) = significant (start ++ y ++ stop)) (m : ModalState) :
    ofLines m (splitLines (before ++ (x ++ after))) =
      ofLines m (splitLines (before ++ (y ++ after))) := by
  obtain ⟨earlier, start, hstart, hempty, hbefore⟩ := exists_lines_before before
  obtain ⟨stop, later, hstop, hafter⟩ := exists_line_behind after
  have hwhole : ∀ z, '\n' ∉ z →
      splitLines (before ++ (z ++ after)) = earlier ++ (start ++ z ++ stop) :: later := by
    intro z hz
    have hfree : '\n' ∉ start ++ z := by
      rw [List.mem_append, not_or]
      exact ⟨hstart, hz⟩
    rw [hbefore, ← List.append_assoc, splitLines_start_append hfree hafter]
  rw [hwhole x hx, hwhole y hy]
  exact ofLines_congr (h start stop hempty hstop) m earlier later

theorem ofLines_behind {before after x : List Char} (hend : LineEnd after) (hx : '\n' ∉ x)
    (h : ∀ stop : List Char, stop = [] ∨ stop = ['\r'] →
      AllBlank ((x ++ stop).takeWhile (· ≠ ';'))) (m : ModalState) :
    ofLines m (splitLines (before ++ after)) = ofLines m (splitLines (before ++ (x ++ after))) := by
  refine ofLines_change (x := []) List.not_mem_nil hx (fun start stop _ hstop => ?_) m
  have hblank : AllBlank (stop.takeWhile (· ≠ ';')) := by
    rcases hstop hend with rfl | rfl
    · decide
    · decide
  rw [List.append_nil, List.append_assoc, GCode.significant_append_of_blank hblank,
    GCode.significant_append_of_blank (h stop (hstop hend))]

theorem ofLines_blanksBehind {before after blanks : List Char} (hend : LineEnd after)
    (hblanks : AllBlank blanks) (hline : '\n' ∉ blanks) (m : ModalState) :
    ofLines m (splitLines (before ++ after)) =
      ofLines m (splitLines (before ++ (blanks ++ after))) := by
  refine ofLines_behind hend hline (fun stop hstop c hc => ?_) m
  rcases List.mem_append.1 ((List.takeWhile_prefix _).subset hc) with hc | hc
  · exact hblanks c hc
  · rcases hstop with rfl | rfl
    · contradiction
    · rw [List.mem_singleton.1 hc]
      decide

theorem ofLines_letterCase {c d : Char} (h : c.toUpper = d.toUpper) (before after : List Char)
    (m : ModalState) :
    ofLines m (splitLines (before ++ c :: after)) =
      ofLines m (splitLines (before ++ d :: after)) := by
  by_cases hfeed : c = '\n'
  · -- A line feed has no case.
    have hother : d = '\n' := by
      rw [← Text.toUpper_eq_iff (by decide), ← h, hfeed]
      decide
    rw [hfeed, hother]
  · have hother : d ≠ '\n' := by
      rwa [ne_eq, ← Text.toUpper_eq_iff (by decide), ← h, Text.toUpper_eq_iff (by decide)]
    have hc : '\n' ∉ [c] := fun hmem => hfeed (List.mem_singleton.1 hmem).symm
    have hd : '\n' ∉ [d] := fun hmem => hother (List.mem_singleton.1 hmem).symm
    refine ofLines_change hc hd (fun start stop _ _ => ?_) m
    rw [← GCode.significant_map_toUpper, ← GCode.significant_map_toUpper (start ++ [d] ++ stop)]
    simp only [List.map_append, List.map_cons, List.map_nil, h]

theorem sameMotion_lineBefore {before line : List Char} (hstart : LineStart before)
    (hline : '\n' ∉ line) (hpassive : Passive line) (after : List Char) (m : ModalState) :
    SameMotion (ofLines m (splitLines (before ++ after)))
      (ofLines m (splitLines (before ++ (line ++ '\n' :: after)))) := by
  obtain ⟨earlier, start, -, hempty, hlines⟩ := exists_lines_before before
  rw [hlines, hlines, hempty hstart, List.nil_append, List.nil_append, splitLines_line_feed hline]
  exact sameMotion_passive hpassive m earlier (splitLines after)

theorem sameMotion_lineBehind {line : List Char} (hline : '\n' ∉ line) (hpassive : Passive line)
    (text : List Char) (m : ModalState) :
    SameMotion (ofLines m (splitLines text)) (ofLines m (splitLines (text ++ '\n' :: line))) := by
  have hskip := sameMotion_passive hpassive m (splitLines text) []
  rw [List.append_nil] at hskip
  rwa [splitLines_append_feed, splitLines_line hline]

theorem sameMotion_restyled {x y : List Char} (h : Restyled x y) (m : ModalState) :
    SameMotion (ofLines m (splitLines x)) (ofLines m (splitLines y)) := by
  cases h with
  | lineEnd before after =>
    have hreturn : AllBlank ['\r'] := by decide
    exact .of_eq (ofLines_blanksBehind (Or.inr (Or.inl rfl)) hreturn (by decide) m)
  | letterCase before after h => exact .of_eq (ofLines_letterCase h before after m)
  | blanksBefore before blanks after hstart hblanks hline =>
    refine .of_eq (ofLines_change (x := []) List.not_mem_nil hline ?_ m)
    intro start stop hempty _
    rw [hempty hstart, List.nil_append, List.nil_append, List.nil_append,
      GCode.significant_blanks_append hblanks]
  | blanksBehind before blanks after hend hblanks hline =>
    exact .of_eq (ofLines_blanksBehind hend hblanks hline m)
  | comment before remark after hend hremark =>
    have hfree : '\n' ∉ ';' :: remark := by simpa using hremark
    refine .of_eq (ofLines_behind hend hfree (fun stop _ c hc => ?_) m)
    simp at hc
  | lineBefore before line after hstart hline hpassive =>
    exact sameMotion_lineBefore hstart hline hpassive after m
  | lineBehind _ line hline hpassive => exact sameMotion_lineBehind hline hpassive x m

/-- However a text is written differently, by any changes one after the other, it has the same
segments, leaves the same modal state and fails at a fault alike. So it is the same program: box,
layers, endpoints and duration are taken from the segments. -/
theorem ofText_restyled {a b : String} (h : Relation.ReflTransGen Restyled a.toList b.toList)
    (m : ModalState) :
    SameMotion (ofText m a) (ofText m b) ∧ (ofText m a).program = (ofText m b).program := by
  have hmotion : SameMotion (ofText m a) (ofText m b) := by
    unfold ofText
    generalize a.toList = x at h ⊢
    generalize b.toList = y at h ⊢
    induction h with
    | refl => exact .of_eq rfl
    | tail _ hstep ih => exact ih.trans (sameMotion_restyled hstep m)
  refine ⟨hmotion, ?_⟩
  unfold Toolpath.program
  rw [hmotion.fault, hmotion.segments]

/- Every kind of change, made one after the other. -/
theorem ofText_restyled_all :
    Relation.ReflTransGen Restyled "G1 X0 Y0\nG1 X5 E1".toList
        " \x0cG1 X0 y0\u2003;up\r\nG0\nG1 X5 E1\n;G1".toList ∧
      SameMotion (ofText {} "G1 X0 Y0\nG1 X5 E1")
        (ofText {} " \x0cG1 X0 y0\u2003;up\r\nG0\nG1 X5 E1\n;G1") ∧
      (ofText {} " \x0cG1 X0 y0\u2003;up\r\nG0\nG1 X5 E1\n;G1").segments =
        #[⟨⟨0, 0, 0⟩, ⟨5, 0, 0⟩, true⟩] := by
  have hpassive : Passive "G0".toList := by
    have hcommand : (GCode.Line.parse "G0".toList).map GCode.Line.command? = .ok (some "G0") := by
      decide +kernel
    obtain ⟨parsed, hparse, hname⟩ := exists_of_map_eq_ok hcommand
    exact .unsupported hparse hname (by decide)
  have hlineEnd := Restyled.lineEnd "G1 X0 Y0".toList "G1 X5 E1".toList
  have hcase := Restyled.letterCase "G1 X0 ".toList "0\r\nG1 X5 E1".toList (c := 'Y') (d := 'y')
    (by decide)
  have hbefore := Restyled.blanksBefore [] " \x0c".toList "G1 X0 y0\r\nG1 X5 E1".toList
    (Or.inl rfl) (by decide) (by decide)
  have hbehind := Restyled.blanksBehind " \x0cG1 X0 y0".toList "\u2003".toList
    "\r\nG1 X5 E1".toList (Or.inr (Or.inr (by decide))) (by decide) (by decide)
  have hcomment := Restyled.comment " \x0cG1 X0 y0\u2003".toList "up".toList
    "\r\nG1 X5 E1".toList (Or.inr (Or.inr (by decide))) (by decide)
  have hinsert := Restyled.lineBefore " \x0cG1 X0 y0\u2003;up\r\n".toList "G0".toList
    "G1 X5 E1".toList (Or.inr (by decide)) (by decide) hpassive
  have happend := Restyled.lineBehind " \x0cG1 X0 y0\u2003;up\r\nG0\nG1 X5 E1".toList ";G1".toList
    (by decide) (.blank (by decide))
  have h : Relation.ReflTransGen Restyled "G1 X0 Y0\nG1 X5 E1".toList
      " \x0cG1 X0 y0\u2003;up\r\nG0\nG1 X5 E1\n;G1".toList := by
    simp only [String.reduceToList, List.cons_append, List.nil_append]
      at hlineEnd hcase hbefore hbehind hcomment hinsert happend ⊢
    exact .head hlineEnd (.head hcase (.head hbefore (.head hbehind (.head hcomment
      (.head hinsert (.single happend))))))
  refine ⟨h, (ofText_restyled h {}).1, ?_⟩
  decide +kernel

end Toolpath

end VirtualPrinter
