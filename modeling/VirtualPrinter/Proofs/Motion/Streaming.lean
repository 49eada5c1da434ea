import VirtualPrinter.Proofs.GCode.Significant
import VirtualPrinter.Program.Basic

/-!
# Programs in pieces

A program cut between two lines is interpreted piece by piece: the second piece goes on from the
state that the first one left. What ends a line is a line feed, alone or behind a carriage return;
whether the carriage return counts as part of the line makes no difference.
-/

namespace VirtualPrinter

/-! ### Lines of a text -/

theorem exists_splitLines (text : List Char) : ∃ line later, splitLines text = line :: later := by
  unfold splitLines
  cases text with
  | nil => exact ⟨[], [], rfl⟩
  | cons c text =>
    rw [List.foldr_cons]
    split
    · exact ⟨_, _, rfl⟩
    · split
      · exact ⟨_, _, rfl⟩
      · exact ⟨_, _, rfl⟩

theorem splitLines_cons_feed (text : List Char) :
    splitLines ('\n' :: text) = [] :: splitLines text := by
  simp only [splitLines, List.foldr_cons, if_true]

theorem splitLines_start_append {start text line : List Char} {later : List (List Char)}
    (hstart : '\n' ∉ start) (h : splitLines text = line :: later) :
    splitLines (start ++ text) = (start ++ line) :: later := by
  induction start with
  | nil => exact h
  | cons c start ih =>
    rw [List.mem_cons, not_or] at hstart
    have hc : c ≠ '\n' := fun hc => hstart.1 hc.symm
    have hrest := ih hstart.2
    unfold splitLines at hrest ⊢
    rw [List.cons_append, List.foldr_cons, if_neg hc, hrest]
    rfl

theorem splitLines_line {line : List Char} (h : '\n' ∉ line) : splitLines line = [line] := by
  have hempty : splitLines [] = [[]] := rfl
  have hsplit := splitLines_start_append h hempty
  rwa [List.append_nil] at hsplit

theorem splitLines_line_feed {line : List Char} (h : '\n' ∉ line) (text : List Char) :
    splitLines (line ++ '\n' :: text) = line :: splitLines text := by
  rw [splitLines_start_append h (splitLines_cons_feed text), List.append_nil]

/- A text is one line, or it is a line with a line feed behind it and then a text. -/
theorem lineInduction {P : List Char → Prop} (last : ∀ line, '\n' ∉ line → P line)
    (feed : ∀ line text, '\n' ∉ line → P text → P (line ++ '\n' :: text)) (text : List Char) :
    P text := by
  induction hlength : text.length using Nat.strong_induction_on generalizing text with
  | _ length ih =>
    by_cases hfeed : '\n' ∈ text
    · obtain ⟨line, rest, rfl, hline⟩ := List.eq_append_cons_of_mem hfeed
      rw [List.length_append, List.length_cons] at hlength
      exact feed line rest hline (ih rest.length (by omega) rest rfl)
    · exact last text hfeed

theorem splitLines_append_feed (before text : List Char) :
    splitLines (before ++ '\n' :: text) = splitLines before ++ splitLines text := by
  induction before using lineInduction with
  | last line h => rw [splitLines_line_feed h, splitLines_line h, List.singleton_append]
  | feed line rest h ih =>
    rw [List.append_assoc, List.cons_append, splitLines_line_feed h, splitLines_line_feed h, ih,
      List.cons_append]

/-! ### What ends a line -/

/-- A text cut into its lines. A line feed ends a line, together with a carriage return right before
it, and nothing else does. -/
inductive Cut : List Char → List (List Char) → Prop
  | last {line : List Char} (hline : '\n' ∉ line) : Cut line [line]
  | feed {line text : List Char} {lines : List (List Char)} (hline : '\n' ∉ line)
      (hreturn : line.getLast? ≠ some '\r') (hrest : Cut text lines) :
      Cut (line ++ '\n' :: text) (line :: lines)
  | returnFeed {line text : List Char} {lines : List (List Char)} (hline : '\n' ∉ line)
      (hrest : Cut text lines) : Cut (line ++ '\r' :: '\n' :: text) (line :: lines)

def dropReturn (line : List Char) : List Char :=
  if line.getLast? = some '\r' then line.dropLast else line

/-- Lines without a carriage return at the end of each but the last. -/
def dropReturns : List (List Char) → List (List Char)
  | [] => []
  | [last] => [last]
  | line :: next :: lines => dropReturn line :: dropReturns (next :: lines)

theorem dropReturn_append (line : List Char) : dropReturn (line ++ ['\r']) = line := by
  simp [dropReturn]

theorem dropReturn_cases (line : List Char) :
    (line.getLast? ≠ some '\r' ∧ dropReturn line = line) ∨ line = dropReturn line ++ ['\r'] := by
  by_cases h : line.getLast? = some '\r'
  · obtain ⟨start, rfl⟩ := List.getLast?_eq_some_iff.1 h
    rw [dropReturn_append]
    exact Or.inr rfl
  · exact Or.inl ⟨h, if_neg h⟩

theorem dropReturns_cons {lines : List (List Char)} (h : lines ≠ []) (line : List Char) :
    dropReturns (line :: lines) = dropReturn line :: dropReturns lines := by
  cases lines with
  | nil => contradiction
  | cons next lines => rfl

theorem splitLines_ne_nil (text : List Char) : splitLines text ≠ [] := by
  obtain ⟨line, later, h⟩ := exists_splitLines text
  rw [h]
  exact List.cons_ne_nil _ _

theorem cut_splitLines (text : List Char) : Cut text (dropReturns (splitLines text)) := by
  induction text using lineInduction with
  | last line h =>
    rw [splitLines_line h]
    exact .last h
  | feed line text h ih =>
    rw [splitLines_line_feed h, dropReturns_cons (splitLines_ne_nil text)]
    rcases dropReturn_cases line with ⟨hreturn, hsame⟩ | hline
    · rw [hsame]
      exact .feed h hreturn ih
    · generalize dropReturn line = start at hline
      subst hline
      rw [List.append_assoc, List.singleton_append]
      exact .returnFeed (fun hmem => h (List.mem_append_left _ hmem)) ih

/- There is one way only to cut a text. -/
theorem cut_iff {text : List Char} {lines : List (List Char)} :
    Cut text lines ↔ lines = dropReturns (splitLines text) := by
  constructor
  · intro h
    induction h with
    | last hline =>
      rw [splitLines_line hline]
      rfl
    | @feed line text lines hline hreturn hrest ih =>
      rw [splitLines_line_feed hline, dropReturns_cons (splitLines_ne_nil text), ← ih, dropReturn,
        if_neg hreturn]
    | @returnFeed line text lines hline hrest ih =>
      have hwhole : '\n' ∉ line ++ ['\r'] := by
        simpa using hline
      have hsplit := splitLines_line_feed hwhole text
      rw [List.append_assoc, List.singleton_append] at hsplit
      rw [hsplit, dropReturns_cons (splitLines_ne_nil text), ← ih, dropReturn_append]
  · rintro rfl
    exact cut_splitLines text

/-! ### One toolpath after another -/

namespace Toolpath

variable {first second : Toolpath}

/-- A toolpath with another behind it, which starts from the state that it left. -/
def followedBy (first second : Toolpath) : Toolpath where
  modal := second.modal
  segments := first.segments ++ second.segments
  skipped := first.skipped ++ second.skipped
  fault := second.fault

theorem followedBy_start (h : first.fault = none) :
    first.followedBy { modal := first.modal } = first := by
  obtain ⟨modal, segments, skipped, fault⟩ := first
  cases h
  simp [followedBy]

theorem step_followedBy (first second : Toolpath) (line : List Char) :
    (first.followedBy second).step line = first.followedBy (second.step line) := by
  have hmodal : (first.followedBy second).modal = second.modal := rfl
  have hfault : (first.followedBy second).fault = second.fault := rfl
  unfold step
  rw [hmodal, hfault]
  split
  · rfl
  · split
    · rfl
    · simp only [followedBy, extend, Array.append_assoc]

theorem foldl_followedBy (first second : Toolpath) (lines : List (List Char)) :
    lines.foldl step (first.followedBy second) = first.followedBy (lines.foldl step second) := by
  induction lines generalizing second with
  | nil => rfl
  | cons line lines ih => rw [List.foldl_cons, List.foldl_cons, step_followedBy, ih]

theorem ofLines_followedBy {m : ModalState} {before after : List (List Char)}
    (h : (ofLines m before).fault = none) :
    ofLines m (before ++ after) =
      (ofLines m before).followedBy (ofLines (ofLines m before).modal after) := by
  calc ofLines m (before ++ after) = after.foldl step (ofLines m before) := List.foldl_append
    _ = after.foldl step
          ((ofLines m before).followedBy { modal := (ofLines m before).modal }) := by
      rw [followedBy_start h]
    _ = (ofLines m before).followedBy (ofLines (ofLines m before).modal after) :=
      foldl_followedBy _ _ _

/-! ### Lines that read alike -/

theorem step_congr {line other : List Char} (h : GCode.Line.parse line = GCode.Line.parse other)
    (path : Toolpath) : path.step line = path.step other := by
  unfold step
  rw [h]

theorem foldl_step_congr {lines others : List (List Char)}
    (h : List.Forall₂ (fun line other => GCode.Line.parse line = GCode.Line.parse other) lines others)
    (path : Toolpath) : lines.foldl step path = others.foldl step path := by
  induction h generalizing path with
  | nil => rfl
  | cons hline hlines ih => rw [List.foldl_cons, List.foldl_cons, step_congr hline, ih]

theorem parse_dropReturn (line : List Char) :
    GCode.Line.parse (dropReturn line) = GCode.Line.parse line := by
  rcases dropReturn_cases line with ⟨-, hsame⟩ | hline
  · rw [hsame]
  · apply GCode.Line.parse_congr
    conv_rhs => rw [hline]
    refine (GCode.significant_append_of_blank ?_ _).symm
    decide

theorem forall₂_dropReturns (lines : List (List Char)) :
    List.Forall₂ (fun line other => GCode.Line.parse line = GCode.Line.parse other)
      (dropReturns lines) lines := by
  induction lines with
  | nil => exact .nil
  | cons line lines ih =>
    by_cases hlast : lines = []
    · rw [hlast]
      exact .cons rfl .nil
    · rw [dropReturns_cons hlast]
      exact .cons (parse_dropReturn line) ih

/-- A text that is put behind another, on a new line, goes on from the state that the other one left,
if no line of that is a fault: its segments come behind the other ones, and the state and the fault
are the ones it ends with. The lines of a text are those that it is cut into at its line feeds, with
or without a carriage return, and nowhere else. -/
theorem ofText_followedBy (m : ModalState) (a b : String) (h : (ofText m a).fault = none) :
    ofText m (a ++ "\n" ++ b) = (ofText m a).followedBy (ofText (ofText m a).modal b) ∧
      ∀ text : String, ∃ lines, (∀ other, Cut text.toList other ↔ other = lines) ∧
        ofText m text = ofLines m lines := by
  constructor
  · have hlines : splitLines (a ++ "\n" ++ b).toList = splitLines a.toList ++ splitLines b.toList := by
      rw [String.toList_append, String.toList_append, List.append_assoc]
      exact splitLines_append_feed a.toList b.toList
    unfold ofText at h ⊢
    rw [hlines]
    exact ofLines_followedBy h
  · intro text
    refine ⟨dropReturns (splitLines text.toList), fun other => cut_iff, ?_⟩
    exact (foldl_step_congr (forall₂_dropReturns _) _).symm

/- The first piece ends in a comment and two carriage returns; a form feed, a line separator and a
lone carriage return leave the second one a single line. -/
theorem ofText_followedBy_returns :
    let a := "G1 X0 Y0\r\nG91\nG1 X5 E1 ; out\r\r"
    let b := "G1 X1\x0cY2\u2028E3\rG1 X9"
    (ofText {} a).fault = none ∧
      ofText {} (a ++ "\n" ++ b) = (ofText {} a).followedBy (ofText (ofText {} a).modal b) ∧
      ((ofText {} a).followedBy (ofText (ofText {} a).modal b)).segments =
        #[⟨⟨0, 0, 0⟩, ⟨5, 0, 0⟩, true⟩, ⟨⟨5, 0, 0⟩, ⟨6, 2, 0⟩, true⟩] := by
  intro a b
  have h : (ofText {} a).fault = none := by decide +kernel
  refine ⟨h, (ofText_followedBy {} a b h).1, ?_⟩
  decide +kernel

end Toolpath

end VirtualPrinter
