import VirtualPrinter.Proofs.GCode.Words
import VirtualPrinter.Proofs.Motion.Lines

/-!
# Faults of a program text

The code of a leading command is the only thing in a text that can be a fault, and it is one from
the number on at which values overflow. Up to the first such line a text is interpreted, and of its
lines only those with one of the six supported commands count.
-/

namespace VirtualPrinter

/-! ### Codes that are no numbers -/

namespace GCode

variable {text : List Char} {letter : Char} {n : Numeral} {fault : Binary64.IntegerFault}

/-- The line names a command by a code that is beyond all finite values. -/
def Oversized (text : List Char) : Prop :=
  ∃ letter n, WordAt (significant text) 0 letter n ∧ isCommandLetter letter = true ∧
    overflowBound ≤ |n.exact|

theorem Numeral.value_cases (n : Numeral) :
    (∃ s m, n.value = .finite s m ∧ |n.exact| < overflowBound) ∨
      (∃ s, n.value = .infinity s ∧ overflowBound ≤ |n.exact|) := by
  have hnearest := n.value_isNearest
  generalize n.value = value at hnearest
  cases hnearest with
  | finite hrange hnear => exact Or.inl ⟨_, _, rfl, hrange⟩
  | infinite hrange => exact Or.inr ⟨_, rfl, hrange⟩

theorem exists_commandName (name : String) (s : Bool) (m : Magnitude) :
    ∃ command, commandName name (.finite s m) = .ok command :=
  ⟨_, rfl⟩

theorem commandName_error_iff {name : String} :
    commandName name n.value = .error fault ↔ fault = .infinite ∧ overflowBound ≤ |n.exact| := by
  rcases n.value_cases with ⟨s, m, hvalue, hrange⟩ | ⟨s, hvalue, hrange⟩
  · obtain ⟨command, hcommand⟩ := exists_commandName name s m
    rw [hvalue, hcommand]
    constructor
    · nofun
    · intro h
      exact absurd h.2 hrange.not_ge
  · rw [hvalue]
    constructor
    · intro h
      cases h
      exact ⟨rfl, hrange⟩
    · rintro ⟨rfl, -⟩
      rfl

theorem leadingCommand_error_iff :
    leadingCommand text = .error fault ↔ fault = .infinite ∧
      ∃ letter n, WordAt text 0 letter n ∧ isCommandLetter letter = true ∧
        overflowBound ≤ |n.exact| := by
  have hmap : ∀ command : Except Binary64.IntegerFault String,
      command.map some = .error fault ↔ command = .error fault := by
    intro command
    cases command <;> simp [Except.map]
  constructor
  · intro h
    by_cases hword : ∃ letter n, WordAt text 0 letter n ∧ isCommandLetter letter = true
    · obtain ⟨letter, n, hword, hletter⟩ := hword
      rw [leadingCommand_of_wordAt hword hletter, hmap, commandName_error_iff] at h
      exact ⟨h.1, letter, n, hword, hletter, h.2⟩
    · rw [leadingCommand_of_none fun letter n hat =>
        Bool.eq_false_iff.2 fun hletter => hword ⟨letter, n, hat, hletter⟩] at h
      contradiction
  · rintro ⟨hfault, letter, n, hword, hletter, hrange⟩
    rw [leadingCommand_of_wordAt hword hletter, hmap, commandName_error_iff]
    exact ⟨hfault, hrange⟩

theorem Line.parse_error_iff : parse text = .error fault ↔ fault = .infinite ∧ Oversized text := by
  unfold Oversized
  rw [← leadingCommand_error_iff]
  unfold parse
  by_cases hblank : significant text = []
  · simp [hblank, leadingCommand]
  · cases hcommand : leadingCommand (significant text) with
    | error other => simp [hblank, hcommand]
    | ok command => simp [hblank, hcommand]

theorem Line.parse_of_oversized (h : Oversized text) : parse text = .error .infinite :=
  parse_error_iff.2 ⟨rfl, h⟩

theorem Line.exists_parse (h : ¬ Oversized text) : ∃ line, parse text = .ok line := by
  cases hparse : parse text with
  | error fault => exact absurd (parse_error_iff.1 hparse).2 h
  | ok line => exact ⟨line, rfl⟩

end GCode

/-! ### Lines that count -/

def supportedCommands : List String := ["G1", "G90", "G91", "G92", "M82", "M83"]

/-- The line names a supported command. -/
def isSupported (text : List Char) : Bool :=
  match GCode.Line.parse text with
  | .ok line => (GCode.Line.command? line).any (supportedCommands.contains ·)
  | .error _ => false

theorem ModalState.execute_unsupported (m : ModalState) {command : String} (words : Words)
    (h : supportedCommands.contains command = false) :
    m.execute command words = { modal := m, skipped := some command } := by
  simp only [supportedCommands, List.contains_eq_mem, List.mem_cons, List.not_mem_nil, or_false,
    decide_eq_false_iff_not, not_or] at h
  simp [execute, h]

/- Such a line is skipped, or it has no command. -/
theorem ModalState.interpret_unsupported (m : ModalState) {text : List Char}
    {line : Option GCode.Line} (hline : GCode.Line.parse text = .ok line)
    (hs : isSupported text = false) :
    (m.interpret line).modal = m ∧ (m.interpret line).segment = none := by
  simp only [isSupported, hline] at hs
  cases hcommand : GCode.Line.command? line with
  | none =>
    rw [interpret_of_command_none _ hcommand]
    exact ⟨rfl, rfl⟩
  | some command =>
    rw [hcommand] at hs
    obtain ⟨words, -, hexecute⟩ := interpret_of_command_some m hcommand
    rw [hexecute, execute_unsupported _ _ hs]
    exact ⟨rfl, rfl⟩

namespace Toolpath

open GCode (Oversized)

/-- Equal but for the commands that were skipped. -/
structure SameMotion (a b : Toolpath) : Prop where
  modal : a.modal = b.modal
  segments : a.segments = b.segments
  fault : a.fault = b.fault

variable {a b : Toolpath} {text : List Char} {lines : List (List Char)}

theorem SameMotion.step_both (h : SameMotion a b) (text : List Char) :
    SameMotion (a.step text) (b.step text) := by
  obtain ⟨modal, segments, skipped, fault⟩ := a
  obtain ⟨modal', segments', skipped', fault'⟩ := b
  obtain ⟨rfl, rfl, rfl⟩ := h
  unfold step
  split
  · exact ⟨rfl, rfl, rfl⟩
  · split
    · exact ⟨rfl, rfl, rfl⟩
    · exact ⟨rfl, rfl, rfl⟩

theorem step_of_fault (h : a.fault.isSome = true) (text : List Char) : a.step text = a :=
  if_pos h

theorem step_oversized (hfault : a.fault = none) (h : Oversized text) :
    a.step text = { a with fault := some .infinite } := by
  simp [step, hfault, GCode.Line.parse_of_oversized h]

theorem step_unsupported (ho : ¬ Oversized text) (hs : isSupported text = false) (a : Toolpath) :
    SameMotion (a.step text) a := by
  obtain ⟨line, hline⟩ := GCode.Line.exists_parse ho
  by_cases hfault : a.fault = none
  · obtain ⟨hmodal, hsegment⟩ := a.modal.interpret_unsupported hline hs
    rw [step_eq_follow hline hfault]
    exact ⟨hmodal, by simp [follow, extend, hsegment], rfl⟩
  · rw [step_of_fault (Option.isSome_iff_ne_none.2 hfault)]
    exact ⟨rfl, rfl, rfl⟩

theorem fault_step (ho : ¬ Oversized text) (a : Toolpath) : (a.step text).fault = a.fault := by
  obtain ⟨line, hline⟩ := GCode.Line.exists_parse ho
  unfold step
  split
  · rfl
  · rw [hline]
    rfl

/-! ### Whole programs -/

theorem fault_foldl (h : ∀ text ∈ lines, ¬ Oversized text) (a : Toolpath) :
    (lines.foldl step a).fault = a.fault := by
  induction lines generalizing a with
  | nil => rfl
  | cons text lines ih =>
    rw [List.forall_mem_cons] at h
    rw [List.foldl_cons, ih h.2, fault_step h.1]

theorem foldl_of_fault (h : a.fault.isSome = true) (lines : List (List Char)) :
    lines.foldl step a = a := by
  induction lines with
  | nil => rfl
  | cons text lines ih => rw [List.foldl_cons, step_of_fault h, ih]

theorem SameMotion.foldl_supported (hab : SameMotion a b) (h : ∀ text ∈ lines, ¬ Oversized text) :
    SameMotion (lines.foldl step a) ((lines.filter isSupported).foldl step b) := by
  induction lines generalizing a b with
  | nil => exact hab
  | cons text lines ih =>
    rw [List.forall_mem_cons] at h
    rw [List.foldl_cons]
    cases hs : isSupported text with
    | true =>
      rw [List.filter_cons_of_pos hs, List.foldl_cons]
      exact ih (hab.step_both text) h.2
    | false =>
      have hskip := step_unsupported h.1 hs a
      rw [List.filter_cons_of_neg (by simp [hs])]
      exact ih ⟨hskip.modal.trans hab.modal, hskip.segments.trans hab.segments,
        hskip.fault.trans hab.fault⟩ h.2

theorem exists_oversized (lines : List (List Char)) :
    (∀ text ∈ lines, ¬ Oversized text) ∨
      ∃ before text after, lines = before ++ text :: after ∧ (∀ line ∈ before, ¬ Oversized line) ∧
        Oversized text := by
  induction lines with
  | nil => exact Or.inl nofun
  | cons text lines ih =>
    by_cases ho : Oversized text
    · exact Or.inr ⟨[], text, lines, rfl, nofun, ho⟩
    · rcases ih with hnone | ⟨before, first, after, rfl, hbefore, hfirst⟩
      · exact Or.inl (List.forall_mem_cons.2 ⟨ho, hnone⟩)
      · exact Or.inr ⟨text :: before, first, after, rfl, List.forall_mem_cons.2 ⟨ho, hbefore⟩,
          hfirst⟩

theorem ofLines_oversized (m : ModalState) {before after : List (List Char)}
    (hbefore : ∀ line ∈ before, ¬ Oversized line) (ho : Oversized text) :
    ofLines m (before ++ text :: after) = { ofLines m before with fault := some .infinite } := by
  have hfault := fault_foldl hbefore { modal := m }
  rw [ofLines, List.foldl_append, List.foldl_cons, step_oversized hfault ho, foldl_of_fault rfl]
  rfl

theorem fault_ofText_iff (m : ModalState) (text : String) :
    (ofText m text).fault = none ↔ ∀ line ∈ splitLines text.toList, ¬ Oversized line := by
  unfold ofText
  constructor
  · intro hfault
    rcases exists_oversized (splitLines text.toList) with hnone |
      ⟨before, line, rest, hlines, hbefore, ho⟩
    · exact hnone
    · rw [hlines, ofLines_oversized m hbefore ho] at hfault
      contradiction
  · intro hnone
    exact fault_foldl hnone _

theorem exists_program_iff (text : String) :
    (∃ program, Program.ofText text = .ok program) ↔
      ∀ line ∈ splitLines text.toList, ¬ Oversized line := by
  rw [← fault_ofText_iff {}]
  unfold Program.ofText Toolpath.program
  cases (ofText {} text).fault with
  | none => simp
  | some fault => simp

/-- A text is interpreted up to its first line with an oversized code, and it is a program when it
has no such line. Of the lines interpreted only those with a supported command count. -/
theorem ofText_until_oversized (m : ModalState) (text : String) :
    (∃ before after, splitLines text.toList = before ++ after ∧
      (∀ line ∈ before, ¬ Oversized line) ∧
      SameMotion (ofLines m before) (ofLines m (before.filter isSupported)) ∧
      (after = [] ∧ ofText m text = ofLines m before ∧ (ofText m text).fault = none ∨
        (∃ line rest, after = line :: rest ∧ Oversized line) ∧
          ofText m text = { ofLines m before with fault := some .infinite })) ∧
    ((∃ program, Program.ofText text = .ok program) ↔
      ∀ line ∈ splitLines text.toList, ¬ Oversized line) := by
  refine ⟨?_, exists_program_iff text⟩
  unfold ofText
  rcases exists_oversized (splitLines text.toList) with hnone |
    ⟨before, line, rest, hlines, hbefore, ho⟩
  · refine ⟨splitLines text.toList, [], (List.append_nil _).symm, hnone, ?_, ?_⟩
    · exact SameMotion.foldl_supported ⟨rfl, rfl, rfl⟩ hnone
    · exact Or.inl ⟨rfl, rfl, fault_foldl hnone _⟩
  · refine ⟨before, line :: rest, hlines, hbefore, ?_, ?_⟩
    · exact SameMotion.foldl_supported ⟨rfl, rfl, rfl⟩ hbefore
    · rw [hlines, ofLines_oversized m hbefore ho]
      exact Or.inr ⟨⟨line, rest, rfl, ho⟩, rfl⟩

theorem ofText_can_fail : ¬ ∀ (m : ModalState) (text : String), (ofText m text).fault = none := by
  intro h
  have hfault : (ofText {} (String.ofList ('M' :: List.replicate 309 '9'))).fault =
      some .infinite := by
    rw [ofText, String.toList_ofList]
    decide +kernel
  rw [h] at hfault
  contradiction

end Toolpath

end VirtualPrinter
