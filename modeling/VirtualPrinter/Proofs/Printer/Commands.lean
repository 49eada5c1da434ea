import VirtualPrinter.Printer.Request
import VirtualPrinter.Proofs.Config.Ranges
import VirtualPrinter.Proofs.Printer.Start
import VirtualPrinter.Proofs.Printer.StartCommand
import VirtualPrinter.Proofs.Results

/-!
# Commands and what they do

A line of G-code does what the request that it stands for does. The first start command of the text
goes before everything else, even when it stands in a comment; without one the command of the line
is obeyed, or it is refused and nothing changes.
-/

namespace VirtualPrinter

open Binary64 GCode

attribute [local irreducible] Binary64.ofNat Binary64.ofRatio

namespace Printer

variable {p : Printer} {text other : String} {name : List Char} {line : Option Line}
  {gcode file : Option String} {now : Binary64} {error : PrinterError}

/-- The printer of a configuration without options. -/
def plain : Printer where
  config := ⟨[]⟩
  printSeconds := some 0
  feedRate := some 600
  store := .empty
  machine := { bootedAt := 0 }

theorem openAt_plain : openAt ⟨[]⟩ 0 = .ok plain := by
  have hsilent (option : String) : ∀ key ∈ Config.keys option, Config.Silent ⟨[]⟩ key :=
    fun _ _ => Or.inr (Or.inl rfl)
  exact (openAt_eq_ok_iff Config.textual_nil).2 ⟨0, 600, .default (hsilent _) rfl,
    Or.inr (by decide +kernel), .default (hsilent _) rfl, Or.inr (by decide +kernel), rfl⟩

/-! ### What a text asks for -/

theorem execute_congr (hstart : startCommand? text.toList = startCommand? other.toList)
    (hparse : Line.parse text.toList = Line.parse other.toList) :
    p.execute (some text) now = p.execute (some other) now := by
  have htrim (line : List Char) : Line.parse (Text.trim line) = Line.parse line :=
    Line.parse_congr (significant_trim line)
  simp only [execute, Option.getD_some, startCommand?_trim, htrim, hstart, hparse]

theorem execute_of_start (h : FirstStart text.toList name) :
    p.execute (some text) now = (p.start (some (String.ofList name)) now).map fun _ => () := by
  have hfound : startCommand? (Text.trim text.toList) = some name := by
    rw [startCommand?_trim, startCommand?_eq_some_iff.2 h]
  simp only [execute, Option.getD_some, hfound]

/-- What is done for the command of a line, or for a line without one. -/
structure Obeys (p : Printer) (now : Binary64) (command : Option String) (r : Response Unit) :
    Prop where
  pause : command = some "M25" → r = (p.pause now).map fun _ => ()
  resume : command = some "M24" → r = (p.resume now).map fun _ => ()
  stop : command = some "M0" → r = (p.stop now).map fun _ => ()
  refuse : command ≠ some "M25" → command ≠ some "M24" → command ≠ some "M0" →
    r = p.refuse .unsupportedCommand

theorem execute_obeys (hnone : ∀ position name, ¬ StartAt text.toList position name)
    (hparse : Line.parse text.toList = .ok line) :
    Obeys p now (line.bind (·.command)) (p.execute (some text) now) := by
  have hfound : startCommand? (Text.trim text.toList) = none := by
    rw [startCommand?_trim, startCommand?_eq_none_iff.2 hnone]
  have htrim : Line.parse (Text.trim text.toList) = .ok line := by
    rw [Line.parse_congr (significant_trim text.toList), hparse]
  simp only [execute, Option.getD_some, hfound, htrim]
  refine ⟨fun h => ?_, fun h => ?_, fun h => ?_, fun hpause hresume hstop => ?_⟩
  · simp only [h]
  · simp only [h]
  · simp only [h]
  · split
    next h => exact absurd h hpause
    next h => exact absurd h hresume
    next h => exact absurd h hstop
    next => rfl

/-! ### Failures -/

/-- What executing a text comes to. -/
inductive Executed (p : Printer) (now : Binary64) : Response Unit → Prop
  | started (file : Option String) : Executed p now ((p.start file now).map fun _ => ())
  | paused : Executed p now ((p.pause now).map fun _ => ())
  | resumed : Executed p now ((p.resume now).map fun _ => ())
  | stopped : Executed p now ((p.stop now).map fun _ => ())
  | refused (error : PrinterError) : Executed p now (p.refuse error)

theorem executed_execute (p : Printer) (gcode : Option String) (now : Binary64) :
    Executed p now (p.execute gcode now) := by
  unfold execute
  dsimp only
  split
  next => exact .started _
  next =>
    split
    next => exact .refused _
    next =>
      split
      next => exact .paused
      next => exact .resumed
      next => exact .stopped
      next => exact .refused _

/-- A text is refused as no command, or the program to start is missing or empty. -/
def IsRefusal (error : PrinterError) : Prop :=
  error = .unsupportedCommand ∨ ∃ name, error = .programNotFound name

theorem not_isRefusal_machine (fault : MachineFault) : ¬ IsRefusal (.machine fault) := by
  rintro (h | ⟨name, h⟩) <;> contradiction

theorem exists_fault_of_respond {α : Type} {outcome : Outcome α}
    (h : (p.respond outcome).answer = .error error) : ∃ fault, error = .machine fault := by
  obtain ⟨fault, -, hfault⟩ := exists_of_mapError_eq_error h
  exact ⟨fault, hfault.symm⟩

theorem startableText?_eq_none_iff {name : ProgramName} : p.startableText? name = none ↔
    ∀ stored, p.store.get? name = some (some stored) → stored = "" := by
  simp [startableText?, Option.filter_eq_none_iff, Option.join_eq_some_iff]

theorem start_answer_programNotFound_iff {missing : ProgramName} :
    (p.start file now).answer = .error (.programNotFound missing) ↔
      missing = .ofText file ∧
        ∀ stored, p.store.get? missing = some (some stored) → stored = "" := by
  rw [← startableText?_eq_none_iff]
  cases htext : p.startableText? (.ofText file) with
  | none =>
    simp only [start, htext]
    constructor
    · intro h
      cases h
      exact ⟨rfl, htext⟩
    · rintro ⟨rfl, -⟩
      rfl
  | some text =>
    refine iff_of_false ?_ ?_
    · intro h
      cases hgiven : p.fixedDuration with
      | error unknown =>
        simp only [start, htext, hgiven] at h
        cases h
        unfold fixedDuration at hgiven
        split at hgiven
        · cases hgiven
        · contradiction
      | ok given =>
        simp only [start, htext, hgiven] at h
        obtain ⟨fault, hfault⟩ := exists_fault_of_respond (eq_of_map_eq_error h)
        contradiction
    · rintro ⟨rfl, hnone⟩
      rw [htext] at hnone
      contradiction

theorem start_unchanged (h : (p.start file now).answer = .error error) (href : IsRefusal error) :
    (p.start file now).printer = p := by
  have houtcome := p.start_outcome file now
  generalize (p.start file now).answer = answer at h houtcome
  generalize (p.start file now).printer = printer at houtcome ⊢
  cases houtcome with
  | refused hnone => rfl
  | @started text given answer machine htext hgiven hstart =>
    cases answer with
    | error fault =>
      cases h
      exact absurd href (not_isRefusal_machine fault)
    | ok program => contradiction

theorem respond_not_isRefusal {outcome : Outcome Bool}
    (h : ((p.respond outcome).map fun _ => ()).answer = .error error) : ¬ IsRefusal error := by
  obtain ⟨fault, rfl⟩ := exists_fault_of_respond (eq_of_map_eq_error h)
  exact not_isRefusal_machine fault

theorem execute_unchanged (h : (p.execute gcode now).answer = .error error)
    (href : IsRefusal error) : (p.execute gcode now).printer = p := by
  have hexecuted := p.executed_execute gcode now
  generalize p.execute gcode now = r at h hexecuted ⊢
  cases hexecuted with
  | started file => exact start_unchanged (p := p) (eq_of_map_eq_error h) href
  | paused => exact absurd href (respond_not_isRefusal h)
  | resumed => exact absurd href (respond_not_isRefusal h)
  | stopped => exact absurd href (respond_not_isRefusal h)
  | refused refused => rfl

/-! ### Comments -/

/-- A comment changes nothing about a line, unless there is a start command in it: then that is what
is done, and the line before it is not. -/
theorem execute_commented_unless_start (p : Printer) (g c : String) (now : Binary64)
    (hquote : '"' ∉ g.toList) :
    ((∀ position name, ¬ StartAt c.toList position name) →
      p.execute (some (g ++ ";" ++ c)) now = p.execute (some g) now) ∧
    ∀ name, FirstStart c.toList name →
      p.execute (some (g ++ ";" ++ c)) now =
        (p.start (some (String.ofList name)) now).map fun _ => () := by
  have htext : (g ++ ";" ++ c).toList = g.toList ++ ';' :: c.toList := by
    simp
  have hstart : startCommand? (g ++ ";" ++ c).toList = startCommand? c.toList := by
    rw [htext, startCommand?_semicolon hquote]
  constructor
  · intro hnone
    refine execute_congr ?_ (Line.parse_congr ?_)
    · rw [hstart, startCommand?_of_no_quote hquote, startCommand?_eq_none_iff.2 hnone]
    · rw [htext, significant_append_of_blank]
      simp [Text.AllBlank]
  · intro name hname
    refine execute_of_start (startCommand?_eq_some_iff.1 ?_)
    rw [hstart, startCommand?_eq_some_iff.2 hname]

theorem execute_commented_unless_start_home :
    '"' ∉ "G28".toList ∧
    plain.execute (some ("G28" ++ ";" ++ "M32 'a'; \"")) 0 = plain.execute (some "G28") 0 ∧
    FirstStart "M32; m32\t\"a;\"".toList "a;".toList ∧
    plain.execute (some ("G28" ++ ";" ++ "M32; m32\t\"a;\"")) 0 =
      (plain.start (some (String.ofList "a;".toList)) 0).map fun _ => () := by
  have hquote : '"' ∉ "G28".toList := by decide
  have hnone := startCommand?_eq_none_iff.1
    (by decide : startCommand? "M32 'a'; \"".toList = none)
  have hfirst := startCommand?_eq_some_iff.1
    (by decide : startCommand? "M32; m32\t\"a;\"".toList = some "a;".toList)
  exact ⟨hquote, (execute_commented_unless_start plain _ _ 0 hquote).1 hnone, hfirst,
    (execute_commented_unless_start plain _ _ 0 hquote).2 _ hfirst⟩

/- A remark behind a semicolon starts a program. -/
theorem comment_starts :
    ¬ ∀ (config : Config) (p : Printer) (requests : List Request) (g c : String) (now : Binary64),
      openAt config 0 = .ok p → ';' ∉ g.toList → '"' ∉ g.toList →
        (p.serveAll requests).execute (some (g ++ ";" ++ c)) now =
          (p.serveAll requests).execute (some g) now := by
  intro hsilent
  let uploads : List Request := [.uploadForm (some "a") (some (.text "G1 X0 Y0\nG1 X1 E1"))]
  let q := plain.serveAll uploads
  have hmodes :
      (q.execute (some ("G28" ++ ";" ++ "M32 \"gcodes/a\"")) 0).printer.machine.runMode =
        .printing ∧ (q.execute (some "G28") 0).printer.machine.runMode = .idle := by
    decide +kernel
  rw [hsilent ⟨[]⟩ plain uploads "G28" "M32 \"gcodes/a\"" 0 openAt_plain (by decide) (by decide),
    hmodes.2] at hmodes
  exact absurd hmodes.1 (by decide)

/-! ### Commands beside the direct requests -/

/-- A line of G-code does what the direct request does, and is refused when there is none; a refusal
changes nothing. -/
theorem execute_agrees (p : Printer) (now : Binary64) :
    (∀ (name : String) (form : List Char), StartForm name.toList form →
      p.execute (some (String.ofList form)) now = (p.start (some name) now).map fun _ => ()) ∧
    (∀ (text : String) (line : Option Line),
      (∀ position name, ¬ StartAt text.toList position name) →
      Line.parse text.toList = .ok line →
        Obeys p now (line.bind (·.command)) (p.execute (some text) now)) ∧
    (∀ file error, (p.start file now).answer = .error error → IsRefusal error →
      (p.start file now).printer = p) ∧
    (∀ gcode error, (p.execute gcode now).answer = .error error → IsRefusal error →
      (p.execute gcode now).printer = p) ∧
    ∀ file missing, (p.start file now).answer = .error (.programNotFound missing) ↔
      missing = .ofText file ∧
        ∀ stored, p.store.get? missing = some (some stored) → stored = "" := by
  refine ⟨fun name form hform => ?_, fun text line hnone hparse => execute_obeys hnone hparse,
    fun file error h href => start_unchanged h href,
    fun gcode error h href => execute_unchanged h href,
    fun file missing => start_answer_programNotFound_iff⟩
  have hfirst : FirstStart (String.ofList form).toList name.toList := by
    rw [String.toList_ofList]
    exact hform.firstStart
  rw [execute_of_start hfirst, String.ofList_toList]

theorem execute_agrees_plain :
    plain.execute (some "m32 \t\"a; M32 \"") 0 =
      (plain.start (some "a; M32 ") 0).map (fun _ => ()) ∧
    plain.execute (some " m025 \"a\"; M32") 0 = (plain.pause 0).map (fun _ => ()) ∧
    plain.execute (some "G28") 0 = plain.refuse .unsupportedCommand ∧
    (plain.execute (some "G28") 0).printer = plain ∧
    (plain.start (some "//a") 0).answer = .error (.programNotFound (.ofText (some "a"))) ∧
    (plain.start (some "//a") 0).printer = plain := by
  obtain ⟨hstart, hobeys, hunstarted, hunexecuted, hmissing⟩ := execute_agrees plain 0
  have hform : StartForm "a; M32 ".toList
      ('m' :: '3' :: '2' :: ([' ', '\t'] ++ '"' :: ("a; M32 ".toList ++ ['"']))) :=
    .quoted (Or.inr rfl) (by decide) (by decide) (by decide) (by decide)
  have hpausing := startCommand?_eq_none_iff.1
    (by decide : startCommand? " m025 \"a\"; M32".toList = none)
  have hhoming := startCommand?_eq_none_iff.1 (by decide : startCommand? "G28".toList = none)
  obtain ⟨pausing, hpause, hpauses⟩ := exists_of_map_eq_ok
    (by decide +kernel : (Line.parse " m025 \"a\"; M32".toList).map (·.bind (·.command)) =
      .ok (some "M25"))
  obtain ⟨homing, hhome, hhomes⟩ := exists_of_map_eq_ok
    (by decide +kernel : (Line.parse "G28".toList).map (·.bind (·.command)) = .ok (some "G28"))
  have hrefuse : plain.execute (some "G28") 0 = plain.refuse .unsupportedCommand := by
    refine (hobeys _ _ hhoming hhome).refuse ?_ ?_ ?_ <;> rw [hhomes] <;> decide
  have hunsupported : (plain.execute (some "G28") 0).answer = .error .unsupportedCommand := by
    rw [hrefuse]
    rfl
  have hnotFound : (plain.start (some "//a") 0).answer =
      .error (.programNotFound (.ofText (some "a"))) :=
    (hmissing (some "//a") _).2 ⟨by decide +kernel, nofun⟩
  exact ⟨hstart _ _ hform, (hobeys _ _ hpausing hpause).pause hpauses, hrefuse,
    hunexecuted _ _ hunsupported (Or.inl rfl), hnotFound,
    hunstarted _ _ hnotFound (Or.inr ⟨_, rfl⟩)⟩

/- A text that starts a program need not be the start command alone. -/
theorem embedded_start_accepted :
    ¬ ∀ (config : Config) (p : Printer) (requests : List Request) (text : String)
        (line : Option Line) (now : Binary64),
      openAt config 0 = .ok p → Line.parse text.toList = .ok line →
      (∀ name form, StartForm name form → text ≠ String.ofList form) →
      ¬ ((∀ position name, ¬ StartAt text.toList position name) ∧
        (line.bind (·.command) = some "M25" ∨ line.bind (·.command) = some "M24" ∨
          line.bind (·.command) = some "M0")) →
        ((p.serveAll requests).execute (some text) now).answer = .error .unsupportedCommand := by
  intro hrefused
  let uploads : List Request := [.uploadForm (some "a") (some (.text "G1 X0 Y0\nG1 X1 E1"))]
  obtain ⟨line, hparse, hcommand⟩ := exists_of_map_eq_ok
    (by decide +kernel : (Line.parse "N10 M32 \"gcodes/a\"".toList).map (·.bind (·.command)) =
      .ok none)
  have hother : ∀ name form, StartForm name form →
      "N10 M32 \"gcodes/a\"" ≠ String.ofList form := by
    intro name form hform htext
    cases hform with
    | @quoted letter blanks hletter hblanks hne hname hquote =>
      have hhead : "N10 M32 \"gcodes/a\"".toList.head? = some letter := by
        rw [htext, String.toList_ofList]
        rfl
      obtain rfl : 'N' = letter := Option.some.inj hhead
      rcases hletter with h | h <;> contradiction
  have hstarted :
      ((plain.serveAll uploads).execute (some "N10 M32 \"gcodes/a\"") 0).answer.toOption =
        some () := by
    decide +kernel
  rw [hrefused ⟨[]⟩ plain uploads _ line 0 openAt_plain hparse hother (by simp [hcommand])]
    at hstarted
  contradiction

end Printer

end VirtualPrinter
