import VirtualPrinter.Proofs.CommandLine.Session
import VirtualPrinter.Proofs.Machine.Shown
import VirtualPrinter.Proofs.Printer.Durations
import VirtualPrinter.Proofs.Text.Documents

/-!
# Lines that are documents

Every line that a run prints is printable ASCII, so that nothing in it ends the line. It is a JSON
document exactly if the head is shown at finite coordinates, which it is when the program has no
others. A number of more than three hundred digits in a program is enough to spoil it.
-/

namespace VirtualPrinter

open Binary64 Grammar Controller Config

attribute [local irreducible] Binary64.ofNat Binary64.ofRatio

/-! ### Reports -/

namespace Snapshot

theorem fileReport_isFinite (s : Snapshot) : s.fileReport.isFinite = true := by
  unfold fileReport
  split <;> rfl

theorem headReport_isFinite_iff (s : Snapshot) : s.headReport.isFinite = true ↔ s.head.Finite := by
  simp only [headReport, Json.isFinite, Json.itemsFinite, Bool.and_true, Bool.and_eq_true]
  exact ⟨fun h => ⟨h.1, h.2.1, h.2.2⟩, fun h => ⟨h.x, h.y, h.z⟩⟩

/- Of the numbers in a report only the completion and the head can be other than whole. -/
theorem report_isFinite_iff (s : Snapshot) (dialect : Dialect)
    (hcompletion : s.completion.isFinite = true) :
    (s.report dialect).isFinite = true ↔ s.head.Finite := by
  cases dialect <;>
    simp [report, objectModelReport, legacyReport, jobReport, heaterReport, Json.isFinite,
      Json.fieldsFinite, Json.itemsFinite, fileReport_isFinite, headReport_isFinite_iff,
      hcompletion]

end Snapshot

namespace CommandLine

variable {options : Options} {environment : List (String × String)} {read : FileReader}
  {seconds : Binary64} {pauses : Nat} {line : String} {session : Session} {view : Snapshot}
  {program : Program} {times : List Binary64}

/-- The program that a run starts: that of the text in its file. -/
def Starts (options : Options) (environment : List (String × String)) (read : FileReader)
    (program : Program) : Prop :=
  ∃ text, (configuration options environment).HoldsText read options.file text ∧
    Program.ofText text = .ok program

/- A session begins with a job that has not advanced and a head at the lowest layer. -/
theorem running_machine
    (h : (Session.openAt options environment read seconds).1 = .running session) :
    session.options = options ∧ InUnit session.printer.machine.job.completion ∧
      ∃ program, Starts options environment read program ∧
        session.printer.machine.program = some program ∧
        session.printer.machine.head = parked program.layers.low := by
  obtain ⟨p, hopen, stored, hstored, hoptions, hprinter⟩ := exists_of_running h
  have houtcome := p.seed_outcome read options.file (machineTime seconds)
  rw [hstored, ← hprinter] at houtcome
  have hmachine : session.printer.controller.machine = session.printer.machine := rfl
  generalize session.printer.controller = c at houtcome hmachine
  cases houtcome with
  | @running text program duration name htext hruns =>
    rw [(Printer.opened_of_openAt hopen).1] at htext
    rw [← hmachine]
    exact ⟨hoptions, zero_belowOne.inUnit, program, ⟨text, htext, hruns.interpreted⟩, rfl, rfl⟩

theorem starts_unique {other : Program} (h : Starts options environment read program)
    (hother : Starts options environment read other) : other = program := by
  obtain ⟨text, htext, hprogram⟩ := h
  obtain ⟨text', htext', hprogram'⟩ := hother
  rw [htext.eq htext'] at hprogram'
  exact Except.ok.inj (hprogram'.symm.trans hprogram)

theorem time_of_mem_queries {op : Operation} (h : op ∈ times.map Session.query) :
    op.time?.isSome = true := by
  obtain ⟨t, -, rfl⟩ := List.mem_map.1 h
  rfl

theorem within_shown (h : (Session.openAt options environment read seconds).1 = .running session)
    (hstarts : Starts options environment read program) (hnumeric : program.Numeric)
    (hview : .ok (.view view) ∈ session.printer.controller.answers (times.map Session.query)) :
    program.Within view.head := by
  obtain ⟨-, -, other, hother, hloaded, hhead⟩ := running_machine h
  obtain rfl := starts_unique hstarts hother
  have hsited : session.printer.machine.Sited := by
    intro q hq
    rw [hloaded, Option.some.injEq] at hq
    subst hq
    rw [hhead]
    exact ⟨hnumeric, Program.within_low hnumeric⟩
  exact within_of_view hsited hloaded (fun _ => time_of_mem_queries) hview

/- The completion is a number in any case, and of the rest only the head need not be. -/
theorem isDocument_shown_iff
    (h : (Session.openAt options environment read seconds).1 = .running session)
    (hview : .ok (.view view) ∈ session.printer.controller.answers (times.map Session.query)) :
    IsDocument (options.lineOf view).toList ↔ view.head.Finite := by
  have hcompletion := (completion_of_view (running_machine h).2.1 (fun _ => time_of_mem_queries)
    hview).isFinite
  exact (Json.isDocument_render_iff _).trans (view.report_isFinite_iff options.dialect hcompletion)

/- The head is nowhere below the lowest layer. -/
theorem not_isDocument_of_layer
    (h : (Session.openAt options environment read seconds).1 = .running session)
    (hstarts : Starts options environment read program) (hnumeric : program.Numeric)
    (hlow : program.layers.low = infinity false)
    (hview : .ok (.view view) ∈ session.printer.controller.answers (times.map Session.query)) :
    ¬ IsDocument (options.lineOf view).toList := by
  intro hdocument
  have hhead := (isDocument_shown_iff h hview).1 hdocument
  have hhigh := (within_shown h hstarts hnumeric hview).low
  rw [hlow] at hhigh
  have hz := hhead.z
  rw [eq_highest_of_le hhigh] at hz
  contradiction

/- A program with no finite layer spoils even a single line. -/
theorem exists_line_of_layer {p : Printer} {text : String} {duration : Binary64}
    (hopen : Printer.openAt (configuration options environment) (machineTime seconds) = .ok p)
    (htext : p.config.HoldsText read options.file text) (hne : text ≠ "")
    (hruns : p.RunsText text program duration) (hsize : text.utf8ByteSize ≤ 2 ^ 53)
    (htime : machineTime seconds - p.machine.bootedAt ≠ infinity false)
    (hcount : options.count = .value 1) (hnumeric : program.Numeric)
    (hlow : program.layers.low = infinity false) :
    ∃ line ∈ (transcript options environment read seconds pauses).lines,
      ¬ IsDocument line.toList := by
  obtain ⟨name, hanswer, hinstalled, -, hbooted⟩ :=
    p.seed_installed (machineTime seconds) htext hne hruns
  let session : Session :=
    { options, lineCount := some 1,
      printer := (p.seed read options.file (machineTime seconds)).printer }
  obtain ⟨view, hview⟩ := Session.exists_view hinstalled hsize (hbooted ▸ htime)
  have hrunning : (Session.openAt options environment read seconds).1 = .running session :=
    openAt_running hopen hanswer hcount
  have hline : (session.statusLine seconds).answer = .ok (options.lineOf view) :=
    Session.statusLine_of_view hview
  have hlines : (transcript options environment read seconds pauses).lines =
      [options.lineOf view] := by
    rw [transcript_of_running hrunning]
    exact congrArg Transcript.lines (Session.play_last hline rfl)
  have hasked : .ok (.view view) ∈
      session.printer.controller.answers ([seconds].map Session.query) :=
    List.mem_singleton.2 hview.symm
  have hstarts : Starts options environment read program :=
    ⟨text, (Printer.opened_of_openAt hopen).1 ▸ htext, hruns.interpreted⟩
  refine ⟨_, hlines ▸ List.mem_singleton_self _, ?_⟩
  exact not_isDocument_of_layer hrunning hstarts hnumeric hlow hasked

/-- Whatever file, environment, options and times a run has, each line that it prints is printable
ASCII and shows the answer to a status query. It is a JSON document exactly if the head in it is at
finite coordinates, and so it is if the program has no others. -/
theorem lines_valid_unless_infinite
    (h : line ∈ (transcript options environment read seconds pauses).lines) :
    (∀ c ∈ line.toList, ' ' ≤ c ∧ c ≤ '~') ∧
      ∃ (session : Session) (times : List Binary64) (view : Snapshot),
        (Session.openAt options environment read seconds).1 = .running session ∧
        .ok (.view view) ∈ session.printer.controller.answers (times.map Session.query) ∧
        line = (view.report options.dialect).render ∧
        (IsDocument line.toList ↔ view.head.Finite) ∧
        ∀ program, Starts options environment read program → program.Finite →
          IsDocument line.toList := by
  obtain ⟨session, hrunning, hline⟩ := exists_of_mem_transcript h
  obtain ⟨times, view, hview, rfl⟩ := Session.exists_of_mem_play hline
  rw [(running_machine hrunning).1]
  have hdocument := isDocument_shown_iff hrunning hview
  refine ⟨(Json.written_render _).printable, session, times, view, hrunning, hview, rfl, hdocument,
    fun program hstarts hfinite => ?_⟩
  exact hdocument.2 ((within_shown hrunning hstarts hfinite.numeric hview).finite hfinite)

/- A file name beyond ASCII, and a second line after a pause. -/
theorem lines_valid_unless_infinite_accented :
    let options : Options := { file := some "é/ü.g", dialect := .legacy, count := .value 2 }
    let read : FileReader := fun _ => some (Text.utf8Bytes "G1 X0 Y0\nG1 X1.5 Y2 E1\nG1 X3 E2")
    ∃ first second program, (transcript options [] read 0 1).lines = [first, second] ∧
      Starts options [] read program ∧ program.Finite ∧
      ∀ line ∈ [first, second], (∀ c ∈ line.toList, ' ' ≤ c ∧ c ≤ '~') ∧
        IsDocument line.toList := by
  intro options read
  have hlength : (transcript options [] read 0 1).lines.length = 2 := by
    decide +kernel
  have hfinite : (Program.ofText "G1 X0 Y0\nG1 X1.5 Y2 E1\nG1 X3 E2").toOption.any
      (decide ·.Finite) = true := by
    decide +kernel
  obtain ⟨first, second, hlines⟩ := List.length_eq_two.1 hlength
  cases hprogram : Program.ofText "G1 X0 Y0\nG1 X1.5 Y2 E1\nG1 X3 E2" with
  | error fault =>
    rw [hprogram] at hfinite
    contradiction
  | ok program =>
    rw [hprogram] at hfinite
    have hstarts : Starts options [] read program :=
      ⟨_, ⟨"é/ü.g", rfl, _, rfl, Text.utf8Strict?_utf8Bytes _⟩, hprogram⟩
    refine ⟨first, second, program, hlines, hstarts, of_decide_eq_true hfinite, ?_⟩
    intro line hline
    obtain ⟨hascii, _, _, _, -, -, -, -, hvalid⟩ :=
      lines_valid_unless_infinite (hlines ▸ hline : line ∈ (transcript options [] read 0 1).lines)
    exact ⟨hascii, hvalid program hstarts (of_decide_eq_true hfinite)⟩

/- A height of more than three hundred digits is an infinity, and so is the lowest layer. -/
theorem infinite_head_spoils_line :
    ¬ ∀ (options : Options) (environment : List (String × String)) (read : FileReader)
        (seconds : Binary64) (pauses : Nat),
      ∀ line ∈ (transcript options environment read seconds pauses).lines,
        IsDocument line.toList := by
  intro hvalid
  let chars := "G1 X0 Y0 Z".toList ++ List.replicate 309 '9' ++ "\nG1 X1".toList
  let path := Toolpath.ofLines {} (splitLines chars)
  let p : Printer :=
    { config := ⟨[]⟩, printSeconds := some 0, feedRate := some 600, store := .empty,
      machine := { bootedAt := machineTime 0 } }
  have hpath : path.fault = none ∧ (Program.layers ⟨path.segments.toList⟩).low = infinity false ∧
      Program.duration ⟨path.segments.toList⟩ 600 ≠ infinity false ∧
      Program.Numeric ⟨path.segments.toList⟩ := by
    decide +kernel
  obtain ⟨hfault, hlow, hfinite, hnumeric⟩ := hpath
  have hprogram : Program.ofText (String.ofList chars) = .ok ⟨path.segments.toList⟩ := by
    rw [Program.ofText, Toolpath.ofText, String.toList_ofList, Toolpath.program, hfault]
  have hne : String.ofList chars ≠ "" := by
    intro h
    have hchars : chars = [] := String.toList_ofList.symm.trans (congrArg String.toList h)
    exact absurd hchars (by decide +kernel)
  have hopen : Printer.openAt ⟨[]⟩ (machineTime 0) = .ok p :=
    (Printer.openAt_eq_ok_iff textual_nil).2
      ⟨0, 600, .default (fun _ _ => Or.inr (Or.inl rfl)) rfl, Or.inr (by decide +kernel),
        .default (fun _ _ => Or.inr (Or.inl rfl)) rfl, Or.inr (by decide +kernel), rfl⟩
  have hgiven : p.fixedDuration = .ok none :=
    (Printer.fixedDuration_eq rfl).trans (congrArg _ (if_neg (by decide +kernel)))
  let options : Options := { file := some "a.gcode", count := .value 1 }
  let read : FileReader := fun _ => some (Text.utf8Bytes (String.ofList chars))
  have htext : p.config.HoldsText read options.file (String.ofList chars) :=
    ⟨"a.gcode", rfl, _, rfl, Text.utf8Strict?_utf8Bytes _⟩
  have hspoiled : ∃ line ∈ (transcript options [] read 0 0).lines, ¬ IsDocument line.toList :=
    exists_line_of_layer hopen htext hne ⟨hprogram, ⟨none, hgiven, rfl⟩, hfinite⟩
      (by decide +kernel) (by decide +kernel) rfl hnumeric hlow
  obtain ⟨line, hline, hnot⟩ := hspoiled
  exact hnot (hvalid options [] read 0 0 line hline)

end CommandLine

end VirtualPrinter
