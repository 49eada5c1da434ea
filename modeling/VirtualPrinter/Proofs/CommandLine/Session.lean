import VirtualPrinter.CommandLine.Session
import VirtualPrinter.Proofs.Config.Ranges
import VirtualPrinter.Proofs.Printer.Seeding
import VirtualPrinter.Proofs.Store.Lookup

/-!
# Sessions of the command line

A session is open when the program of a file runs. Whatever it prints are answers of the machine to
successive status queries, in the dialect asked for.
-/

namespace VirtualPrinter.CommandLine

open Controller

variable {options : Options} {environment : List (String × String)} {read : FileReader}
  {seconds : Binary64} {pauses : Nat} {session : Session} {line : String} {view : Snapshot}
  {fault : MachineFault}

/-! ### Status lines -/

/-- The line that shows a view of the machine. -/
def Options.lineOf (options : Options) (view : Snapshot) : String :=
  (view.report options.dialect).render

namespace Session

/-- A status query at a time of the clock. -/
def query (seconds : Binary64) : Operation := .status (machineTime seconds)

theorem exists_view {c : Controller} {text : String} {program : Program}
    (h : c.machine.Installed text program) (hsize : text.utf8ByteSize ≤ 2 ^ 53)
    (htime : machineTime seconds - c.machine.bootedAt ≠ .infinity false) :
    ∃ view, (c.perform (query seconds)).answer = .ok (.view view) := by
  obtain ⟨view, hview⟩ := Printer.exists_status h hsize htime
  exact ⟨view, congrArg (Except.map Answer.view) hview⟩

theorem statusLine_of_view (h : (session.printer.controller.perform (query seconds)).answer =
    .ok (.view view)) :
    (session.statusLine seconds).answer = .ok (session.options.lineOf view) := by
  obtain ⟨other, hanswer, hview⟩ := exists_of_map_eq_ok h
  cases hview
  simp only [statusLine, Printer.status, Printer.respond, Response.map, hanswer]
  rfl

theorem statusLine_of_fault (h : (session.printer.controller.perform (query seconds)).answer =
    .error fault) : (session.statusLine seconds).answer = .error (.machine fault) := by
  have hstatus := eq_of_map_eq_error h
  simp only [statusLine, Printer.status, Printer.respond, Response.map, hstatus]
  rfl

theorem exists_of_statusLine (h : (session.statusLine seconds).answer = .ok line) :
    ∃ view, (session.printer.controller.perform (query seconds)).answer = .ok (.view view) ∧
      line = session.options.lineOf view := by
  obtain ⟨report, hreport, rfl⟩ := exists_of_map_eq_ok h
  obtain ⟨view, hview, rfl⟩ := exists_of_map_eq_ok hreport
  refine ⟨view, ?_, rfl⟩
  change (session.printer.controller.status (machineTime seconds)).answer.map Answer.view = _
  rw [eq_of_mapError_eq_ok hview]
  rfl

/-! ### Turns -/

/-- The session that goes on after a status line. -/
def after (s : Session) (seconds : Binary64) : Session :=
  { s with
    lineCount := s.lineCount.map (· - 1)
    printer := (s.statusLine seconds).printer }

/-- A turn fails with its status query, and otherwise it is the last one or goes on. -/
inductive Turned (s : Session) (seconds : Binary64) : Turn → Prop
  | failed {error : PrinterError} (h : (s.statusLine seconds).answer = .error error) :
      Turned s seconds (.failed error)
  | last {line : String} (h : (s.statusLine seconds).answer = .ok line)
      (hlast : s.lineCount = some 1) : Turned s seconds (.last line)
  | next {line : String} (h : (s.statusLine seconds).answer = .ok line)
      (hmore : s.lineCount ≠ some 1) :
      Turned s seconds (.next line s.options.interval (s.after seconds))

theorem turned_turn (s : Session) (seconds : Binary64) :
    Turned s seconds (s.turn seconds).1 := by
  simp only [turn]
  split
  next error h => exact .failed h
  next line h =>
    split
    next hlast => exact .last h hlast
    next hmore => exact .next h hmore

theorem turn_fault {error : PrinterError} (h : (session.statusLine seconds).answer = .error error) :
    (session.turn seconds).1 = .failed error := by
  simp only [turn, h]

theorem turn_last (h : (session.statusLine seconds).answer = .ok line)
    (hlast : session.lineCount = some 1) : (session.turn seconds).1 = .last line := by
  simp only [turn, h, hlast, if_true]

theorem turn_next (h : (session.statusLine seconds).answer = .ok line)
    (hmore : session.lineCount ≠ some 1) :
    (session.turn seconds).1 = .next line session.options.interval (session.after seconds) := by
  simp only [turn, h, hmore, if_false]
  rfl

/-! ### Lines one after the other -/

theorem play_fault {error : PrinterError} (h : (session.statusLine seconds).answer = .error error) :
    session.play pauses seconds = { ending := .failed (.printer error) } := by
  unfold play
  simp only [turn_fault h]

theorem play_last (h : (session.statusLine seconds).answer = .ok line)
    (hlast : session.lineCount = some 1) :
    session.play pauses seconds = { lines := [line], ending := .exited 0 "" } := by
  unfold play
  simp only [turn_last h hlast]

theorem play_next {interval : Binary64} {later : Transcript}
    (h : (session.statusLine seconds).answer = .ok line) (hmore : session.lineCount ≠ some 1)
    (hinterval : session.options.interval = .value interval)
    (hlater : (session.after seconds).play pauses (seconds + interval) = later) :
    session.play (pauses + 1) seconds =
      { later with lines := line :: later.lines, pauses := .value interval :: later.pauses } := by
  unfold play
  simp only [turn_next h hmore, hinterval, hlater]

/-- What a session prints: nothing when its query fails, and otherwise a line, behind which it ends
or goes on. -/
inductive Printed (s : Session) (seconds : Binary64) : Nat → List String → Prop
  | nothing {pauses : Nat} : Printed s seconds pauses []
  | ended {pauses : Nat} {line : String} (h : (s.statusLine seconds).answer = .ok line) :
      Printed s seconds pauses [line]
  | next {pauses : Nat} {line : String} (later : Binary64)
      (h : (s.statusLine seconds).answer = .ok line) :
      Printed s seconds (pauses + 1) (line :: ((s.after seconds).play pauses later).lines)

theorem printed_play (s : Session) (pauses : Nat) (seconds : Binary64) :
    Printed s seconds pauses (s.play pauses seconds).lines := by
  have hturned := s.turned_turn seconds
  unfold play
  generalize (s.turn seconds).1 = turn at hturned
  cases hturned with
  | failed h => exact .nothing
  | last h hlast => exact .ended h
  | next h hmore =>
    cases pauses with
    | zero => exact .ended h
    | succ pauses =>
      cases s.options.interval with
      | nothing => exact .ended h
      | value interval => exact .next (seconds + interval) h

/- Every line is the answer to a query that only such queries came before. -/
theorem exists_of_mem_play (h : line ∈ (session.play pauses seconds).lines) :
    ∃ (times : List Binary64) (view : Snapshot),
      .ok (.view view) ∈ session.printer.controller.answers (times.map query) ∧
        line = session.options.lineOf view := by
  induction pauses using Nat.strong_induction_on generalizing session seconds with
  | _ pauses ih =>
    have hfirst : (session.statusLine seconds).answer = .ok line →
        ∃ (times : List Binary64) (view : Snapshot),
          .ok (.view view) ∈ session.printer.controller.answers (times.map query) ∧
            line = session.options.lineOf view := by
      intro hline
      obtain ⟨view, hview, hshown⟩ := exists_of_statusLine hline
      exact ⟨[seconds], view, List.mem_cons.2 (Or.inl hview.symm), hshown⟩
    have hprinted := session.printed_play pauses seconds
    generalize (session.play pauses seconds).lines = lines at h hprinted
    cases hprinted with
    | nothing => contradiction
    | ended hline => exact hfirst (List.mem_singleton.1 h ▸ hline)
    | next later hline =>
      rcases List.mem_cons.1 h with rfl | h
      · exact hfirst hline
      · obtain ⟨times, view, hview, hshown⟩ := ih _ (Nat.lt_succ_self _) h
        exact ⟨seconds :: times, view, List.mem_cons_of_mem _ hview, hshown⟩

end Session

/-! ### Settings -/

theorem lookup_set (c : Config) (key other : String) (value : OptionValue) :
    (c.set key value).values.lookup other =
      if other = key then some value else c.values.lookup other := by
  rw [Config.set, lookup_cons_eq, lookup_filter_ne]
  by_cases h : other = key
  · rw [if_pos h, if_pos h]
  · rw [if_neg h, if_neg h, if_neg h]

variable {p : Printer} {now number : Binary64}

/- Whatever the environment says under any name of an option, the option given counts. -/
theorem printSeconds_of_option
    (hopen : Printer.openAt (configuration options environment) now = .ok p)
    (h : options.printSeconds = some (.value number)) : p.printSeconds = some number := by
  obtain ⟨printSeconds, feedRate, hseconds, -, rfl⟩ := Printer.exists_of_openAt hopen
  refine Config.getNumber_of_lookup (by decide) ?_ hseconds
  simp only [configuration, h]
  rw [lookup_set, if_pos rfl]
  rfl

theorem feedRate_of_option
    (hopen : Printer.openAt (configuration options environment) now = .ok p)
    (h : options.feed = some (.value number)) : p.feedRate = some number := by
  obtain ⟨printSeconds, feedRate, -, hrate, rfl⟩ := Printer.exists_of_openAt hopen
  refine Config.getNumber_of_lookup (by decide) ?_ hrate
  simp only [configuration, h]
  -- The print time may be set over the feed rate, but under another name.
  split
  · rw [lookup_set, if_neg (by decide), lookup_set, if_pos rfl]
    rfl
  · rw [lookup_set, if_pos rfl]
    rfl

/-! ### Opening -/

variable {stored : String} {count : Int}

theorem exists_of_running
    (h : (Session.openAt options environment read seconds).1 = .running session) :
    ∃ p, Printer.openAt (configuration options environment) (machineTime seconds) = .ok p ∧
      ∃ stored, (p.seed read options.file (machineTime seconds)).answer = .ok (some stored) ∧
        session.options = options ∧
        session.printer = (p.seed read options.file (machineTime seconds)).printer := by
  unfold Session.openAt at h
  split at h
  next => contradiction
  next p hopen =>
    refine ⟨p, hopen, ?_⟩
    dsimp only at h
    split at h
    next => contradiction
    next => contradiction
    next => contradiction
    next stored count hstored hcount =>
      cases h
      exact ⟨stored, hstored, rfl, rfl⟩

theorem openAt_running
    (hopen : Printer.openAt (configuration options environment) (machineTime seconds) = .ok p)
    (hseed : (p.seed read options.file (machineTime seconds)).answer = .ok (some stored))
    (hcount : options.count = .value count) :
    (Session.openAt options environment read seconds).1 = .running
      { options, lineCount := linesAskedFor count,
        printer := (p.seed read options.file (machineTime seconds)).printer } := by
  unfold Session.openAt
  simp only [hopen, hseed, hcount]

theorem openAt_nothingToStart
    (hopen : Printer.openAt (configuration options environment) (machineTime seconds) = .ok p)
    (hseed : (p.seed read options.file (machineTime seconds)).answer = .ok none) :
    (Session.openAt options environment read seconds).1 = .nothingToStart := by
  unfold Session.openAt
  simp only [hopen, hseed]

theorem transcript_of_running
    (h : (Session.openAt options environment read seconds).1 = .running session) :
    transcript options environment read seconds pauses =
      session.play pauses seconds := by
  rw [transcript, h]

theorem transcript_of_nothing
    (h : (Session.openAt options environment read seconds).1 = .nothingToStart) :
    transcript options environment read seconds pauses =
      { ending := .exited 2 nothingToStartText } := by
  rw [transcript, h]

theorem exists_of_mem_transcript
    (h : line ∈ (transcript options environment read seconds pauses).lines) :
    ∃ session, (Session.openAt options environment read seconds).1 = .running session ∧
      line ∈ (session.play pauses seconds).lines := by
  unfold transcript at h
  split at h
  next => contradiction
  next => contradiction
  next session hrunning => exact ⟨session, hrunning, h⟩

end VirtualPrinter.CommandLine
