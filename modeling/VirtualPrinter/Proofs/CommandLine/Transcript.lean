import Mathlib.Data.List.Iterate
import VirtualPrinter.Proofs.Binary64.Nonneg
import VirtualPrinter.Proofs.CommandLine.Arguments
import VirtualPrinter.Proofs.CommandLine.Session
import VirtualPrinter.Proofs.Machine.Shown
import VirtualPrinter.Proofs.Printer.Durations

/-!
# Runs as they are asked for

A run prints as many lines as it is asked for and pauses between each two. The lines are the answers
of one machine to successive status queries, and the job in it lasts as long as the options say.
Without a program there is nothing but a complaint.
-/

namespace VirtualPrinter.CommandLine

open Binary64 Controller

attribute [local irreducible] Binary64.ofNat Binary64.ofRatio

variable {arguments : List String} {options : Options} {environment : List (String × String)}
  {read : FileReader}
  {seconds interval : Binary64} {pauses n : Nat} {session : Session} {text : String}
  {p : Printer} {program : Program} {duration : Binary64}

/-! ### The clock -/

/-- The times at which lines that are an interval apart are printed. -/
def lineTimes (seconds interval : Binary64) (n : Nat) : List Binary64 :=
  List.iterate (· + interval) seconds n

/-- In milliseconds the times of a run stay finite, and so does what has passed since its beginning.
A clock that begins at zero or later takes care of the second. -/
structure Lasting (seconds : Binary64) (times : List Binary64) : Prop where
  finite : ∀ t ∈ times, (machineTime t).isFinite = true
  passed : le 0 seconds = true ∨ ∀ t ∈ times, machineTime t - machineTime seconds ≠ infinity false

theorem zero_le_machineTime (h : le 0 seconds = true) : le 0 (machineTime seconds) = true := by
  have hthousand : (1000 : Binary64).isFinite = true ∧ lt 0 (1000 : Binary64) = true ∧
      le 0 ((0 : Binary64) * 1000) = true := by
    decide +kernel
  exact le_trans hthousand.2.2 (mul_mono hthousand.1 hthousand.2.1 h)

theorem Lasting.passed_ne {times : List Binary64} (h : Lasting seconds times) :
    ∀ t ∈ times, machineTime t - machineTime seconds ≠ infinity false := by
  intro t ht
  rcases h.passed with hseconds | hpassed
  · exact sub_ne_highest (h.finite t ht) (zero_le_machineTime hseconds)
  · exact hpassed t ht

/-! ### All lines of a session -/

/-- What a transcript shows of the answers to successive queries: a line for each and a pause between
each two, up to the first fault, if there is one. -/
inductive Shows (options : Options) (interval : Binary64) :
    List (Except MachineFault Answer) → Transcript → Prop
  | last (view : Snapshot) : Shows options interval [.ok (.view view)]
      { lines := [options.lineOf view], ending := .exited 0 "" }
  | fault (fault : MachineFault) (later : List (Except MachineFault Answer)) :
      Shows options interval (.error fault :: later)
        { ending := .failed (.printer (.machine fault)) }
  | next {answers : List (Except MachineFault Answer)} {t : Transcript} (view : Snapshot)
      (h : Shows options interval answers t) :
      Shows options interval (.ok (.view view) :: answers)
        { t with lines := options.lineOf view :: t.lines, pauses := .value interval :: t.pauses }

theorem Shows.eq_of_views {views : List Snapshot} {t : Transcript}
    (h : Shows options interval (views.map fun view => .ok (.view view)) t) :
    t = { lines := views.map options.lineOf
          pauses := List.replicate (views.length - 1) (.value interval)
          ending := .exited 0 "" } := by
  induction views generalizing t with
  | nil => cases h
  | cons view views ih =>
    cases views with
    | nil =>
      cases h with
      | last => rfl
      | next _ h => cases h
    | cons second views =>
      cases h with
      | next _ h =>
        rw [ih h]
        rfl

namespace Session

theorem query_cases (c : Controller) (seconds : Binary64) :
    (∃ fault, (c.perform (query seconds)).answer = .error fault) ∨
      ∃ view, (c.perform (query seconds)).answer = .ok (.view view) := by
  cases hstatus : (c.status (machineTime seconds)).answer with
  | error fault => exact Or.inl ⟨fault, congrArg (Except.map Answer.view) hstatus⟩
  | ok view => exact Or.inr ⟨view, congrArg (Except.map Answer.view) hstatus⟩

/- Whatever the machine answers, the lines follow the answers. -/
theorem play_shows (s : Session) (seconds : Binary64)
    (hinterval : s.options.interval = .value interval) (hcount : s.lineCount = some (n + 1))
    (hn : n ≤ pauses) :
    Shows s.options interval
      (s.printer.controller.answers ((lineTimes seconds interval (n + 1)).map query))
      (s.play pauses seconds) := by
  induction n generalizing s pauses seconds with
  | zero =>
    have hanswers : s.printer.controller.answers ((lineTimes seconds interval 1).map query) =
        [(s.printer.controller.perform (query seconds)).answer] := rfl
    rw [hanswers]
    rcases query_cases s.printer.controller seconds with ⟨fault, hanswer⟩ | ⟨view, hanswer⟩
    · rw [hanswer, play_fault (statusLine_of_fault hanswer)]
      exact .fault fault []
    · rw [hanswer, play_last (statusLine_of_view hanswer) hcount]
      exact .last view
  | succ n ih =>
    obtain ⟨left, rfl⟩ : ∃ left, pauses = left + 1 := ⟨pauses - 1, by omega⟩
    have hanswers : s.printer.controller.answers ((lineTimes seconds interval (n + 2)).map query) =
        (s.printer.controller.perform (query seconds)).answer ::
          (s.after seconds).printer.controller.answers
            ((lineTimes (seconds + interval) interval (n + 1)).map query) := rfl
    have hleft : (s.after seconds).lineCount = some (n + 1) := by
      rw [after, hcount]
      rfl
    have hlater :=
      ih (s.after seconds) (seconds + interval) hinterval hleft (Nat.le_of_succ_le_succ hn)
    have hmore : s.lineCount ≠ some 1 := by
      rw [hcount]
      simp
    rw [hanswers]
    rcases query_cases s.printer.controller seconds with ⟨fault, hanswer⟩ | ⟨view, hanswer⟩
    · rw [hanswer, play_fault (statusLine_of_fault hanswer)]
      exact .fault fault _
    · rw [hanswer, play_next (statusLine_of_view hanswer) hmore hinterval rfl]
      exact .next view hlater

end Session

/-! ### Queries that are all answered -/

/- The job stays the one that was installed, so every query is answered like the first one. -/
theorem exists_views {c : Controller} {times : List Binary64}
    (h : c.machine.Installed text program) (hsize : text.utf8ByteSize ≤ 2 ^ 53)
    (htimes : ∀ t ∈ times, machineTime t - c.machine.bootedAt ≠ infinity false) :
    ∃ views : List Snapshot, views.length = times.length ∧
      c.answers (times.map Session.query) = views.map fun view => .ok (.view view) := by
  induction times generalizing c with
  | nil => exact ⟨[], rfl, rfl⟩
  | cons t times ih =>
    obtain ⟨hfirst, hlater⟩ := List.forall_mem_cons.1 htimes
    obtain ⟨view, hview⟩ := Session.exists_view h hsize hfirst
    have htime : (Session.query t).time? = some (machineTime t) := rfl
    have hsame : SameJob c.machine (c.next (Session.query t)).machine :=
      (effect_of_time htime).sameJob
    have hinstalled := h.of_frame hsame.program hsame.fileSize hsame.duration
    obtain ⟨views, hlength, hviews⟩ := ih hinstalled (hsame.bootedAt ▸ hlater)
    exact ⟨view :: views, congrArg (· + 1) hlength, congrArg₂ List.cons hview hviews⟩

/-! ### What a run is asked for -/

/-- A run is asked for lines of the program in its file, an interval apart, and its program starts.
-/
structure Asks (options : Options) (p : Printer) (read : FileReader) (seconds : Binary64)
    (text : String) (n : Nat) (interval : Binary64) : Prop where
  held : p.config.HoldsText read options.file text
  nonempty : text ≠ ""
  started : ∀ error, (p.seed read options.file (machineTime seconds)).answer ≠ .error error
  counts : options.count = .value n
  positive : 0 < n
  spaced : options.interval = .value interval
  clock : Lasting seconds (lineTimes seconds interval n)

/-- A duration is the print time or else the estimate at the feed rate, and an option that is given
is what decides. -/
structure Decided (options : Options) (p : Printer) (program : Program) (duration : Binary64) :
    Prop where
  timed : (∃ printSeconds, p.printSeconds = some printSeconds ∧ lt 0 printSeconds = true ∧
      duration = printSeconds * 1000) ∨
    ∃ printSeconds feedRate, p.printSeconds = some printSeconds ∧ lt 0 printSeconds = false ∧
      p.feedRate = some feedRate ∧ duration = program.duration feedRate
  printSeconds : ∀ x, options.printSeconds = some (.value x) → p.printSeconds = some x
  feedRate : ∀ x, options.feed = some (.value x) → p.feedRate = some x

theorem decided_of_runs
    (hopen : Printer.openAt (configuration options environment) (machineTime seconds) = .ok p)
    (h : p.RunsText text program duration) : Decided options p program duration where
  timed := by
    obtain ⟨given, hgiven, hduration⟩ := h.timed
    cases hseconds : p.printSeconds with
    | none =>
      rw [Printer.fixedDuration, hseconds] at hgiven
      contradiction
    | some printSeconds =>
      rcases Printer.duration_of_effectiveDuration hseconds hgiven hduration with
        ⟨hset, heq⟩ | ⟨hunset, feedRate, hfeed, heq⟩
      · exact Or.inl ⟨printSeconds, rfl, hset, heq⟩
      · exact Or.inr ⟨printSeconds, feedRate, rfl, hunset, hfeed, heq⟩
  printSeconds _ := printSeconds_of_option hopen
  feedRate _ := feedRate_of_option hopen

/- A start that does not fail has found a text that runs, unless there was nothing to start. -/
theorem Asks.runs (h : Asks options p read seconds text n interval) :
    ∃ program duration, p.RunsText text program duration := by
  have houtcome := p.seed_outcome read options.file (machineTime seconds)
  have hstarted := h.started
  generalize (p.seed read options.file (machineTime seconds)).answer = answer at houtcome hstarted
  generalize (p.seed read options.file (machineTime seconds)).printer.controller = c at houtcome
  cases houtcome with
  | nothing hnone => exact absurd h.held (Config.not_holdsText_of_nothing hnone h.nonempty)
  | failed c hnone => exact absurd rfl (hstarted _)
  | running name hheld hruns => exact ⟨_, _, hheld.eq h.held ▸ hruns⟩

theorem Asks.shows
    (hopen : Printer.openAt (configuration options environment) (machineTime seconds) = .ok p)
    (h : Asks options p read seconds text n interval) (hn : n ≤ pauses + 1) :
    Shows options interval
      ((p.seed read options.file (machineTime seconds)).printer.controller.answers
        ((lineTimes seconds interval n).map Session.query))
      (transcript options environment read seconds pauses) := by
  obtain ⟨program, duration, hruns⟩ := h.runs
  obtain ⟨name, hanswer, -⟩ := p.seed_installed (machineTime seconds) h.held h.nonempty hruns
  obtain ⟨n, rfl⟩ := Nat.exists_eq_succ_of_ne_zero h.positive.ne'
  let session : Session :=
    { options, lineCount := some (n + 1),
      printer := (p.seed read options.file (machineTime seconds)).printer }
  have hrunning : (Session.openAt options environment read seconds).1 = .running session :=
    openAt_running hopen hanswer h.counts
  rw [transcript_of_running hrunning]
  exact session.play_shows seconds h.spaced rfl (Nat.le_of_succ_le_succ hn)

theorem Asks.exists_views
    (hopen : Printer.openAt (configuration options environment) (machineTime seconds) = .ok p)
    (h : Asks options p read seconds text n interval) (hsize : text.utf8ByteSize ≤ 2 ^ 53) :
    ∃ views : List Snapshot, views.length = n ∧
      (p.seed read options.file (machineTime seconds)).printer.controller.answers
        ((lineTimes seconds interval n).map Session.query) =
          views.map fun view => .ok (.view view) := by
  obtain ⟨program, duration, hruns⟩ := h.runs
  obtain ⟨name, -, hinstalled, -, hbooted⟩ :=
    p.seed_installed (machineTime seconds) h.held h.nonempty hruns
  have htimes := h.clock.passed_ne
  rw [← (Printer.opened_of_openAt hopen).2, ← hbooted] at htimes
  obtain ⟨views, hlength, hviews⟩ := CommandLine.exists_views hinstalled hsize htimes
  exact ⟨views, hlength.trans (List.length_iterate ..), hviews⟩

theorem run_of_spells (h : Spells {} arguments options) :
    run arguments environment read seconds pauses =
      .ok (transcript options environment read seconds pauses) := by
  rw [run, ofArguments_of_spells h]
  rfl

end VirtualPrinter.CommandLine
