import VirtualPrinter.Proofs.Binary64.Whole
import VirtualPrinter.Proofs.Config.Ranges
import VirtualPrinter.Proofs.Machine.Coherence
import VirtualPrinter.Proofs.Machine.Early
import VirtualPrinter.Proofs.Printer.Commands
import VirtualPrinter.Proofs.Printer.Files

/-!
# Durations of jobs

Every job that a printer installs has a duration to print for: the print time, or an estimate of a
second or more. The print time may have been configured to be no number, and the feed rate, and both
may be infinite; none of that makes a duration that is zero or no number. So a job does not wrap at
the time of its start, nor, without a print time, within the first second after it.
-/

namespace VirtualPrinter

open Binary64 Config Controller

attribute [local irreducible] Binary64.ofNat Binary64.ofRatio

/-! ### Durations -/

/-- A duration in milliseconds that a printer with a print time in seconds may give to a job. -/
structure Usable (seconds duration : Binary64) : Prop where
  positive : lt 0 duration = true
  isNumber : duration ≠ nan
  fixed : lt 0 seconds = true → duration = seconds * 1000
  estimated : lt 0 seconds = false → le 1000 duration = true

variable {seconds duration startedAt now : Binary64} {program : Program} {s t : Int}

theorem mul_thousand_pos (h : lt 0 seconds = true) : lt 0 (seconds * 1000) = true :=
  mul_ofNat_pos (n := 1000) h (by omega) (by omega)

theorem usable_fixed (h : lt 0 seconds = true) : Usable seconds (seconds * 1000) where
  positive := mul_thousand_pos h
  isNumber := ne_nan_of_lt (mul_thousand_pos h)
  fixed _ := rfl
  estimated hnone := by
    rw [h] at hnone
    contradiction

theorem usable_estimated (h : lt 0 seconds = false) (p : Program) (feedRate : Binary64) :
    Usable seconds (p.duration feedRate) where
  positive := duration_pos p feedRate
  isNumber := ne_nan_of_lt (duration_pos p feedRate)
  fixed hsome := by
    rw [h] at hsome
    contradiction
  estimated _ := leastDuration_le p feedRate

/- Differences of whole times are not rounded, so what is less than a second stays less. -/
theorem Usable.elapsed_lt (h : Usable seconds duration) (hnone : lt 0 seconds = false)
    (hstart : startedAt.IsWhole s) (hnow : now.IsWhole t) (hs : s.natAbs < 2 ^ 51)
    (ht : t.natAbs < 2 ^ 51) (hlt : t < s + 1000) : (now - startedAt).lt duration = true := by
  have helapsed : (now - startedAt).IsWhole (t - s) := hnow.sub hstart (by omega)
  have hthousand : (1000 : Binary64).IsWhole 1000 := isWhole_ofNat (n := 1000) (by omega)
  refine lt_of_lt_of_le ?_ (h.estimated hnone)
  rw [helapsed.lt_eq hthousand, decide_eq_true_eq]
  omega

namespace Printer

variable {p q : Printer} {given : Option Binary64} {m n : Machine}

theorem fixedDuration_eq (h : p.printSeconds = some seconds) :
    p.fixedDuration = .ok (if lt 0 seconds then some (seconds * 1000) else none) := by
  rw [fixedDuration, h]

/- The duration of a job is the print time, or else the estimate at the feed rate. -/
theorem duration_of_effectiveDuration (h : p.printSeconds = some seconds)
    (hgiven : p.fixedDuration = .ok given)
    (hd : p.controller.effectiveDuration program given = .ok duration) :
    (lt 0 seconds = true ∧ duration = seconds * 1000) ∨
      (lt 0 seconds = false ∧ ∃ feedRate, p.feedRate = some feedRate ∧
        duration = program.duration feedRate) := by
  rw [fixedDuration_eq h, Except.ok.injEq] at hgiven
  subst hgiven
  cases hseconds : lt 0 seconds with
  | true =>
    have hle := not_le_of_lt (mul_thousand_pos hseconds)
    rw [hseconds, if_pos rfl, effectiveDuration_given program hle, Except.ok.injEq] at hd
    exact Or.inl ⟨rfl, hd.symm⟩
  | false =>
    rw [hseconds, if_neg Bool.false_ne_true] at hd
    change p.controller.estimate program = .ok duration at hd
    unfold estimate at hd
    split at hd
    next feedRate hfeed => exact Or.inr ⟨rfl, feedRate, hfeed, (Except.ok.inj hd).symm⟩
    next => contradiction

theorem usable_of_effectiveDuration (h : p.printSeconds = some seconds)
    (hgiven : p.fixedDuration = .ok given)
    (hd : p.controller.effectiveDuration program given = .ok duration) :
    Usable seconds duration := by
  rcases duration_of_effectiveDuration h hgiven hd with ⟨hset, rfl⟩ | ⟨hunset, feedRate, -, rfl⟩
  · exact usable_fixed hset
  · exact usable_estimated hunset program feedRate

/-! ### What requests install -/

/-- What a request can make of a printer. Whatever becomes of the files, the machine stays, or it is
what a command with a time makes of it, or a program is loaded beside the job that there was, or a
job for the effective duration is installed. -/
inductive Served (p : Printer) : Printer → Prop
  | kept (store : ProgramStore) : Served p { p with store }
  | timed (store : ProgramStore) (op : Operation) (hop : op.time?.isSome = true) :
      Served p { p with store, machine := (p.controller.perform op).machine }
  | loaded (store : ProgramStore) (text : ProgramText) {program : Program} {fault : EncodingFault}
      (htext : Program.ofText text.legible = .ok program) (hfault : text.encodable = .error fault) :
      Served p { p with store, machine := p.controller.load program }
  | installed (store : ProgramStore) {given : Option Binary64} {program : Program}
      {duration : Binary64} (name text : String) (now : Binary64)
      (hgiven : p.fixedDuration = .ok given) (htext : Program.ofText text = .ok program)
      (hduration : p.controller.effectiveDuration program given = .ok duration) :
      Served p { p with
        store, machine := p.controller.install (some name) text program now duration }

theorem served_start (p : Printer) (file : Option String) (now : Binary64) :
    Served p (p.start file now).printer := by
  have houtcome := p.start_outcome file now
  generalize (p.start file now).answer = answer at houtcome
  generalize (p.start file now).printer = printer at houtcome ⊢
  cases houtcome with
  | refused hnone => exact .kept _
  | started hstored hgiven hstarted =>
    cases hstarted with
    | refused hnone => exact .kept _
    | torn hprogram hduration hfault => exact .loaded _ _ hprogram hfault
    | installed htext hprogram hduration => exact .installed _ _ _ now hgiven hprogram hduration

theorem served_execute (p : Printer) (gcode : Option String) (now : Binary64) :
    Served p (p.execute gcode now).printer := by
  have hexecuted := p.executed_execute gcode now
  generalize p.execute gcode now = r at hexecuted ⊢
  cases hexecuted with
  | started file => exact p.served_start file now
  | paused => exact .timed _ (.pause now) rfl
  | resumed => exact .timed _ (.resume now) rfl
  | stopped => exact .timed _ (.stop now) rfl
  | refused error => exact .kept _

/- Storing a file first makes no difference to the machine. -/
theorem Served.of_put {name : ProgramName} {body : Option Body} (h : Served (p.put name body) q) :
    Served p q := by
  cases h with
  | kept store => exact .kept store
  | timed store op hop => exact .timed store op hop
  | loaded store text htext hfault => exact .loaded store text htext hfault
  | installed store name text now hgiven htext hduration =>
    exact .installed store name text now hgiven htext hduration

theorem served_seed (p : Printer) (read : FileReader) (path : Option String) (now : Binary64) :
    Served p (p.seed read path now).printer := by
  unfold seed
  split
  next => exact .kept _
  next => exact .kept _
  next =>
    split
    next => exact .kept _
    next =>
      unfold seedBytes
      split
      next => exact .kept _
      next =>
        split
        next => exact .kept _
        next =>
          rw [seedText_printer]
          exact (served_start _ _ now).of_put

theorem served_serve (p : Printer) (request : Request) : Served p (p.serve request) := by
  cases request with
  | start file now => exact p.served_start file now
  | pause now => exact .timed _ (.pause now) rfl
  | resume now => exact .timed _ (.resume now) rfl
  | stop now => exact .timed _ (.stop now) rfl
  | execute gcode now => exact p.served_execute gcode now
  | status dialect now => exact .timed _ (.status now) rfl
  | uploadForm file body => exact .kept _
  | uploadRaw path body =>
    simp only [serve, uploadRaw]
    cases p.store.uploadRaw (.ofText path) body <;> exact .kept _
  | download path =>
    simp only [serve, download]
    cases p.store.get? (.ofText path) <;> exact .kept _
  | seed read path now => exact p.served_seed read path now

/-! ### The job of a printer -/

/-- A printer with a print time whose job has a usable duration, if there is one. -/
structure Timed (seconds : Binary64) (p : Printer) : Prop where
  printSeconds : p.printSeconds = some seconds
  coherent : Machine.Coherent p.machine
  job : p.machine.runMode ≠ .idle →
    ∃ duration, p.machine.job.duration = some duration ∧ Usable seconds duration

theorem Timed.served (h : Timed seconds p) (hserved : Served p q) : Timed seconds q := by
  cases hserved with
  | kept store => exact ⟨h.printSeconds, h.coherent, h.job⟩
  | timed store op hop =>
    obtain ⟨now, htime⟩ := Option.isSome_iff_exists.1 hop
    have hsame : SameJob p.machine (p.controller.perform op).machine :=
      (effect_of_time (c := p.controller) htime).sameJob
    refine ⟨h.printSeconds, coherent_next (c := p.controller) h.coherent op, fun hactive => ?_⟩
    rw [hsame.duration]
    exact h.job (active_of_time (c := p.controller) htime hactive)
  | loaded store text htext hfault =>
    exact ⟨h.printSeconds, coherent_load (c := p.controller) h.coherent _, h.job⟩
  | installed store name text now hgiven htext hduration =>
    have husable := usable_of_effectiveDuration h.printSeconds hgiven hduration
    exact ⟨h.printSeconds, coherent_install _ text _ _, fun _ => ⟨_, rfl, husable⟩⟩

theorem Timed.serveAll (h : Timed seconds p) (requests : List Request) :
    Timed seconds (p.serveAll requests) := by
  induction requests generalizing p with
  | nil => exact h
  | cons request requests ih => exact ih (h.served (p.served_serve request))

theorem exists_timed_of_open {config : Config} (hconfig : config.Textual)
    (hopen : openAt config now = .ok p) : ∃ seconds, Timed seconds p := by
  obtain ⟨seconds, rate, -, -, -, -, rfl⟩ := (openAt_eq_ok_iff hconfig).1 hopen
  exact ⟨seconds, rfl, Machine.coherent_boot now, fun hactive => absurd rfl hactive⟩

/-! ### Times that do not wrap -/

/- A job that has a start time is not that of an idle machine. -/
theorem Timed.job_of_started (h : Timed seconds p)
    (hstart : p.machine.job.startedAt = some startedAt) :
    ∃ duration, p.machine.job.duration = some duration ∧ Usable seconds duration := by
  refine h.job fun hidle => ?_
  rw [h.coherent.idle hidle] at hstart
  contradiction

theorem Timed.beforeEnd_start (h : Timed seconds p)
    (hstart : p.machine.job.startedAt = some startedAt) (hfinite : now.isFinite = true)
    (hsame : now.sameNumber startedAt = true) : p.machine.BeforeEnd now := by
  intro other hprogram hother
  rw [hstart, Option.some.injEq] at hother
  obtain ⟨duration, hduration, husable⟩ := h.job_of_started hstart
  rw [← hother]
  exact ⟨duration, hduration, sub_lt_of_sameNumber hfinite hsame husable.positive⟩

theorem Timed.beforeEnd_second (h : Timed seconds p) (hnone : lt 0 seconds = false)
    (hstart : p.machine.job.startedAt = some startedAt) (hs : startedAt.IsWhole s)
    (ht : now.IsWhole t) (hsmall : s.natAbs < 2 ^ 51) (htime : t.natAbs < 2 ^ 51)
    (hlt : t < s + 1000) : p.machine.BeforeEnd now := by
  intro other hprogram hother
  rw [hstart, Option.some.injEq] at hother
  obtain ⟨duration, hduration, husable⟩ := h.job_of_started hstart
  rw [← hother]
  exact ⟨duration, hduration, husable.elapsed_lt hnone hs ht hsmall htime hlt⟩

theorem Served.machine_cases (hserved : Served p q) (h : p.printSeconds = some seconds) :
    q.machine = p.machine ∨
    (∃ op, op.time?.isSome = true ∧ q.machine = (p.controller.perform op).machine) ∨
    (∃ (text : ProgramText) (program : Program) (fault : EncodingFault),
      Program.ofText text.legible = .ok program ∧ text.encodable = .error fault ∧
      q.machine = { p.machine with program := some program }) ∨
    ∃ name text program now duration, Program.ofText text = .ok program ∧
      q.machine = p.controller.install (some name) text program now duration ∧
      Usable seconds duration := by
  cases hserved with
  | kept store => exact Or.inl rfl
  | timed store op hop => exact Or.inr (Or.inl ⟨op, hop, rfl⟩)
  | loaded store text htext hfault =>
    exact Or.inr (Or.inr (Or.inl ⟨text, _, _, htext, hfault, rfl⟩))
  | installed store name text now hgiven htext hduration =>
    exact Or.inr (Or.inr (Or.inr ⟨name, text, _, now, _, htext, rfl,
      usable_of_effectiveDuration h hgiven hduration⟩))

/-- Every job that a printer installs has a usable duration, and so has the job of the machine at
all times later; a program whose text cannot be encoded is loaded without a job. Queries at the time
of the start of a job do not wrap it, and without a print time neither do queries less than a second
after that. -/
theorem serveAll_usable {config : Config} (hconfig : config.Textual) {bootedAt : Binary64}
    (hopen : openAt config bootedAt = .ok p) (earlier : List Request) :
    let q := p.serveAll earlier
    ∃ seconds, p.printSeconds = some seconds ∧
      (∀ request,
        (q.serve request).machine = q.machine ∨
        (∃ op, op.time?.isSome = true ∧
          (q.serve request).machine = (q.controller.perform op).machine) ∨
        (∃ (text : ProgramText) (program : Program) (fault : EncodingFault),
          Program.ofText text.legible = .ok program ∧ text.encodable = .error fault ∧
          (q.serve request).machine = { q.machine with program := some program }) ∨
        ∃ name text program now duration, Program.ofText text = .ok program ∧
          (q.serve request).machine = q.controller.install (some name) text program now duration ∧
          Usable seconds duration) ∧
      (q.machine.runMode ≠ .idle →
        ∃ duration, q.machine.job.duration = some duration ∧ Usable seconds duration) ∧
      ∀ startedAt, q.machine.job.startedAt = some startedAt →
        (∀ ops,
          (∀ op ∈ ops, ∃ now, op.pollTime? = some now ∧ now.isFinite = true ∧
            now.sameNumber startedAt = true) →
          q.controller.neverWraps ops = true) ∧
        (lt 0 seconds = false → ∀ s : Int, startedAt.IsWhole s → s.natAbs < 2 ^ 51 → ∀ ops,
          (∀ op ∈ ops, ∃ now t, op.pollTime? = some now ∧ now.IsWhole t ∧ t.natAbs < 2 ^ 51 ∧
            t < s + 1000) →
          q.controller.neverWraps ops = true) := by
  intro q
  obtain ⟨seconds, hopened⟩ := exists_timed_of_open hconfig hopen
  have htimed : Timed seconds q := hopened.serveAll earlier
  refine ⟨seconds, hopened.printSeconds, fun request => ?_, htimed.job, fun startedAt hstart => ?_⟩
  · exact (q.served_serve request).machine_cases htimed.printSeconds
  · constructor
    · intro ops hops
      refine neverWraps_of_beforeEnd fun op hop => ?_
      obtain ⟨now, hpoll, hfinite, hsame⟩ := hops op hop
      exact ⟨now, hpoll, htimed.beforeEnd_start hstart hfinite hsame⟩
    · intro hnone s hs hsmall ops hops
      refine neverWraps_of_beforeEnd fun op hop => ?_
      obtain ⟨now, t, hpoll, ht, htime, hlt⟩ := hops op hop
      exact ⟨now, hpoll, htimed.beforeEnd_second hnone hstart hs ht hsmall htime hlt⟩

/- Neither setting is a finite number, and the program is asked about at its start, before it, and
just before the end of its first second. -/
theorem serveAll_usable_nan :
    let config : Config := ⟨[("print_seconds", .text "nan"), ("feed_rate", .text "inf")]⟩
    let p : Printer := { config, printSeconds := some nan, feedRate := some (infinity false),
                         store := .empty, machine := { bootedAt := 0 } }
    let q := p.serveAll [.uploadForm (some "a") (some (.text "G1 X0 Y0\nG1 X1 E1")),
      .execute (some "M32 \"gcodes/a\"") 5]
    config.Textual ∧ openAt config 0 = .ok p ∧ q.machine.job.startedAt = some 5 ∧
      (∃ duration, q.machine.job.duration = some duration ∧ Usable nan duration) ∧
      q.controller.neverWraps [.tick 5, .status 5] = true ∧
      q.controller.neverWraps [.tick 1004, .status (-3)] = true := by
  intro config p q
  have hconfig : config.Textual := textual_cons _ _ (textual_cons _ _ textual_nil)
  have hseconds : config.Setting (keys "print_seconds") (some 0) nan := by
    rw [keys_printSeconds]
    exact .given (.said (by decide) rfl (by simp)) (by decide +kernel)
  have hrate : config.Setting (keys "feed_rate") (some 600) (infinity false) := by
    rw [keys_feedRate]
    exact .given (.said (by decide) rfl (by simp)) (by decide +kernel)
  have hopen : openAt config 0 = .ok p := (openAt_eq_ok_iff hconfig).2
    ⟨nan, infinity false, hseconds, Or.inl rfl, hrate, Or.inr (by decide +kernel), rfl⟩
  have hjob : q.machine.runMode ≠ .idle ∧ q.machine.job.startedAt = some 5 := by
    decide +kernel
  obtain ⟨seconds, hprint, -, hduration, hpolls⟩ := serveAll_usable hconfig hopen
    [.uploadForm (some "a") (some (.text "G1 X0 Y0\nG1 X1 E1")),
      .execute (some "M32 \"gcodes/a\"") 5]
  cases hprint
  obtain ⟨hstart, hsecond⟩ := hpolls 5 hjob.2
  have hfive : (5 : Binary64).IsWhole 5 := isWhole_ofNat (n := 5) (by omega)
  have hlate : (1004 : Binary64).IsWhole 1004 := isWhole_ofNat (n := 1004) (by omega)
  have hthree : (-3 : Binary64).IsWhole (-3) := (isWhole_ofNat (n := 3) (by omega)).neg
  refine ⟨hconfig, hopen, hjob.2, hduration hjob.1, hstart _ ?_,
    hsecond (lt_nan 0) 5 hfive (by decide) _ ?_⟩
  · rw [List.forall_mem_cons, List.forall_mem_singleton]
    exact ⟨⟨5, rfl, by decide +kernel, by decide +kernel⟩,
      ⟨5, rfl, by decide +kernel, by decide +kernel⟩⟩
  · rw [List.forall_mem_cons, List.forall_mem_singleton]
    exact ⟨⟨1004, 1004, rfl, hlate, by decide, by decide⟩,
      ⟨-3, -3, rfl, hthree, by decide, by decide⟩⟩

end Printer

end VirtualPrinter
