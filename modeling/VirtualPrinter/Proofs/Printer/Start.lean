import VirtualPrinter.Printer.Basic
import VirtualPrinter.Proofs.Binary64.Finite
import VirtualPrinter.Proofs.Machine.Start

/-!
# What a start leaves

A start is refused and changes nothing, or the program runs. There are two exceptions, each of which
is answered with a fault: a program of infinite duration runs nevertheless, and one whose text cannot
be encoded is loaded beside the job that there was.
-/

namespace VirtualPrinter

open Binary64

attribute [local irreducible] Binary64.ofNat Binary64.ofRatio

/-! ### Durations that can be spelled -/

theorem exists_spellDuration {seconds : Binary64} (h : seconds ≠ infinity false) :
    ∃ text, spellDuration seconds = .ok text := by
  have hfinite := isFinite_larger_zero h
  unfold spellDuration
  cases hlarger : larger 0 seconds with
  | nan => simp [hlarger, isFinite] at hfinite
  | infinity negative => simp [hlarger, isFinite] at hfinite
  | finite negative m => exact ⟨_, rfl⟩

theorem div_thousand_ne {duration : Binary64} (h : duration ≠ infinity false) :
    duration / 1000 ≠ infinity false := by
  obtain ⟨n, hn, hunits⟩ := exists_ofNat (n := 1000) (by omega)
  have hthousand : (1000 : Binary64) = finite false n := hn
  rw [hthousand]
  cases duration with
  | nan => exact nofun
  | infinity negative =>
    cases negative with
    | true => exact nofun
    | false => contradiction
  | finite negative m =>
    have hone : unitsPerOne ≤ n.units := by
      rw [hunits]
      exact Nat.le_mul_of_pos_left _ (by omega)
    obtain ⟨k, hk, -⟩ := finite_div_le (s := negative) (t := false) (m := m) hone
    rw [hk]
    exact nofun

namespace Controller

theorem startJob_finite (c : Controller) (name : Option String) (plain : String)
    (program : Program) (now : Binary64) {duration : Binary64} (h : duration ≠ infinity false) :
    (c.startJob name plain program now duration).answer = .ok program := by
  obtain ⟨spelled, hspelled⟩ := exists_spellDuration (div_thousand_ne h)
  unfold startJob
  rw [hspelled]

end Controller

/-! ### Starting a stored program -/

namespace Printer

/-- The answers of starting a stored program, each with the printer it leaves. -/
inductive StartOutcome (p : Printer) (name : ProgramName) (now : Binary64) :
    Except PrinterError String → Printer → Prop
  | refused {error : PrinterError}
      (hnone : p.startableText? name = none ∨ ∀ given, p.fixedDuration ≠ .ok given) :
      StartOutcome p name now (.error error) p
  | started {text : ProgramText} {given : Option Binary64} {answer : Except MachineFault Program}
      {machine : Machine} (htext : p.startableText? name = some text)
      (hgiven : p.fixedDuration = .ok given)
      (hstart : p.controller.Started (some name.text) text now given answer machine) :
      StartOutcome p name now ((answer.mapError .machine).map fun _ => name.rooted)
        { p with machine }

theorem start_outcome (p : Printer) (file : Option String) (now : Binary64) :
    p.StartOutcome (.ofText file) now (p.start file now).answer (p.start file now).printer := by
  cases htext : p.startableText? (.ofText file) with
  | none =>
    simp only [start, htext]
    exact .refused (Or.inl htext)
  | some text =>
    cases hgiven : p.fixedDuration with
    | error error =>
      simp only [start, htext, hgiven]
      refine .refused (Or.inr fun given h => ?_)
      rw [hgiven] at h
      contradiction
    | ok given =>
      simp only [start, htext, hgiven]
      exact .started htext hgiven (p.controller.started_start _ text now given)

/-- A start that fails has changed nothing, unless the program has an infinite duration and runs, or
its text cannot be encoded and it is loaded alone. -/
theorem start_atomic_unless_endless_or_torn (c : Controller) (name : Option String)
    (text : ProgramText) (now : Binary64) (given : Option Binary64) (p : Printer)
    (file : Option String) :
    ((∃ program, (c.start name text now given).answer = .ok program) ∨
      (c.start name text now given).machine = c.machine ∨
      (∃ (plain : String) (program : Program), text = plain ∧ Program.ofText plain = .ok program ∧
        c.effectiveDuration program given = .ok (infinity false) ∧
        (c.start name text now given).answer = .error (.notWhole .infinite) ∧
        (c.start name text now given).machine =
          c.install name plain program now (infinity false)) ∨
      ∃ program duration fault, Program.ofText text.legible = .ok program ∧
        c.effectiveDuration program given = .ok duration ∧ text.encodable = .error fault ∧
        (c.start name text now given).answer = .error (.notEncodable fault) ∧
        (c.start name text now given).machine = { c.machine with program := some program }) ∧
    ((∃ started, (p.start file now).answer = .ok started) ∨ (p.start file now).printer = p ∨
      (∃ (stored : String) (given : Option Binary64) (program : Program),
        p.startableText? (.ofText file) = some ↑stored ∧ p.fixedDuration = .ok given ∧
        Program.ofText stored = .ok program ∧
        p.controller.effectiveDuration program given = .ok (infinity false) ∧
        (p.start file now).answer = .error (.machine (.notWhole .infinite)) ∧
        (p.start file now).printer = { p with
          machine := p.controller.install (some (ProgramName.ofText file).text) stored program now
            (infinity false) }) ∨
      ∃ stored given program duration fault,
        p.startableText? (.ofText file) = some stored ∧ p.fixedDuration = .ok given ∧
        Program.ofText stored.legible = .ok program ∧
        p.controller.effectiveDuration program given = .ok duration ∧
        stored.encodable = .error fault ∧
        (p.start file now).answer = .error (.machine (.notEncodable fault)) ∧
        (p.start file now).printer = { p with
          machine := { p.machine with program := some program } }) := by
  constructor
  · have hstarted := c.started_start name text now given
    generalize (c.start name text now given).answer = answer at hstarted ⊢
    generalize (c.start name text now given).machine = machine at hstarted ⊢
    cases hstarted with
    | refused hnone => exact Or.inr (Or.inl rfl)
    | torn hp hd hfault => exact Or.inr (Or.inr (Or.inr ⟨_, _, _, hp, hd, hfault, rfl, rfl⟩))
    | @installed plain program duration htext hp hd =>
      by_cases hinf : duration = infinity false
      · subst hinf
        rw [c.startJob_infinite name plain program]
        exact Or.inr (Or.inr (Or.inl ⟨_, _, htext, hp, hd, rfl, rfl⟩))
      · rw [c.startJob_finite name plain program now hinf]
        exact Or.inl ⟨_, rfl⟩
  · have houtcome := p.start_outcome file now
    generalize (p.start file now).answer = answer at houtcome ⊢
    generalize (p.start file now).printer = printer at houtcome ⊢
    cases houtcome with
    | refused hnone => exact Or.inr (Or.inl rfl)
    | started hstored hgiven hstarted =>
      cases hstarted with
      | refused hnone => exact Or.inr (Or.inl rfl)
      | torn hp hd hfault =>
        exact Or.inr (Or.inr (Or.inr ⟨_, _, _, _, _, hstored, hgiven, hp, hd, hfault, rfl, rfl⟩))
      | @installed plain program duration htext hp hd =>
        subst htext
        by_cases hinf : duration = infinity false
        · subst hinf
          rw [p.controller.startJob_infinite _ plain program]
          exact Or.inr (Or.inr (Or.inl ⟨_, _, _, hstored, hgiven, hp, hd, rfl, rfl⟩))
        · rw [p.controller.startJob_finite _ plain program now hinf]
          exact Or.inl ⟨_, rfl⟩

/- A program of infinite duration runs although its start fails. -/
theorem endless_start_changes :
    ¬ ∀ (c : Controller) (name : Option String) (text : String) (now : Binary64)
      (given : Option Binary64) (fault : MachineFault),
      (c.start name text now given).answer = .error fault →
        (c.start name text now given).machine = c.machine := by
  intro hatomic
  -- The length of the move overflows, and with it the estimate.
  let chars := "G1 X0 Y0\nG1 X1".toList ++ List.replicate 160 '0' ++ " E1".toList
  let path := Toolpath.ofLines {} (splitLines chars)
  have hfacts : path.fault = none ∧
      Program.duration ⟨path.segments.toList⟩ 600 = infinity false := by
    decide +kernel
  have hprogram : Program.ofText (String.ofList chars) = .ok ⟨path.segments.toList⟩ := by
    rw [Program.ofText, Toolpath.ofText, String.toList_ofList, Toolpath.program, hfacts.1]
  have hduration : (Controller.boot 0 (some 600) .absent).effectiveDuration
      ⟨path.segments.toList⟩ none = .ok (infinity false) := congrArg _ hfacts.2
  have hsame := congrArg Machine.runMode
    (hatomic _ none _ 0 none _ (Controller.start_infinite none hprogram hduration))
  rw [Controller.start_installed none hprogram hduration] at hsame
  exact absurd hsame (by decide : RunMode.printing ≠ RunMode.idle)

/- A program whose text cannot be encoded is loaded although its start fails. -/
theorem torn_start_changes :
    ¬ ∀ (c : Controller) (name : Option String) (text : ProgramText) (now : Binary64)
      (given : Option Binary64) (fault : MachineFault),
      (∀ program, c.effectiveDuration program given ≠ .ok (infinity false)) →
        (c.start name text now given).answer = .error fault →
          (c.start name text now given).machine = c.machine := by
  intro hatomic
  have hle : Binary64.le 1000 0 = false := by decide +kernel
  have hprogram : Program.ofText (ProgramText.legible ⟨[.surrogate 0]⟩) = .ok ⟨[]⟩ := by
    decide +kernel
  have hduration (program : Program) :
      (Controller.boot 0 (some 600) .absent).effectiveDuration program (some 1000) = .ok 1000 :=
    Controller.effectiveDuration_given program hle
  have hfault : ProgramText.encodable ⟨[.surrogate 0]⟩ = .error ⟨0, 0, 0⟩ := rfl
  obtain ⟨hanswer, hmachine⟩ := Controller.start_torn none 0 hprogram (hduration _) hfault
  have hfinite : ∀ program, (Controller.boot 0 (some 600) .absent).effectiveDuration program
      (some 1000) ≠ .ok (infinity false) := by
    intro program hd
    rw [hduration, Except.ok.injEq] at hd
    exact absurd hd (by decide +kernel)
  have hsame := congrArg Machine.program (hatomic _ none _ 0 (some 1000) _ hfinite hanswer)
  rw [hmachine] at hsame
  exact absurd hsame (Option.some_ne_none _)

/- With a configured print time that is infinite a stored program runs although its start fails. -/
theorem endless_stored_start_changes :
    ¬ ∀ (config : Config) (p : Printer) (file stored : Option String) (body : Option Body)
      (now : Binary64) (error : PrinterError), openAt config 0 = .ok p →
      ((p.uploadForm file body).printer.start stored now).answer = .error error →
        ((p.uploadForm file body).printer.start stored now).printer.machine =
          (p.uploadForm file body).printer.machine := by
  intro hatomic
  have hfacts : ((openAt ⟨[("print_seconds", .number (infinity false))]⟩ 0).toOption.map fun p =>
      let q := (p.uploadForm (some "a") (some (.text "G1 X0 Y0"))).printer
      ((q.start (some "gcodes/a") 0).answer.toOption,
        (q.start (some "gcodes/a") 0).printer.machine.runMode, q.machine.runMode)) =
      some (none, .printing, .idle) := by
    decide +kernel
  cases hopen : openAt ⟨[("print_seconds", .number (infinity false))]⟩ 0 with
  | error error =>
    rw [hopen] at hfacts
    contradiction
  | ok p =>
    rw [hopen] at hfacts
    simp only [Except.toOption, Option.map_some, Option.some.injEq, Prod.mk.injEq] at hfacts
    obtain ⟨hanswer, hprinting, hidle⟩ := hfacts
    cases hstart : ((p.uploadForm (some "a") (some (.text "G1 X0 Y0"))).printer.start
        (some "gcodes/a") 0).answer with
    | ok started =>
      rw [hstart] at hanswer
      contradiction
    | error error =>
      have hsame := congrArg Machine.runMode (hatomic _ p _ _ _ _ _ hopen hstart)
      rw [hprinting, hidle] at hsame
      contradiction

/- Both exceptions occur: on a machine with a text of either kind, and with a configured print time
that is infinite. -/
theorem failed_start_not_atomic :
    (¬ ∀ (c : Controller) (name : Option String) (text : String) (now : Binary64)
        (given : Option Binary64) (fault : MachineFault),
      (c.start name text now given).answer = .error fault →
        (c.start name text now given).machine = c.machine) ∧
    (¬ ∀ (c : Controller) (name : Option String) (text : ProgramText) (now : Binary64)
        (given : Option Binary64) (fault : MachineFault),
      (∀ program, c.effectiveDuration program given ≠ .ok (infinity false)) →
        (c.start name text now given).answer = .error fault →
          (c.start name text now given).machine = c.machine) ∧
    ¬ ∀ (config : Config) (p : Printer) (file stored : Option String) (body : Option Body)
        (now : Binary64) (error : PrinterError), openAt config 0 = .ok p →
      ((p.uploadForm file body).printer.start stored now).answer = .error error →
        ((p.uploadForm file body).printer.start stored now).printer.machine =
          (p.uploadForm file body).printer.machine :=
  ⟨endless_start_changes, torn_start_changes, endless_stored_start_changes⟩

end Printer

end VirtualPrinter
