import VirtualPrinter.Proofs.Printer.Files

/-!
# What starting from a file leaves

Starting from a file finds nothing to start and leaves the printer alone, or it fails, or the text
of the file runs as a job under its base name.
-/

namespace VirtualPrinter

open Text

namespace Config

variable {c : Config} {read : FileReader} {path : Option String} {text : String}

/-- There is no file to start: none is named, the one named cannot be read, or it is empty. -/
def NothingToSeed (c : Config) (read : FileReader) (path : Option String) : Prop :=
  Printer.seedPath c path = .ok none ∨
    ∃ file, Printer.seedPath c path = .ok (some file) ∧ (read file = none ∨ read file = some [])

/-- The text in the file to start, if there is one to read. -/
def HoldsText (c : Config) (read : FileReader) (path : Option String) (text : String) : Prop :=
  ∃ file, Printer.seedPath c path = .ok (some file) ∧
    ∃ bytes, read file = some bytes ∧ utf8Strict? bytes = some text

theorem HoldsText.bytes {file : String} (h : c.HoldsText read path text)
    (hpath : Printer.seedPath c path = .ok (some file)) :
    ∃ bytes, read file = some bytes ∧ utf8Strict? bytes = some text := by
  obtain ⟨named, hnamed, hbytes⟩ := h
  rw [hpath, Except.ok.injEq, Option.some.injEq] at hnamed
  exact hnamed ▸ hbytes

theorem HoldsText.eq {other : String} (h : c.HoldsText read path text)
    (hother : c.HoldsText read path other) : other = text := by
  obtain ⟨file, hpath, bytes, hread, htext⟩ := h
  obtain ⟨bytes', hread', htext'⟩ := hother.bytes hpath
  rw [hread, Option.some.injEq] at hread'
  subst hread'
  exact Option.some.inj (htext'.symm.trans htext)

theorem not_holdsText_of_nothing (h : c.NothingToSeed read path) (hne : text ≠ "") :
    ¬ c.HoldsText read path text := by
  intro htext
  rcases h with hnone | ⟨file, hpath, hempty⟩
  · obtain ⟨file, hpath, -⟩ := htext
    rw [hpath] at hnone
    cases hnone
  · obtain ⟨bytes, hread, hbytes⟩ := htext.bytes hpath
    rw [hread] at hempty
    rcases hempty with hempty | hempty
    · contradiction
    · cases hempty
      exact hne (Option.some.inj hbytes.symm)

end Config

namespace Printer

variable {p : Printer} {read : FileReader} {path : Option String} {now : Binary64}
  {text : String} {program : Program} {duration : Binary64}

/-- The job that a printer runs for a text. -/
structure RunsText (p : Printer) (text : String) (program : Program) (duration : Binary64) :
    Prop where
  interpreted : Program.ofText text = .ok program
  timed : ∃ given, p.fixedDuration = .ok given ∧
    p.controller.effectiveDuration program given = .ok duration
  finite : duration ≠ .infinity false

/-- The answers of starting from a file, each with the controller it leaves. Only a file whose text
cannot run fails. -/
inductive SeedOutcome (p : Printer) (read : FileReader) (path : Option String) (now : Binary64) :
    Except PrinterError (Option String) → Controller → Prop
  | nothing (hnone : p.config.NothingToSeed read path) :
      SeedOutcome p read path now (.ok none) p.controller
  | failed {error : PrinterError} (c : Controller)
      (hnone : ∀ text program duration, p.config.HoldsText read path text →
        ¬ p.RunsText text program duration) :
      SeedOutcome p read path now (.error error) c
  | running {text : String} {program : Program} {duration : Binary64} (name : ProgramName)
      (htext : p.config.HoldsText read path text) (hruns : p.RunsText text program duration) :
      SeedOutcome p read path now (.ok (some name.text))
        { p.controller with
          machine := p.controller.install (some name.text) text program now duration }

theorem RunsText.effective {given : Option Binary64} (h : p.RunsText text program duration)
    (hgiven : p.fixedDuration = .ok given) :
    p.controller.effectiveDuration program given = .ok duration := by
  obtain ⟨given', hgiven', hduration⟩ := h.timed
  rw [hgiven, Except.ok.injEq] at hgiven'
  exact hgiven' ▸ hduration

theorem RunsText.eq {other : Program} {lasting : Binary64} (h : p.RunsText text program duration)
    (hother : p.RunsText text other lasting) : other = program ∧ lasting = duration := by
  obtain ⟨given, hgiven, hduration⟩ := h.timed
  obtain rfl := Except.ok.inj (h.interpreted.symm.trans hother.interpreted)
  exact ⟨rfl, Except.ok.inj ((hother.effective hgiven).symm.trans hduration)⟩

theorem seed_of_nothing (h : p.config.NothingToSeed read path) :
    (p.seed read path now).answer = .ok none := by
  rcases h with hpath | ⟨file, hpath, hread | hread⟩
  · simp only [seed, hpath]
  · simp only [seed, hpath, hread]
  · simp only [seed, hpath, hread, seedBytes]
    rfl

theorem seedText_answer_eq (p : Printer) (file text : String) (now : Binary64) :
    (p.seedText file text now).answer =
      ((p.put (ProgramStore.inDirectory (baseName file)) (some (.text text))).start
        (some (ProgramStore.inDirectory (baseName file)).text) now).answer.map fun _ =>
          some (ProgramStore.inDirectory (baseName file)).text := by
  simp only [seedText]
  split
  next herror =>
    rw [herror]
    rfl
  next hok =>
    rw [hok]
    rfl

/- The text is started under the name that it has just been stored under. -/
theorem seedText_outcome (file : String) (hne : text ≠ "") (h : p.config.HoldsText read path text) :
    SeedOutcome p read path now (p.seedText file text now).answer
      (p.seedText file text now).printer.controller := by
  rw [seedText_printer, seedText_answer_eq]
  generalize ProgramStore.inDirectory (baseName file) = name
  have hstored : (p.put name (some (.text text))).startableText? name = some ↑text := by
    have hget := (p.store.get?_put name name (some (.text text))).trans (if_pos rfl)
    have hfull : (ProgramText.ofString text).isEmpty = false := by
      rw [← Bool.not_eq_true, ProgramText.isEmpty_iff, ProgramText.ofString_inj]
      exact hne
    rw [startableText?, put, hget]
    simp [Body.decoded, hfull]
  have houtcome := (p.put name (some (.text text))).start_outcome (some name.text) now
  rw [ofText_text] at houtcome
  generalize ((p.put name (some (.text text))).start (some name.text) now).answer = answer
    at houtcome ⊢
  generalize ((p.put name (some (.text text))).start (some name.text) now).printer = printer
    at houtcome ⊢
  cases houtcome with
  | refused hnone =>
    refine .failed _ fun other program duration hother hruns => ?_
    obtain ⟨given, hgiven, -⟩ := hruns.timed
    rcases hnone with hnone | hnone
    · rw [hstored] at hnone
      contradiction
    · exact hnone given hgiven
  | started htext hgiven hstarted =>
    rw [hstored, Option.some.injEq] at htext
    subst htext
    cases hstarted with
    | refused hnone =>
      refine .failed _ fun other program duration hother hruns => ?_
      rw [h.eq hother] at hruns
      exact hnone program duration (Controller.ofText_legible hruns.interpreted) (hruns.effective hgiven)
    | torn hprogram hduration hfault =>
      rw [ProgramText.encodable_ofString] at hfault
      contradiction
    | @installed plain program duration htext hprogram hduration =>
      obtain rfl := ProgramText.ofString_inj.1 htext
      by_cases hinf : duration = .infinity false
      · subst hinf
        rw [Controller.startJob_infinite]
        refine .failed _ fun other program duration hother hruns => ?_
        rw [h.eq hother] at hruns
        obtain rfl := Except.ok.inj (hruns.interpreted.symm.trans hprogram)
        exact hruns.finite (Except.ok.inj ((hruns.effective hgiven).symm.trans hduration))
      · rw [Controller.startJob_finite _ _ _ _ _ hinf]
        exact .running name h ⟨hprogram, ⟨_, hgiven, hduration⟩, hinf⟩

theorem seed_outcome (p : Printer) (read : FileReader) (path : Option String) (now : Binary64) :
    SeedOutcome p read path now (p.seed read path now).answer
      (p.seed read path now).printer.controller := by
  unfold seed
  split
  next fault hpath =>
    refine .failed _ fun text program duration htext _ => ?_
    obtain ⟨file, hfile, -⟩ := htext
    rw [hpath] at hfile
    contradiction
  next hpath => exact .nothing (Or.inl hpath)
  next file hpath =>
    split
    next hread => exact .nothing (Or.inr ⟨file, hpath, Or.inl hread⟩)
    next bytes hread =>
      unfold seedBytes
      split
      next hbytes =>
        refine .failed _ fun text program duration htext _ => ?_
        obtain ⟨bytes', hread', htext⟩ := htext.bytes hpath
        rw [hread, Option.some.injEq] at hread'
        rw [← hread', hbytes] at htext
        contradiction
      next text htext =>
        split
        next hempty =>
          rw [String.isEmpty_iff.1 hempty] at htext
          have hnil := nil_of_utf8Strict? htext
          exact .nothing (Or.inr ⟨file, hpath, Or.inr (hnil ▸ hread)⟩)
        next hempty =>
          exact seedText_outcome file (mt String.isEmpty_iff.2 hempty)
            ⟨file, hpath, bytes, hread, htext⟩

/- A text that can run is installed. -/
theorem seed_installed (now : Binary64) (htext : p.config.HoldsText read path text) (hne : text ≠ "")
    (hruns : p.RunsText text program duration) :
    ∃ name : ProgramName, (p.seed read path now).answer = .ok (some name.text) ∧
      (p.seed read path now).printer.controller.machine.Installed text program ∧
      (p.seed read path now).printer.controller.machine.job.duration = some duration ∧
      (p.seed read path now).printer.controller.machine.bootedAt = p.machine.bootedAt := by
  have houtcome := p.seed_outcome read path now
  generalize (p.seed read path now).answer = answer at houtcome ⊢
  generalize (p.seed read path now).printer.controller = controller at houtcome ⊢
  cases houtcome with
  | nothing hnone => exact absurd htext (Config.not_holdsText_of_nothing hnone hne)
  | failed _ hnone => exact absurd hruns (hnone text program duration htext)
  | running name hother hrunning =>
    rw [← hother.eq htext] at hrunning ⊢
    obtain ⟨rfl, rfl⟩ := hruns.eq hrunning
    exact ⟨name, rfl, ⟨hrunning.interpreted, rfl, rfl, rfl⟩, rfl, rfl⟩

end Printer

end VirtualPrinter
