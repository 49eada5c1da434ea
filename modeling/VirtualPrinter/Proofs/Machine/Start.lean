import VirtualPrinter.Machine.Controller
import VirtualPrinter.Proofs.Program.Estimate
import VirtualPrinter.Proofs.Program.Text

/-!
# Starting a job

What starting a job installs, and with which duration: a text that is interpreted and has a duration
replaces the job, and that duration is positive or not a number. An infinite one is installed, but
answered with a fault. A text that cannot be encoded replaces the program and leaves the job.
-/

namespace VirtualPrinter

open Binary64

attribute [local irreducible] Binary64.ofNat

namespace Controller

variable {c : Controller} {now : Binary64}

theorem estimate_pos {program : Program} {duration : Binary64}
    (h : c.estimate program = .ok duration) : Binary64.lt 0 duration = true := by
  unfold estimate at h
  split at h
  · cases h
    exact duration_pos program _
  · contradiction

theorem effectiveDuration_given (program : Program) {duration : Binary64}
    (h : duration.le 0 = false) : c.effectiveDuration program (some duration) = .ok duration := by
  simp only [effectiveDuration, h, Bool.false_eq_true, if_false]

theorem effectiveDuration_pos {program : Program} {given : Option Binary64} {duration : Binary64}
    (h : c.effectiveDuration program given = .ok duration) :
    duration = nan ∨ Binary64.lt 0 duration = true := by
  unfold effectiveDuration at h
  split at h
  · exact Or.inr (estimate_pos h)
  · split at h
    · exact Or.inr (estimate_pos h)
    · rename_i hle
      cases h
      have hzero : (0 : Binary64) ≠ nan := by
        obtain ⟨m, hm, hunits⟩ := exists_zero
        rw [hm]
        exact nofun
      exact eq_nan_or_lt_of_not_le hzero hle

/-! ### The machine that a start leaves -/

variable {name : Option String} {text : ProgramText} {plain : String} {given : Option Binary64}
  {program : Program} {duration : Binary64}

theorem startJob_machine (name : Option String) (plain : String) (program : Program)
    (duration : Binary64) :
    (c.startJob name plain program now duration).machine =
      c.install name plain program now duration := by
  unfold startJob
  split <;> rfl

theorem startJob_published (name : Option String) (plain : String) (program : Program)
    (duration : Binary64) : (c.startJob name plain program now duration).published = [] := by
  unfold startJob
  split <;> rfl

theorem startProgram_encodable (name : Option String) (program : Program) (duration : Binary64)
    (h : text.encodable = .ok plain) :
    c.startProgram name text program now duration =
      c.startJob name plain program now duration := by
  rw [startProgram, h]

theorem startProgram_unencodable (name : Option String) (program : Program) (duration : Binary64)
    {fault : EncodingFault} (h : text.encodable = .error fault) :
    c.startProgram name text program now duration =
      { answer := .error (.notEncodable fault), machine := c.load program } := by
  rw [startProgram, h]

theorem start_published (name : Option String) (text : ProgramText) (given : Option Binary64) :
    (c.start name text now given).published = [] := by
  simp only [start]
  split
  next => rfl
  next program _ =>
    split
    next => rfl
    next duration _ =>
      cases h : text.encodable with
      | error fault => rw [startProgram_unencodable name program duration h]
      | ok plain =>
        rw [startProgram_encodable name program duration h]
        exact startJob_published name plain program duration

theorem start_fault (name : Option String) (now : Binary64) (given : Option Binary64)
    {fault : Binary64.IntegerFault} (h : Program.ofText text.legible = .error fault) :
    (c.start name text now given).answer = .error (.notWhole fault) ∧
      (c.start name text now given).machine = c.machine := by
  unfold Program.ofText at h
  simp only [start, h, and_self]

theorem start_unestimated (name : Option String) (now : Binary64) {fault : MachineFault}
    (h : Program.ofText text.legible = .ok program)
    (hd : c.effectiveDuration program given = .error fault) :
    (c.start name text now given).answer = .error fault ∧
      (c.start name text now given).machine = c.machine := by
  unfold Program.ofText at h
  simp only [start, h, hd, and_self]

/- Past its interpretation a start does what starting the program does. -/
theorem start_eq_startProgram (name : Option String) (now : Binary64)
    (h : Program.ofText text.legible = .ok program)
    (hd : c.effectiveDuration program given = .ok duration) :
    (c.start name text now given).answer =
        (c.startProgram name text program now duration).answer ∧
      (c.start name text now given).machine =
        (c.startProgram name text program now duration).machine := by
  unfold Program.ofText at h
  simp only [start, h, hd, and_self]

theorem start_torn (name : Option String) (now : Binary64) {fault : EncodingFault}
    (h : Program.ofText text.legible = .ok program)
    (hd : c.effectiveDuration program given = .ok duration)
    (hfault : text.encodable = .error fault) :
    (c.start name text now given).answer = .error (.notEncodable fault) ∧
      (c.start name text now given).machine = c.load program := by
  obtain ⟨hanswer, hmachine⟩ := start_eq_startProgram name now h hd
  rw [startProgram_unencodable name program duration hfault] at hanswer hmachine
  exact ⟨hanswer, hmachine⟩

theorem ofText_legible (h : Program.ofText plain = .ok program) :
    Program.ofText (ProgramText.ofString plain).legible = .ok program := by
  rw [ProgramText.legible_ofString, h]

theorem start_installed (name : Option String) (h : Program.ofText plain = .ok program)
    (hd : c.effectiveDuration program given = .ok duration) :
    (c.start name plain now given).machine = c.install name plain program now duration := by
  rw [(start_eq_startProgram name now (ofText_legible h) hd).2,
    startProgram_encodable name program duration (ProgramText.encodable_ofString plain),
    startJob_machine]

theorem next_start (c : Controller) (name : Option String) (text : ProgramText) (now : Binary64)
    (given : Option Binary64) :
    (c.next (.start name text now given)).machine = (c.start name text now given).machine := by
  rw [next, perform, Outcome.map]

theorem next_installed (name : Option String) (h : Program.ofText plain = .ok program)
    (hd : c.effectiveDuration program given = .ok duration) :
    (c.next (.start name plain now given)).machine =
      c.install name plain program now duration := by
  rw [next_start, start_installed name h hd]

/-- The answers of a start, each with the machine it leaves. A start that has no program or no
duration keeps the machine, one whose text cannot be encoded loads the program alone, and one that
can starts the job. -/
inductive Started (c : Controller) (name : Option String) (text : ProgramText) (now : Binary64)
    (given : Option Binary64) : Except MachineFault Program → Machine → Prop
  | refused {fault : MachineFault}
      (hnone : ∀ program duration, Program.ofText text.legible = .ok program →
        c.effectiveDuration program given ≠ .ok duration) :
      Started c name text now given (.error fault) c.machine
  | torn {program : Program} {duration : Binary64} {fault : EncodingFault}
      (hp : Program.ofText text.legible = .ok program)
      (hd : c.effectiveDuration program given = .ok duration)
      (hfault : text.encodable = .error fault) :
      Started c name text now given (.error (.notEncodable fault)) (c.load program)
  | installed {plain : String} {program : Program} {duration : Binary64}
      (htext : text = plain) (hp : Program.ofText plain = .ok program)
      (hd : c.effectiveDuration program given = .ok duration) :
      Started c name text now given (c.startJob name plain program now duration).answer
        (c.install name plain program now duration)

theorem started_start (c : Controller) (name : Option String) (text : ProgramText)
    (now : Binary64) (given : Option Binary64) :
    Started c name text now given (c.start name text now given).answer
      (c.start name text now given).machine := by
  cases hp : Program.ofText text.legible with
  | error fault =>
    obtain ⟨hanswer, hmachine⟩ := start_fault name now given hp
    rw [hanswer, hmachine]
    refine .refused fun program duration h => ?_
    rw [hp] at h
    contradiction
  | ok program =>
    cases hd : c.effectiveDuration program given with
    | error fault =>
      obtain ⟨hanswer, hmachine⟩ := start_unestimated name now hp hd
      rw [hanswer, hmachine]
      refine .refused fun other duration h => ?_
      rw [hp, Except.ok.injEq] at h
      rw [← h, hd]
      exact nofun
    | ok duration =>
      cases htext : text.encodable with
      | error fault =>
        obtain ⟨hanswer, hmachine⟩ := start_torn name now hp hd htext
        rw [hanswer, hmachine]
        exact .torn hp hd htext
      | ok plain =>
        obtain rfl := ProgramText.encodable_eq_ok_iff.1 htext
        obtain ⟨hanswer, -⟩ := start_eq_startProgram name now hp hd
        rw [ProgramText.legible_ofString] at hp
        rw [hanswer, startProgram_encodable name program duration htext,
          start_installed name hp hd]
        exact .installed rfl hp hd

/- Most of what is said of a start is about the machine alone. -/
theorem exists_started (c : Controller) (name : Option String) (text : ProgramText)
    (now : Binary64) (given : Option Binary64) :
    ∃ answer, Started c name text now given answer (c.start name text now given).machine :=
  ⟨_, started_start c name text now given⟩

/-! ### Infinite durations -/

theorem spellDuration_infinity :
    spellDuration (infinity false / 1000) = .error .infinite := by
  decide +kernel

theorem startJob_infinite (name : Option String) (plain : String) (program : Program) :
    (c.startJob name plain program now (infinity false)).answer =
      .error (.notWhole .infinite) := by
  unfold startJob
  rw [spellDuration_infinity]

theorem start_infinite (name : Option String) (h : Program.ofText plain = .ok program)
    (hd : c.effectiveDuration program given = .ok (infinity false)) :
    (c.start name plain now given).answer = .error (.notWhole .infinite) := by
  rw [(start_eq_startProgram name now (ofText_legible h) hd).1,
    startProgram_encodable name program _ (ProgramText.encodable_ofString plain),
    startJob_infinite]

end Controller

end VirtualPrinter
