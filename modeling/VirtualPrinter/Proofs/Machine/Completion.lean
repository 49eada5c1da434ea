import VirtualPrinter.Proofs.Machine.Progress
import VirtualPrinter.Proofs.Machine.Run
import VirtualPrinter.Proofs.Machine.Start
import VirtualPrinter.Proofs.Program.Size

/-!
# No state shows a finished run

Between commands the completed fraction is below one and the position lies before the end of the
file, whatever the times of the commands. Only the observer is shown a finished run, and it is shown
nothing else.
-/

namespace VirtualPrinter

open Binary64

attribute [local irreducible] Binary64.ofNat

namespace Machine

variable {m : Machine} {now : Binary64} {observer : Observer}

/- The invariant of every run: beside the progress itself, what the next tick computes it from. A job
without a start time may have any duration, for it is never asked for. -/
structure Unfinished (m : Machine) : Prop where
  underway : Underway m.job.completion m.job.filePosition m.job.fileSize
  duration : ∀ d, m.job.startedAt.isSome = true → m.job.duration = some d →
    d = nan ∨ (Binary64.lt 0 d = true ∧ d.isFinite = true)
  path : ∀ p, m.program = some p → p.endpoints.length ≤ 2 ^ 53 + 1
  size : m.job.fileSize ≤ 2 ^ 53

theorem unfinished_boot (bootedAt : Binary64) : Unfinished { bootedAt } where
  underway := underway_start _
  duration d hs := by contradiction
  path p hp := by contradiction
  size := Nat.zero_le _

theorem unfinished_early {program : Program} {startedAt duration : Binary64} {g : Progress}
    (h : Unfinished m) (hp : m.program = some program) (hs : m.job.startedAt = some startedAt)
    (hd : m.job.duration = some duration)
    (hg : program.progress m.job.fileSize (elapsedFraction (now - startedAt) duration) = .ok g)
    (hlt : (now - startedAt).lt duration = true) : Unfinished (m.showing g) := by
  obtain ⟨g', hg', hunder⟩ := Program.progress_ok
    (elapsedFraction_inUnit (now - startedAt) duration) (h.path program hp) h.size
  rw [hg] at hg'
  cases hg'
  have hfrac : BelowOne (elapsedFraction (now - startedAt) duration) := by
    rcases h.duration duration (by rw [hs]; rfl) hd with hnan | ⟨hpos, hfin⟩
    · rw [hnan, lt_nan] at hlt
      contradiction
    · exact elapsedFraction_belowOne hlt hpos hfin
  exact { underway := hunder hfrac, duration := h.duration, path := h.path, size := h.size }

theorem unfinished_tick {t : Tick} (h : Unfinished m) (ht : m.tick now observer = .ok t) :
    Unfinished t.machine := by
  cases passing_of_tick ht with
  | idle hmode => exact ⟨h.underway, h.duration, h.path, h.size⟩
  | early hmode hp hs hd hg hlt => exact unfinished_early h hp hs hd hg hlt
  | late hmode hp hs hd hg hlt =>
    rw [wrap_eq]
    refine ⟨underway_start _, ?_, h.path, h.size⟩
    intro d _ hdur
    exact h.duration d (by rw [hs]; rfl) hdur
  | held hidle hjob => exact h

theorem published_finished {t : Tick} {s : Snapshot} (ht : m.tick now observer = .ok t)
    (hs : s ∈ t.published) : s.completion = 1 ∧ s.filePosition = s.fileSize := by
  obtain ⟨program, g, -, hview⟩ := (passing_of_tick ht).snapshot_of_published hs
  rw [snapshot_eq hview]
  exact ⟨rfl, rfl⟩

end Machine

namespace Controller

open Machine

variable {c : Controller} {op : Operation} {now : Binary64}

/-- Text below `2^53` bytes and a duration that is not infinite, where a command starts a job. -/
def Operation.Bounded (c : Controller) : Operation → Prop
  | .start _ text _ given =>
    text.legible.utf8ByteSize < 2 ^ 53 ∧ ∀ program, Program.ofText text.legible = .ok program →
      c.effectiveDuration program given ≠ .ok (infinity false)
  | _ => True

theorem unfinished_install {name : Option String} {plain : String} {given : Option Binary64}
    {program : Program} {duration : Binary64}
    (hb : (Operation.start name plain now given).Bounded c)
    (hp : Program.ofText plain = .ok program)
    (hd : c.effectiveDuration program given = .ok duration) :
    Unfinished (c.install name plain program now duration) := by
  obtain ⟨hsize, hfinite⟩ := hb
  rw [ProgramText.legible_ofString] at hsize hfinite
  have hpath := Program.endpoints_length_le hp
  refine ⟨underway_start _, ?_, ?_, hsize.le⟩
  · intro d _ hdur
    cases hdur
    rcases effectiveDuration_pos hd with hnan | hpos
    · exact Or.inl hnan
    · refine Or.inr ⟨hpos, ?_⟩
      have hne := hfinite program hp
      rw [hd] at hne
      cases duration with
      | nan => exact absurd hpos (by decide +kernel)
      | infinity negative =>
        cases negative with
        | true => exact absurd hpos (by decide +kernel)
        | false => contradiction
      | finite negative m => rfl
  · intro p hprog
    cases hprog
    omega

/- The job that is measured stays, and the new path can be counted as well. -/
theorem unfinished_load (h : Unfinished c.machine) {name : Option String} {text : ProgramText}
    {given : Option Binary64} {program : Program}
    (hb : (Operation.start name text now given).Bounded c)
    (hp : Program.ofText text.legible = .ok program) : Unfinished (c.load program) := by
  have hpath := Program.endpoints_length_le hp
  have hsize := hb.1
  refine ⟨h.underway, h.duration, ?_, h.size⟩
  intro p hprog
  cases hprog
  omega

theorem unfinished_start (h : Unfinished c.machine) {name : Option String} {text : ProgramText}
    {given : Option Binary64} (hb : (Operation.start name text now given).Bounded c) :
    Unfinished (c.start name text now given).machine := by
  obtain ⟨answer, hstarted⟩ := exists_started c name text now given
  generalize (c.start name text now given).machine = m at hstarted ⊢
  cases hstarted with
  | refused hnone => exact h
  | torn hp hd hfault => exact unfinished_load h hb hp
  | installed htext hp hd => exact unfinished_install (htext ▸ hb) hp hd

theorem unfinished_settle {m : Machine} (h : Unfinished m) : Unfinished (op.settle m) := by
  cases op with
  | stop time => exact ⟨h.underway, fun d hs => by contradiction, h.path, h.size⟩
  | _ => exact ⟨h.underway, h.duration, h.path, h.size⟩

theorem unfinished_resumed {m : Machine} (h : Unfinished m) : Unfinished (resumed m now) := by
  refine ⟨h.underway, ?_, h.path, h.size⟩
  intro d hs hd
  apply h.duration d _ hd
  change (shiftedStart m.job now).isSome = true at hs
  unfold shiftedStart at hs
  cases hstart : m.job.startedAt with
  | none =>
    rw [hstart] at hs
    contradiction
  | some startedAt => rfl

theorem unfinished_next (h : Unfinished c.machine) (hb : op.Bounded c) :
    Unfinished (c.next op).machine := by
  change Unfinished (c.perform op).machine
  rcases time_or_start_or_reset op with ⟨now, hop⟩ | ⟨name, text, now, given, rfl⟩ | rfl
  · obtain ⟨m, l, hm, hl, heffect⟩ := exists_effect c hop
    rw [hm]
    cases heffect with
    | ticked hop hmode ht => exact unfinished_settle (unfinished_tick h ht)
    | failed hop ht => exact h
    | resumed hmode => exact unfinished_resumed h
    | refused hmode => exact h
    | viewed => exact h
  · exact unfinished_start h hb
  · exact ⟨underway_start _, fun d hs => by contradiction, h.path, Nat.zero_le _⟩

theorem published_of_perform {s : Snapshot} (hs : s ∈ (c.perform op).published) :
    s.completion = 1 ∧ s.filePosition = s.fileSize := by
  rcases time_or_start_or_reset op with ⟨now, hop⟩ | ⟨name, text, now, given, rfl⟩ | rfl
  · obtain ⟨m, l, hm, hl, heffect⟩ := exists_effect c hop
    rw [hl] at hs
    cases heffect with
    | ticked hop hmode ht => exact published_finished ht hs
    | failed hop ht => simp at hs
    | resumed hmode => simp at hs
    | refused hmode => simp at hs
    | viewed => simp at hs
  · change s ∈ (c.start name text now given).published at hs
    rw [start_published] at hs
    simp at hs
  · simp [perform, reset, Outcome.map] at hs

/- Only the two queries answer with a snapshot, and it is one of the machine that they leave. -/
theorem view_of_perform {s : Snapshot} (h : (c.perform op).answer = .ok (.view s)) :
    ∃ now, (c.next op).machine.snapshot now = .ok s := by
  cases op with
  | status now =>
    obtain ⟨s', ha, hs'⟩ := exists_of_map_eq_ok h
    cases hs'
    obtain ⟨t, -, hm, hview⟩ := exists_of_status_ok ha
    refine ⟨now, ?_⟩
    change (c.status now).machine.snapshot now = .ok s
    rw [hm]
    exact hview
  | snapshot now =>
    obtain ⟨s', ha, hs'⟩ := exists_of_map_eq_ok h
    cases hs'
    exact ⟨now, eq_of_mapError_eq_ok ha⟩
  | reset => cases h
  | _ =>
    obtain ⟨a, _, hf⟩ := exists_of_map_eq_ok h
    contradiction

theorem bounded_next {other : Operation} : other.Bounded (c.next op) ↔ other.Bounded c := by
  cases other <;> rfl

theorem unfinished_run (ops : List Operation) (h : Unfinished c.machine)
    (hb : ∀ op ∈ ops, op.Bounded c) :
    Unfinished (c.run ops).machine ∧
      (∀ s ∈ c.published ops, s.completion = 1 ∧ s.filePosition = s.fileSize) ∧
      ∀ s, .ok (.view s) ∈ c.answers ops → Underway s.completion s.filePosition s.fileSize := by
  induction ops generalizing c with
  | nil => exact ⟨h, fun s hs => by simp [published] at hs, fun s hs => by simp [answers] at hs⟩
  | cons op ops ih =>
    have hnext := unfinished_next h (hb op List.mem_cons_self)
    obtain ⟨hrun, hpub, hview⟩ := ih hnext fun other hother =>
      bounded_next.2 (hb other (List.mem_cons_of_mem _ hother))
    refine ⟨hrun, ?_, ?_⟩
    · intro s hs
      rcases List.mem_append.1 hs with hs | hs
      · exact published_of_perform hs
      · exact hpub s hs
    · intro s hs
      rcases List.mem_cons.1 hs with hs | hs
      · obtain ⟨now, hsnap⟩ := view_of_perform hs.symm
        rw [snapshot_eq hsnap]
        exact hnext.underway
      · exact hview s hs

/-- However the commands are timed, every state between them shows a run that is not finished, and
so does every view that is answered; what the observer is shown is finished. Starting a job of
infinite duration is answered with a fault. -/
theorem run_underway (bootedAt : Binary64) (feedRate : Option Binary64) (observer : Observer)
    (ops : List Operation) (hb : ∀ op ∈ ops, op.Bounded (boot bootedAt feedRate observer)) :
    let c := boot bootedAt feedRate observer
    let job := (c.run ops).machine.job
    Underway job.completion job.filePosition job.fileSize ∧
      (∀ s ∈ c.published ops, s.completion = 1 ∧ s.filePosition = s.fileSize) ∧
      (∀ s, .ok (.view s) ∈ c.answers ops → Underway s.completion s.filePosition s.fileSize) ∧
      ∀ name (text : String) now given program, Program.ofText text = .ok program →
        (c.run ops).effectiveDuration program given = .ok (infinity false) →
          ((c.run ops).start name text now given).answer = .error (.notWhole .infinite) := by
  intro c job
  obtain ⟨hrun, hpub, hview⟩ := unfinished_run ops (unfinished_boot bootedAt) hb
  exact ⟨hrun.underway, hpub, hview, fun name _ _ _ _ hp hd => start_infinite name hp hd⟩

/- A job of one second with three points on its path, told times in no order: none at all, past its
end, and in between. -/
theorem run_underway_second :
    let text := "G1 X0 Y0\nG1 X10 E1\nG1 X20 E2\nG1 X30 E3"
    let ops : List Operation :=
      [.start (some "a") text 0 (some 1000), .tick nan, .status 1000, .pause 1500, .tick 1200]
    let c := boot 0 (some 600) .accepting
    (∀ op ∈ ops, op.Bounded c) ∧
      (c.run ops).machine.program.any (2 < ·.endpoints.length) = true ∧
      Underway (c.run ops).machine.job.completion (c.run ops).machine.job.filePosition
        (c.run ops).machine.job.fileSize ∧
      0 < (c.run ops).machine.job.filePosition ∧ (c.published ops).length = 2 ∧
      ∀ s ∈ c.published ops, s.completion = 1 ∧ s.filePosition = s.fileSize := by
  intro text ops c
  have hb : ∀ op ∈ ops, op.Bounded c := by
    intro op hop
    simp only [ops, List.mem_cons, List.not_mem_nil, or_false] at hop
    rcases hop with rfl | rfl | rfl | rfl | rfl
    · refine ⟨?_, ?_⟩
      · rw [ProgramText.legible_ofString]
        decide
      · intro program _
        have hfinite : (1000 : Binary64) ≠ infinity false := by decide +kernel
        rw [effectiveDuration_given program (by decide +kernel)]
        intro hd
        exact hfinite (Except.ok.inj hd)
    all_goals trivial
  have hfacts : (c.run ops).machine.program.any (2 < ·.endpoints.length) = true ∧
      0 < (c.run ops).machine.job.filePosition ∧ (c.published ops).length = 2 := by
    decide +kernel
  obtain ⟨hunderway, hpublished, -⟩ := run_underway 0 (some 600) .accepting ops hb
  rw [show boot 0 (some 600) .accepting = c from rfl] at hunderway hpublished
  exact ⟨hb, hfacts.1, hunderway, hfacts.2.1, hfacts.2.2, hpublished⟩

end Controller

end VirtualPrinter
