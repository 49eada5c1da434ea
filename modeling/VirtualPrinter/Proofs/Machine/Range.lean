import VirtualPrinter.Proofs.Machine.Monotone

/-!
# Ticks of any machine

From every state, whether commands lead to it or not, and at every time, a tick succeeds, finds its
place on the path and leaves completion and position within their bounds. Nothing is asked of the
duration, the start time and the coordinates of the path, which need not even be numbers.
-/

namespace VirtualPrinter

open Binary64

attribute [local irreducible] Binary64.ofNat Binary64.ofRatio

namespace Program

theorem pathIndex_lt {p : Program} {t : Binary64} (hlong : 1 < p.endpoints.length)
    (hpath : p.endpoints.length ≤ 2 ^ 53 + 1) (ht : InUnit t) :
    ∃ k < p.endpoints.length, pathIndex (p.endpoints.length - 1) t = .ok (k : Int) := by
  obtain ⟨k, hk, hle, -⟩ := wholeStep_mul (n := p.endpoints.length - 1) ht (by omega)
  exact ⟨k, by omega, hk⟩

/- The completion of a run along a path is a share of it, whatever its index was computed from. -/
theorem completion_inUnit {p : Program} {size : Nat} {f : Binary64} {g : Progress}
    (hf : InUnit f) (hg : p.progress size f = .ok g) : InUnit g.completion := by
  by_cases hlong : 1 < p.endpoints.length
  · obtain ⟨i, -, hhead, hcompletion, -⟩ := progress_path_inv hlong hg
    have hi : i < p.endpoints.length := (List.getElem?_eq_some_iff.1 hhead).1
    rw [hcompletion]
    exact ofRatio_inUnit (by omega) (by omega)
  · rw [(progress_timed_inv hlong hg).2.1]
    exact hf

theorem filePosition_of_progress {p : Program} {size : Nat} {f : Binary64} {g : Progress}
    (hg : p.progress size f = .ok g) :
    wholeStep (g.completion * .ofNat size) = .ok g.filePosition := by
  by_cases hlong : 1 < p.endpoints.length
  · obtain ⟨i, -, -, -, hposition⟩ := progress_path_inv hlong hg
    exact hposition
  · obtain ⟨-, hcompletion, hposition⟩ := progress_timed_inv hlong hg
    rwa [hcompletion]

end Program

namespace Machine

/-- A machine whose job is neither before its start nor past its end. -/
structure InRange (m : Machine) : Prop where
  completion_nonneg : Binary64.le 0 m.job.completion = true
  completion_le : m.job.completion.le 1 = true
  position_nonneg : 0 ≤ m.job.filePosition
  position_le : m.job.filePosition ≤ m.job.fileSize

/-- A machine whose job has a duration, with a path and a file that the format can count. -/
structure Counted (m : Machine) : Prop where
  duration : m.job.duration.isSome = true
  path : ∀ p, m.program = some p → p.endpoints.length < 2 ^ 53
  size : m.job.fileSize < 2 ^ 53

variable {m : Machine} {now : Binary64} {observer : Observer} {t : Tick}

theorem Counted.tick_ok (h : Counted m) (now : Binary64) (observer : Observer) :
    ∃ t, m.tick now observer = .ok t :=
  Machine.tick_ok now observer h.duration
    ⟨fun p hp => (h.path p hp).le.trans (by decide), h.size.le⟩

theorem Counted.tick (h : Counted m) (ht : m.tick now observer = .ok t) : Counted t.machine := by
  have hk := (passing_of_tick ht).keeps
  exact ⟨hk.duration ▸ h.duration, hk.program ▸ h.path, hk.fileSize ▸ h.size⟩

theorem inRange_showing {g : Progress} (hc : InUnit g.completion) (hsize : m.job.fileSize < 2 ^ 53)
    (hg : wholeStep (g.completion * .ofNat m.job.fileSize) = .ok g.filePosition) :
    InRange (m.showing g) := by
  obtain ⟨k, hk, hle, -⟩ := Program.wholeStep_mul hc hsize.le
  have hposition : g.filePosition = k := Except.ok.inj (hg.symm.trans hk)
  refine ⟨hc.zero_le, hc.le_one, ?_, ?_⟩
  · change 0 ≤ g.filePosition
    omega
  · change g.filePosition ≤ m.job.fileSize
    omega

theorem inRange_progress {p : Program} {f : Binary64} {g : Progress} (h : Counted m)
    (hf : InUnit f) (hg : p.progress m.job.fileSize f = .ok g) : InRange (m.showing g) :=
  inRange_showing (Program.completion_inUnit hf hg) h.size (Program.filePosition_of_progress hg)

theorem inRange_tick (h : Counted m) (hrange : InRange m) (ht : m.tick now observer = .ok t) :
    InRange t.machine := by
  cases passing_of_tick ht with
  | idle hmode => exact ⟨hrange.1, hrange.2, hrange.3, hrange.4⟩
  | early hmode hp hs hd hg hlt => exact inRange_progress h (elapsedFraction_inUnit _ _) hg
  | late hmode hp hs hd hg hlt =>
    rw [wrap_eq]
    have hzero := zero_belowOne.inUnit
    exact ⟨hzero.zero_le, hzero.le_one, le_rfl, Int.natCast_nonneg _⟩
  | held hidle hjob => exact hrange

theorem tick_idle_eq (h : m.runMode = .idle) (ht : m.tick now observer = .ok t) :
    t = { machine := { m with head := { m.head with z := m.idleHeight } } } := by
  rw [tick_idle h] at ht
  exact (Except.ok.inj ht).symm

theorem tick_held_eq (h : m.runMode = .paused ∨ m.runMode = .stopped ∨
      m.runMode = .printing ∧ (m.job.startedAt = none ∨ m.program = none))
    (ht : m.tick now observer = .ok t) : t = { machine := m } := by
  cases passing_of_tick ht with
  | idle hmode => simp [hmode] at h
  | early hmode hp hs hd hg hlt => simp [hmode, hp, hs] at h
  | late hmode hp hs hd hg hlt => simp [hmode, hp, hs] at h
  | held hidle hjob => rfl

/-- A tick of any machine succeeds, at every time and under every observer, and leaves the progress in
range. The place on the path that it computes is on the path. A machine that is paused or stopped, or
that prints without a start time or a program, it leaves as it is, and an idle one but for the height
of the head. -/
theorem tick_total (h : Counted m) (hrange : InRange m) (now : Binary64) (observer : Observer) :
    ∃ t, m.tick now observer = .ok t ∧ InRange t.machine ∧
      (∀ program startedAt duration, m.program = some program → m.job.startedAt = some startedAt →
        m.job.duration = some duration → 1 < program.endpoints.length →
          ∃ k < program.endpoints.length, Program.pathIndex (program.endpoints.length - 1)
            (elapsedFraction (now - startedAt) duration) = .ok (k : Int)) ∧
      (m.runMode = .paused ∨ m.runMode = .stopped ∨
          m.runMode = .printing ∧ (m.job.startedAt = none ∨ m.program = none) →
        t = { machine := m }) ∧
      (m.runMode = .idle →
        t = { machine := { m with head := { m.head with z := m.idleHeight } } }) := by
  obtain ⟨t, ht⟩ := h.tick_ok now observer
  refine ⟨t, ht, inRange_tick h hrange ht, ?_, fun hheld => tick_held_eq hheld ht,
    fun hidle => tick_idle_eq hidle ht⟩
  intro program startedAt duration hp _ _ hlong
  have hpath := h.path program hp
  exact Program.pathIndex_lt hlong (by omega) (elapsedFraction_inUnit _ _)

/- Start time, duration, path and the time itself need not be numbers. -/
theorem tick_total_nan :
    let program : Program := ⟨[⟨⟨0, 0, 0⟩, ⟨1, nan, 0⟩, true⟩, ⟨⟨1, nan, 0⟩, ⟨2, 0, 0⟩, true⟩]⟩
    let job : Job := {
      fileSize := 3
      startedAt := some nan
      duration := some nan
      completion := 1
      filePosition := 3 }
    let m : Machine := { runMode := .printing, job, program, bootedAt := .infinity true }
    Counted m ∧ InRange m ∧ ∃ t, m.tick nan .failing = .ok t ∧ InRange t.machine := by
  intro program job m
  have h : Counted m := by
    refine ⟨rfl, ?_, by decide⟩
    intro p hp
    cases hp
    decide
  have hrange : InRange m :=
    ⟨by decide +kernel, by decide +kernel, by decide +kernel, by decide +kernel⟩
  obtain ⟨t, ht, hafter, -⟩ := tick_total h hrange nan .failing
  exact ⟨h, hrange, t, ht, hafter⟩

end Machine

namespace Controller

open Machine

variable {c : Controller}

/- So it goes on: any number of ticks succeed. -/
theorem ticks_total (h : Counted c.machine) (hrange : InRange c.machine) (times : List Binary64) :
    (∀ answer ∈ c.answers (times.map .tick), ∃ wrapped, answer = .ok (.flag wrapped)) ∧
      Counted (c.run (times.map .tick)).machine ∧ InRange (c.run (times.map .tick)).machine := by
  induction times generalizing c with
  | nil => exact ⟨fun answer hmem => by contradiction, h, hrange⟩
  | cons now times ih =>
    obtain ⟨t, ht⟩ := h.tick_ok now c.observer
    have hanswer : (c.perform (.tick now)).answer = .ok (.flag t.wrapped) := by
      simp only [perform, tick, afterTick_ok _ ht, Outcome.map, Except.map]
    have hnext : (c.next (.tick now)).machine = t.machine := (poll_next rfl ht).1
    obtain ⟨hanswers, hcounted, hin⟩ := ih (c := c.next (.tick now)) (hnext ▸ h.tick ht)
      (hnext ▸ inRange_tick h hrange ht)
    refine ⟨?_, hcounted, hin⟩
    intro answer hmem
    rw [List.map_cons, answers, hanswer] at hmem
    rcases List.mem_cons.1 hmem with rfl | hmem
    · exact ⟨t.wrapped, rfl⟩
    · exact hanswers answer hmem

end Controller

end VirtualPrinter
