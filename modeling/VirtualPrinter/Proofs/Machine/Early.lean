import VirtualPrinter.Proofs.Machine.Monotone

/-!
# Times before the end of a run

A tick or a status query at a time before the end of the present run of a job shows progress and
leaves the run as it is, so any number of them do: none of them wraps the job.
-/

namespace VirtualPrinter

open Binary64

attribute [local irreducible] Binary64.ofNat Binary64.ofRatio

namespace Machine

variable {m n : Machine} {now startedAt duration : Binary64} {observer : Observer} {t : Tick}

/-- What has elapsed of the present run at a time is below its duration; without a run there is
nothing to elapse. -/
def BeforeEnd (m : Machine) (now : Binary64) : Prop :=
  ∀ startedAt, m.program.isSome = true → m.job.startedAt = some startedAt →
    ∃ duration, m.job.duration = some duration ∧ (now - startedAt).lt duration = true

/-- Two machines with the same run: its program, its start and its duration. -/
structure SameRun (m n : Machine) : Prop where
  program : n.program = m.program
  startedAt : n.job.startedAt = m.job.startedAt
  duration : n.job.duration = m.job.duration

theorem SameRun.beforeEnd (hrun : SameRun m n) (h : m.BeforeEnd now) : n.BeforeEnd now := by
  intro startedAt hp hs
  rw [hrun.program] at hp
  rw [hrun.startedAt] at hs
  rw [hrun.duration]
  exact h startedAt hp hs

theorem BeforeEnd.tick (h : m.BeforeEnd now) (ht : m.tick now observer = .ok t) :
    t.wrapped = false ∧ SameRun m t.machine := by
  cases passing_of_tick ht with
  | idle hmode => exact ⟨rfl, rfl, rfl, rfl⟩
  | early hmode hp hs hd hprogress hlt => exact ⟨rfl, rfl, rfl, rfl⟩
  | late hmode hp hs hd hprogress hlt =>
    obtain ⟨duration, hduration, hbefore⟩ := h _ (by rw [hp]; rfl) hs
    rw [hd, Option.some.injEq] at hduration
    rw [← hduration, hlt] at hbefore
    contradiction
  | held hidle hjob => exact ⟨rfl, rfl, rfl, rfl⟩

end Machine

namespace Controller

open Machine

variable {c : Controller} {op : Operation} {ops : List Operation} {now : Binary64}

theorem poll_failed {fault : MachineFault} (hop : op.pollTime? = some now)
    (ht : c.machine.tick now c.observer = .error fault) :
    (c.next op).machine = c.machine ∧ c.wraps op = false := by
  cases op with
  | tick time =>
    cases hop
    refine ⟨?_, wraps_failed rfl ht⟩
    simp only [next, perform, tick, afterTick_fault _ ht, Outcome.map]
  | status time =>
    cases hop
    refine ⟨?_, wraps_failed rfl ht⟩
    simp only [next, perform, status, afterTick_fault _ ht, Outcome.map]
  | _ => contradiction

theorem poll_beforeEnd (hop : op.pollTime? = some now) (h : c.machine.BeforeEnd now) :
    c.wraps op = false ∧ SameRun c.machine (c.next op).machine := by
  cases ht : c.machine.tick now c.observer with
  | error fault =>
    obtain ⟨hnext, hwraps⟩ := poll_failed hop ht
    rw [hnext]
    exact ⟨hwraps, rfl, rfl, rfl⟩
  | ok t =>
    obtain ⟨hnext, hwraps⟩ := poll_next hop ht
    obtain ⟨hwrapped, hrun⟩ := h.tick ht
    rw [hnext, hwraps]
    exact ⟨hwrapped, hrun⟩

theorem neverWraps_of_beforeEnd
    (h : ∀ op ∈ ops, ∃ now, op.pollTime? = some now ∧ c.machine.BeforeEnd now) :
    c.neverWraps ops = true := by
  induction ops generalizing c with
  | nil => rfl
  | cons op ops ih =>
    obtain ⟨now, hop, hbefore⟩ := h op List.mem_cons_self
    obtain ⟨hwraps, hrun⟩ := poll_beforeEnd hop hbefore
    have hlater : (c.next op).neverWraps ops = true := by
      refine ih fun other hother => ?_
      obtain ⟨time, htime, hearly⟩ := h other (List.mem_cons_of_mem op hother)
      exact ⟨time, htime, hrun.beforeEnd hearly⟩
    rw [neverWraps, hwraps, hlater]
    rfl

end Controller

end VirtualPrinter
