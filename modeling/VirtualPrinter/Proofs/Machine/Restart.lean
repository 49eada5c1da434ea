import VirtualPrinter.Proofs.Machine.Coherence
import VirtualPrinter.Proofs.Machine.Monotone

/-!
# A wrap is a fresh start

The machine that a wrap leaves is the one that starting the same text at that time would leave, but
for the count of its runs and the head, which stays at the end of the finished run. Nothing reads
the count, and the first command that tells the time moves the head; from there on the two machines
go the same way.
-/

namespace VirtualPrinter

open Binary64

attribute [local irreducible] Binary64.ofNat Binary64.ofRatio

/-! ### The progress of a job that has wrapped -/

theorem Machine.elapsedFraction_done {elapsed duration : Binary64}
    (h : elapsed.lt duration = false) (hfin : duration.isFinite = true) :
    elapsedFraction elapsed duration = 1 := by
  unfold elapsedFraction
  split
  · rename_i hpos
    have hdone : (elapsed / duration).lt 1 = false := by
      rcases eq_nan_or_le_of_not_lt (fun hnan => by rw [hnan] at hfin; contradiction) h with
        rfl | hle
      · rfl
      · have hratio := div_mono hfin hpos hle
        rw [div_self hfin hpos] at hratio
        cases hlt : (elapsed / duration).lt 1 with
        | false => rfl
        | true =>
          have hirr := lt_of_le_of_lt hratio hlt
          rw [lt_irrefl] at hirr
          contradiction
    rcases clampToUnit_cases (elapsed / duration) with ⟨_, hc⟩ | ⟨_, hlt, _⟩ | ⟨_, hlt, _⟩
    · exact hc
    · rw [hdone] at hlt
      contradiction
    · rw [hdone] at hlt
      contradiction
  · rfl

/- Where the end of the path can be shown, every place before it can. -/
theorem Program.progress_of_one {p : Program} {size : Nat} {t : Binary64} {g : Progress}
    (hg : p.progress size 1 = .ok g) (ht : InUnit t) : ∃ h, p.progress size t = .ok h := by
  have hshare : ∀ {x y : Binary64} {n : Nat} {k : Int}, InUnit x → InUnit y →
      wholeStep (x * .ofNat n) = .ok k → ∃ j, wholeStep (y * .ofNat n) = .ok j := by
    intro x y n k hx hy hk
    obtain ⟨w, hw⟩ := finite_of_floor_mul hx (wholeStep_ok hk)
    obtain ⟨u, rfl, hu⟩ := hy
    rw [hw, wholeStep, floor_mul hu]
    exact ⟨_, rfl⟩
  by_cases hlong : 1 < p.endpoints.length
  · obtain ⟨i, hi, hhead, hgc, hgp⟩ := progress_path_inv hlong hg
    have hilt := List.getElem?_eq_some_iff.1 hhead |>.1
    obtain ⟨j, hj, hji⟩ := exists_floor_mul ht (wholeStep_ok hi)
    have hindex : pathIndex (p.endpoints.length - 1) t = .ok (j : Int) := by
      rw [pathIndex, wholeStep, hj]
      rfl
    have hlast : i ≤ p.endpoints.length - 1 := by omega
    rw [hgc] at hgp
    obtain ⟨position, hposition⟩ := hshare (ofRatio_inUnit (by omega) hlast)
      (ofRatio_inUnit (i := j) (n := p.endpoints.length - 1) (by omega) (by omega)) hgp
    exact ⟨_, progress_path hlong hindex (endpointAt_ok (by omega)) hposition⟩
  · obtain ⟨_, _, hgp⟩ := progress_timed_inv hlong hg
    obtain ⟨position, hposition⟩ := hshare one_inUnit ht hgp
    exact ⟨_, progress_timed hlong hposition⟩

theorem Machine.tick_ok_of_one {m : Machine} {program : Program} {startedAt duration : Binary64}
    {g : Progress} (hmode : m.runMode = .printing) (hs : m.job.startedAt = some startedAt)
    (hp : m.program = some program) (hd : m.job.duration = some duration)
    (hone : program.progress m.job.fileSize 1 = .ok g) (now : Binary64) (observer : Observer) :
    ∃ t, m.tick now observer = .ok t := by
  obtain ⟨h, hh⟩ := Program.progress_of_one hone (elapsedFraction_inUnit (now - startedAt) duration)
  rw [tick_printing hmode hs hp hd]
  cases hlt : (now - startedAt).lt duration with
  | true => exact ⟨_, tickPrinting_early hh hlt⟩
  | false => exact ⟨_, tickPrinting_late hh hlt⟩

/-! ### Machines that differ in the count of their runs -/

namespace Machine

variable {m : Machine} {k : Nat} {h : Point} {now : Binary64} {observer other : Observer}

/-- The machine whose job has completed more runs. -/
def ahead (m : Machine) (k : Nat) : Machine :=
  { m with job := { m.job with loops := m.job.loops + k } }

def turned (m : Machine) (h : Point) : Machine := { m with head := h }

/- Both are shown the same: a view has no count of runs. -/
theorem receive_ahead (h : observer = .absent ↔ other = .absent) (m : Machine) (k : Nat)
    (now : Binary64) : (other.receive (m.ahead k) now).1 = (observer.receive m now).1 := by
  have hview : (m.ahead k).snapshot now = m.snapshot now := rfl
  rw [receive_published, receive_published, hview]
  simp only [h]

/- The ticks of two machines that differ in the count: both fail, or the count still differs. -/
inductive Parallel (k : Nat) (observer other : Observer) :
    Except MachineFault Tick → Except MachineFault Tick → Prop
  | failed (fault : MachineFault) : Parallel k observer other (.error fault) (.error fault)
  | passed {t u : Tick} (machine : u.machine = t.machine.ahead k) (wrapped : u.wrapped = t.wrapped)
      (published : (observer = .absent ↔ other = .absent) → u.published = t.published) :
      Parallel k observer other (.ok t) (.ok u)

theorem tick_unstarted (hmode : m.runMode = .printing) (hs : m.job.startedAt = none) :
    m.tick now observer = .ok { machine := m } := by
  simp only [tick, hmode, hs]

theorem tick_unloaded {startedAt : Binary64} (hmode : m.runMode = .printing)
    (hs : m.job.startedAt = some startedAt) (hp : m.program = none) :
    m.tick now observer = .ok { machine := m } := by
  simp only [tick, hmode, hs, hp]

theorem tickPrinting_ahead (m : Machine) (k : Nat) (program : Program)
    (duration startedAt now : Binary64) (observer other : Observer) :
    Parallel k observer other (m.tickPrinting program duration startedAt now observer)
      ((m.ahead k).tickPrinting program duration startedAt now other) := by
  cases hg : program.progress m.job.fileSize (elapsedFraction (now - startedAt) duration) with
  | error fault =>
    rw [tickPrinting_fault hg, tickPrinting_fault (m := m.ahead k) hg]
    exact .failed fault
  | ok g =>
    cases hlt : (now - startedAt).lt duration with
    | true =>
      rw [tickPrinting_early hg hlt, tickPrinting_early (m := m.ahead k) hg hlt]
      exact .passed rfl rfl fun _ => rfl
    | false =>
      rw [tickPrinting_late hg hlt, tickPrinting_late (m := m.ahead k) hg hlt, wrap_eq, wrap_eq]
      refine .passed ?_ rfl fun h => receive_ahead h ((m.showing g).finished program) k now
      have hcount : m.job.loops + k + 1 = m.job.loops + 1 + k := by omega
      simp only [restarted, finished, showing, ahead, hcount]

theorem tick_ahead (m : Machine) (k : Nat) (now : Binary64) (observer other : Observer) :
    Parallel k observer other (m.tick now observer) ((m.ahead k).tick now other) := by
  by_cases hidle : m.runMode = .idle
  · rw [tick_idle hidle, tick_idle (m := m.ahead k) hidle]
    exact .passed rfl rfl fun _ => rfl
  · by_cases hmode : m.runMode = .printing
    · cases hs : m.job.startedAt with
      | none =>
        rw [tick_unstarted hmode hs, tick_unstarted (m := m.ahead k) hmode hs]
        exact .passed rfl rfl fun _ => rfl
      | some startedAt =>
        cases hp : m.program with
        | none =>
          rw [tick_unloaded hmode hs hp, tick_unloaded (m := m.ahead k) hmode hs hp]
          exact .passed rfl rfl fun _ => rfl
        | some program =>
          cases hd : m.job.duration with
          | none =>
            simp only [tick, ahead, hmode, hs, hp, hd]
            exact .failed _
          | some duration =>
            rw [tick_printing hmode hs hp hd, tick_printing (m := m.ahead k) hmode hs hp hd]
            exact tickPrinting_ahead m k program duration startedAt now observer other
    · rw [tick_held hidle hmode, tick_held (m := m.ahead k) hidle hmode]
      exact .passed rfl rfl fun _ => rfl

/- A machine that prints reads nothing from its head. -/
theorem tick_turned {startedAt : Binary64} {program : Program} (hmode : m.runMode = .printing)
    (hs : m.job.startedAt = some startedAt) (hp : m.program = some program) :
    (m.turned h).tick now observer = m.tick now observer := by
  cases hd : m.job.duration with
  | none => simp only [tick, turned, hmode, hs, hp, hd]
  | some duration =>
    rw [tick_printing hmode hs hp hd, tick_printing (m := m.turned h) hmode hs hp hd]
    rfl

end Machine

namespace Controller

open Machine

variable {c : Controller} {k : Nat} {other : Observer} {op : Operation} {now : Binary64}

/-- The controller with another observer, of a machine whose job has completed more runs. -/
def ahead (c : Controller) (k : Nat) (other : Observer) : Controller :=
  { c with observer := other, machine := c.machine.ahead k }

def Operation.isReset : Operation → Bool
  | .reset => true
  | _ => false

/-- Whether a command puts another job in place of the one there is, or drops it. -/
def replaces (c : Controller) (op : Operation) : Bool := (c.begun? op).isSome || op.isReset

theorem runMode_ahead (c : Controller) (k : Nat) (other : Observer) :
    (c.ahead k other).machine.runMode = c.machine.runMode := rfl

/- Outcomes that differ in the count of completed runs. -/
structure Agrees {α : Type} (k : Nat) (observer other : Observer) (a b : Outcome α) : Prop where
  answer : b.answer = a.answer
  machine : b.machine = a.machine.ahead k
  published : (observer = .absent ↔ other = .absent) → b.published = a.published

theorem Agrees.map {α β : Type} {observer : Observer} {a b : Outcome α}
    (h : Agrees k observer other a b) (f : α → β) :
    Agrees k observer other (a.map f) (b.map f) :=
  ⟨congrArg (Except.map f) h.answer, h.machine, h.published⟩

theorem afterTick_ahead {α : Type} {next : Tick → Outcome α}
    (hnext : ∀ t u : Tick, u.machine = t.machine.ahead k → u.wrapped = t.wrapped →
      (next u).answer = (next t).answer ∧ (next u).machine = (next t).machine.ahead k ∧
        (next u).published = (next t).published) :
    Agrees k c.observer other (c.afterTick now next) ((c.ahead k other).afterTick now next) := by
  have hparallel := tick_ahead c.machine k now c.observer other
  cases ht : c.machine.tick now c.observer with
  | error fault =>
    rw [ht] at hparallel
    cases hu : (c.machine.ahead k).tick now other with
    | ok u =>
      rw [hu] at hparallel
      cases hparallel
    | error fault' =>
      rw [hu] at hparallel
      cases hparallel
      rw [afterTick_fault next ht, afterTick_fault (c := c.ahead k other) next hu]
      exact ⟨rfl, rfl, fun _ => rfl⟩
  | ok t =>
    rw [ht] at hparallel
    cases hu : (c.machine.ahead k).tick now other with
    | error fault =>
      rw [hu] at hparallel
      cases hparallel
    | ok u =>
      rw [hu] at hparallel
      cases hparallel with
      | passed hmachine hwrapped hpublished =>
        obtain ⟨hanswer, hm, hp⟩ := hnext t u hmachine hwrapped
        rw [afterTick_ok next ht, afterTick_ok (c := c.ahead k other) next hu]
        refine ⟨hanswer, hm, fun h => ?_⟩
        change u.published ++ (next u).published = t.published ++ (next t).published
        rw [hpublished h, hp]

theorem pause_ahead (c : Controller) (k : Nat) (other : Observer) (now : Binary64) :
    Agrees k c.observer other (c.pause now) ((c.ahead k other).pause now) := by
  by_cases hmode : c.machine.runMode = .printing
  · rw [pause, pause, runMode_ahead, if_pos hmode, if_pos hmode]
    apply afterTick_ahead
    intro t u hmachine _
    rw [hmachine]
    exact ⟨rfl, rfl, rfl⟩
  · rw [pause, pause, runMode_ahead, if_neg hmode, if_neg hmode]
    exact ⟨rfl, rfl, fun _ => rfl⟩

theorem resume_ahead (c : Controller) (k : Nat) (other : Observer) (now : Binary64) :
    Agrees k c.observer other (c.resume now) ((c.ahead k other).resume now) := by
  by_cases hmode : c.machine.runMode = .paused
  · simp only [resume, runMode_ahead, hmode, if_true]
    exact ⟨rfl, rfl, fun _ => rfl⟩
  · simp only [resume, runMode_ahead, hmode, if_false]
    exact ⟨rfl, rfl, fun _ => rfl⟩

theorem stop_ahead (c : Controller) (k : Nat) (other : Observer) (now : Binary64) :
    Agrees k c.observer other (c.stop now) ((c.ahead k other).stop now) := by
  by_cases hmode : c.machine.runMode = .printing ∨ c.machine.runMode = .paused
  · rw [stop, stop, runMode_ahead, if_pos hmode, if_pos hmode]
    apply afterTick_ahead
    intro t u hmachine _
    rw [hmachine]
    exact ⟨rfl, rfl, rfl⟩
  · rw [stop, stop, runMode_ahead, if_neg hmode, if_neg hmode]
    exact ⟨rfl, rfl, fun _ => rfl⟩

theorem tick_ahead (c : Controller) (k : Nat) (other : Observer) (now : Binary64) :
    Agrees k c.observer other (c.tick now) ((c.ahead k other).tick now) := by
  apply afterTick_ahead
  intro t u hmachine hwrapped
  exact ⟨congrArg Except.ok hwrapped, hmachine, rfl⟩

theorem status_ahead (c : Controller) (k : Nat) (other : Observer) (now : Binary64) :
    Agrees k c.observer other (c.status now) ((c.ahead k other).status now) := by
  apply afterTick_ahead
  intro t u hmachine _
  rw [hmachine]
  exact ⟨rfl, rfl, rfl⟩

theorem startJob_ahead (c : Controller) (k : Nat) (other : Observer) (name : Option String)
    (plain : String) (program : Program) (now duration : Binary64) :
    Agrees 0 c.observer other (c.startJob name plain program now duration)
      ((c.ahead k other).startJob name plain program now duration) := by
  have hinstall : (c.ahead k other).install name plain program now duration =
      c.install name plain program now duration := rfl
  unfold startJob
  rw [hinstall]
  split
  · exact ⟨rfl, rfl, fun _ => rfl⟩
  · exact ⟨rfl, rfl, fun _ => rfl⟩

/- A start that fails to encode its text leaves the job, and with it the count. -/
theorem startProgram_ahead (c : Controller) (k : Nat) (other : Observer) (name : Option String)
    (text : ProgramText) (program : Program) (now duration : Binary64) :
    Agrees (if text.encodable.toOption.isSome then 0 else k) c.observer other
      (c.startProgram name text program now duration)
      ((c.ahead k other).startProgram name text program now duration) := by
  cases h : text.encodable with
  | error fault =>
    rw [startProgram_unencodable name program duration h,
      startProgram_unencodable (c := c.ahead k other) name program duration h]
    exact ⟨rfl, rfl, fun _ => rfl⟩
  | ok plain =>
    rw [startProgram_encodable name program duration h,
      startProgram_encodable (c := c.ahead k other) name program duration h]
    exact startJob_ahead c k other name plain program now duration

theorem start_ahead (c : Controller) (k : Nat) (other : Observer) (name : Option String)
    (text : ProgramText) (now : Binary64) (given : Option Binary64) :
    Agrees (if (c.begun? (.start name text now given)).isSome then 0 else k) c.observer other
      (c.start name text now given) ((c.ahead k other).start name text now given) := by
  have hsame : ∀ program, (c.ahead k other).effectiveDuration program given =
      c.effectiveDuration program given := fun _ => rfl
  cases hp : Program.ofText text.legible with
  | error fault =>
    have hnone : c.begun? (.start name text now given) = none :=
      begun?_none (loaded?_none name now fun program _ h => by
        rw [hp] at h
        contradiction)
    rw [hnone]
    unfold Program.ofText at hp
    simp only [start, hp]
    exact ⟨rfl, rfl, fun _ => rfl⟩
  | ok program =>
    cases hd : c.effectiveDuration program given with
    | error fault =>
      have hnone : c.begun? (.start name text now given) = none :=
        begun?_none (by
          simp only [loaded?, hp, hd]
          rfl)
      rw [hnone]
      unfold Program.ofText at hp
      simp only [start, hp, hsame, hd]
      exact ⟨rfl, rfl, fun _ => rfl⟩
    | ok duration =>
      have hbegun : c.begun? (.start name text now given) = text.encodable.toOption := by
        rw [begun?, loaded?_some name now hp hd]
        rfl
      rw [hbegun]
      unfold Program.ofText at hp
      have hstarted := startProgram_ahead c k other name text program now duration
      simp only [start, hp, hsame, hd]
      exact ⟨hstarted.answer, hstarted.machine, hstarted.published⟩

theorem perform_ahead (c : Controller) (k : Nat) (other : Observer) (op : Operation) :
    Agrees (if c.replaces op then 0 else k) c.observer other (c.perform op)
      ((c.ahead k other).perform op) := by
  cases op with
  | start name text now given =>
    simp only [replaces, Operation.isReset, Bool.or_false]
    exact (start_ahead c k other name text now given).map _
  | pause now => exact (pause_ahead c k other now).map _
  | resume now => exact (resume_ahead c k other now).map _
  | stop now => exact (stop_ahead c k other now).map _
  | reset => exact ⟨rfl, rfl, fun _ => rfl⟩
  | tick now => exact (tick_ahead c k other now).map _
  | status now => exact (status_ahead c k other now).map _
  | snapshot now => exact ⟨rfl, rfl, fun _ => rfl⟩

theorem next_ahead (c : Controller) (k : Nat) (other : Observer) (op : Operation) :
    (c.ahead k other).next op = (c.next op).ahead (if c.replaces op then 0 else k) other := by
  rw [next, (perform_ahead c k other op).machine]
  rfl

theorem replaces_congr {d : Controller} (h : d.feedRate = c.feedRate) :
    d.replaces = c.replaces := by
  funext op
  rw [replaces, replaces, begun?_congr h]

theorem replaces_of_tickTime (hop : op.tickTime?.isSome = true) : c.replaces op = false := by
  cases op with
  | tick now => rfl
  | status now => rfl
  | pause now => rfl
  | stop now => rfl
  | _ => contradiction

/- Two runs of the same commands agree in all but the count, and in that as well once the job has
been replaced. -/
theorem run_ahead (c : Controller) (k : Nat) (other : Observer) (ops : List Operation) :
    (c.ahead k other).run ops = (c.run ops).ahead (if ops.any c.replaces then 0 else k) other ∧
      (c.ahead k other).answers ops = c.answers ops ∧
      ((c.observer = .absent ↔ other = .absent) →
        (c.ahead k other).published ops = c.published ops) := by
  induction ops generalizing c k with
  | nil => exact ⟨rfl, rfl, fun _ => rfl⟩
  | cons op ops ih =>
    obtain ⟨hrun, hanswers, hpublished⟩ := ih (c.next op) (if c.replaces op then 0 else k)
    have hop := perform_ahead c k other op
    rw [run_cons, answers, published, next_ahead, hrun, hanswers, hop.answer,
      replaces_congr (show (c.next op).feedRate = c.feedRate from rfl)]
    refine ⟨?_, rfl, fun h => ?_⟩
    · rw [List.any_cons, run_cons]
      cases c.replaces op <;> simp
    · rw [hop.published h, hpublished h, published]

/-! ### Until the head is moved -/

/-- The commands that a printing machine answers without being told the time. -/
def Operation.waits : Operation → Bool
  | .snapshot _ | .resume _ => true
  | _ => false

theorem perform_waiting (hmode : c.machine.runMode = .printing) (hop : op.waits = true) :
    c.next op = c ∧ (c.perform op).published = [] := by
  cases op with
  | snapshot now => exact ⟨rfl, rfl⟩
  | resume now =>
    have hne : c.machine.runMode ≠ .paused := by
      rw [hmode]
      decide
    simp only [next, perform, resume, hne, if_false, unchanged, Outcome.map]
    exact ⟨trivial, trivial⟩
  | _ => contradiction

theorem run_waiting {ops : List Operation} (hmode : c.machine.runMode = .printing)
    (hops : ∀ op ∈ ops, op.waits = true) : c.run ops = c ∧ c.published ops = [] := by
  induction ops with
  | nil => exact ⟨rfl, rfl⟩
  | cons op ops ih =>
    obtain ⟨hnext, hpublished⟩ := perform_waiting hmode (hops op List.mem_cons_self)
    obtain ⟨hrun, hrest⟩ := ih fun other hother => hops other (List.mem_cons_of_mem _ hother)
    rw [run_cons, published, hnext, hpublished]
    exact ⟨hrun, hrest⟩

def turned (c : Controller) (h : Point) : Controller := { c with machine := c.machine.turned h }

theorem afterTick_turned {α : Type} {h : Point} {t : Tick} (next : Tick → Outcome α)
    (ht : c.machine.tick now c.observer = .ok t)
    (hturned : (c.machine.turned h).tick now c.observer = .ok t) :
    (c.turned h).afterTick now next = c.afterTick now next := by
  rw [afterTick_ok next ht, afterTick_ok (c := c.turned h) next hturned]

/- A command that tells a printing machine the time puts the head in its place. -/
theorem perform_turned {startedAt : Binary64} {program : Program} {t : Tick} (h : Point)
    (hmode : c.machine.runMode = .printing) (hs : c.machine.job.startedAt = some startedAt)
    (hp : c.machine.program = some program) (hop : op.tickTime? = some now)
    (ht : c.machine.tick now c.observer = .ok t) :
    (c.turned h).perform op = c.perform op := by
  have hturned : (c.machine.turned h).tick now c.observer = .ok t :=
    (tick_turned hmode hs hp).trans ht
  have hsame : (c.turned h).machine.runMode = c.machine.runMode := rfl
  cases op with
  | tick time =>
    cases hop
    exact congrArg (Outcome.map Answer.flag) (afterTick_turned _ ht hturned)
  | status time =>
    cases hop
    exact congrArg (Outcome.map Answer.view) (afterTick_turned _ ht hturned)
  | pause time =>
    cases hop
    rw [perform, perform, pause, pause, hsame, if_pos hmode, if_pos hmode,
      afterTick_turned _ ht hturned]
  | stop time =>
    cases hop
    rw [perform, perform, stop, stop, hsame, if_pos (Or.inl hmode), if_pos (Or.inl hmode),
      afterTick_turned _ ht hturned]
  | _ => contradiction

theorem run_turned {startedAt : Binary64} {program : Program} {t : Tick} (h : Point)
    (hmode : c.machine.runMode = .printing) (hs : c.machine.job.startedAt = some startedAt)
    (hp : c.machine.program = some program) (hop : op.tickTime? = some now)
    (ht : c.machine.tick now c.observer = .ok t) (later : List Operation) :
    (c.turned h).run (op :: later) = c.run (op :: later) ∧
      (c.turned h).answers (op :: later) = c.answers (op :: later) ∧
      (c.turned h).published (op :: later) = c.published (op :: later) := by
  have hperform := perform_turned h hmode hs hp hop ht
  have hnext : (c.turned h).next op = c.next op := by
    rw [next, next, hperform]
    rfl
  simp only [run_cons, answers, published, hnext, hperform, and_self]

/-! ### The duration of a job that runs -/

/- A job that has a start time was given a duration that is positive or not a number. -/
def Timed (m : Machine) : Prop :=
  ∀ d, m.job.startedAt.isSome = true → m.job.duration = some d → d = nan ∨ Binary64.lt 0 d = true

theorem timed_settle {m : Machine} (h : Timed m) : Timed (op.settle m) := by
  cases op with
  | stop time => exact fun d hs => by contradiction
  | _ => exact h

theorem timed_next (h : Timed c.machine) (op : Operation) : Timed (c.next op).machine := by
  change Timed (c.perform op).machine
  rcases time_or_start_or_reset op with ⟨now, hop⟩ | ⟨name, text, now, given, rfl⟩ | rfl
  · obtain ⟨m, l, hm, hl, heffect⟩ := exists_effect c hop
    rw [hm]
    cases heffect with
    | ticked hop hmode ht =>
      have hk := (passing_of_tick ht).keeps
      apply timed_settle
      intro d hs hd
      exact h d (hk.started ▸ hs) (hk.duration ▸ hd)
    | failed hop ht => exact h
    | resumed hmode =>
      intro d hs hd
      refine h d ?_ hd
      change (shiftedStart c.machine.job now).isSome = true at hs
      cases hstart : c.machine.job.startedAt with
      | none =>
        simp only [shiftedStart, hstart] at hs
        contradiction
      | some startedAt => rfl
    | refused hmode => exact h
    | viewed => exact h
  · obtain ⟨answer, hstarted⟩ := exists_started c name text now given
    change Timed (c.start name text now given).machine
    generalize (c.start name text now given).machine = m at hstarted ⊢
    cases hstarted with
    | refused hnone => exact h
    | torn hp hd hfault => exact h
    | installed htext hp hd =>
      intro d _ hdur
      cases hdur
      exact effectiveDuration_pos hd
  · exact fun d hs => by contradiction

theorem timed_run (h : Timed c.machine) (ops : List Operation) : Timed (c.run ops).machine :=
  run_invariant h fun _ op _ hd => timed_next hd op

/-! ### Wraps and starts -/

/- What a wrap that a tick or a status query makes has found, and what it leaves. -/
theorem wrap_of_poll {w : Binary64} (hop : op.pollTime? = some w) (hwrap : c.wraps op = true) :
    ∃ program startedAt duration g, c.machine.runMode = .printing ∧
      c.machine.program = some program ∧ c.machine.job.startedAt = some startedAt ∧
      c.machine.job.duration = some duration ∧ (w - startedAt).lt duration = false ∧
      program.progress c.machine.job.fileSize (elapsedFraction (w - startedAt) duration) = .ok g ∧
      (c.next op).machine = ((c.machine.showing g).finished program).restarted w := by
  have htime : op.tickTime? = some w := by
    cases op with
    | tick time => exact hop
    | status time => exact hop
    | _ => contradiction
  cases ht : c.machine.tick w c.observer with
  | error fault =>
    rw [wraps_failed htime ht] at hwrap
    contradiction
  | ok t =>
    obtain ⟨hnext, hwrapped⟩ := poll_next hop ht
    rw [hwrapped] at hwrap
    rw [hnext]
    cases passing_of_tick ht with
    | late hmode hp hs hd hg hlt =>
      rw [wrap_eq]
      exact ⟨_, _, _, _, hmode, hp, hs, hd, hlt, hg, rfl⟩
    | idle hmode => contradiction
    | early hmode hp hs hd hg hlt => contradiction
    | held hidle hjob => contradiction

theorem restarted_eq {m : Machine} {text : String} {program : Program} {duration w : Binary64}
    (g : Progress) (hmode : m.runMode = .printing) (hp : m.program = some program)
    (hd : m.job.duration = some duration) (hsize : m.job.fileSize = text.utf8ByteSize)
    (hpaused : m.job.pausedAt = none) (htool : c.machine.tool = m.tool)
    (hboot : c.machine.bootedAt = m.bootedAt) :
    ((m.showing g).finished program).restarted w =
      ((c.install m.job.fileName text program w duration).ahead (m.job.loops + 1)).turned
        program.finishedHead := by
  simp only [restarted, finished, showing, Machine.ahead, Machine.turned, install, hmode, hp, hd,
    hsize, hpaused, htool, hboot, Nat.zero_add]

/- The wrapped controller is a started one, ahead in its count and with its head turned. That the
whole path could be shown at the wrap is why no later tick of either fails. -/
structure Restarts (wrapped started : Controller) (loops : Nat) (observer : Observer) (head : Point) :
    Prop where
  eq : wrapped = (started.ahead loops observer).turned head
  mode : started.machine.runMode = .printing
  ticks : ∀ now observer, ∃ t, (started.machine.ahead loops).tick now observer = .ok t
  startedAt : ∃ w, started.machine.job.startedAt = some w
  program : ∃ p, started.machine.program = some p

theorem restarts_of_wrap {other : Controller} {w duration : Binary64} {text : String}
    (hop : op.pollTime? = some w) (hwrap : c.wraps op = true)
    (hd : c.machine.job.duration = some duration) (hfin : duration.isFinite = true)
    (htimed : Timed c.machine) (hcoherent : Coherent c.machine) {program : Program}
    (hi : Installed c.machine text program) (hfeed : other.feedRate = c.feedRate)
    (hboot : other.machine.bootedAt = c.machine.bootedAt)
    (htool : other.machine.tool = c.machine.tool) :
    Restarts (c.next op) (other.next (.start c.machine.job.fileName text w (some duration)))
      (c.machine.job.loops + 1) c.observer program.finishedHead := by
  obtain ⟨program', startedAt, d, g, hmode, hp, hs, hdur, hlt, hg, hmachine⟩ :=
    wrap_of_poll hop hwrap
  cases hd.symm.trans hdur
  cases hi.program.symm.trans hp
  have hpaused := (hcoherent.printing hmode).2.2
  have hpos : Binary64.lt 0 duration = true := by
    rcases htimed duration (by rw [hs]; rfl) hd with hnan | hpos
    · rw [hnan] at hfin
      contradiction
    · exact hpos
  have hstarted : (other.next (.start c.machine.job.fileName text w (some duration))).machine =
      other.install c.machine.job.fileName text program w duration :=
    next_installed _ hi.interpreted (effectiveDuration_given program (not_le_of_lt hpos))
  rw [elapsedFraction_done hlt hfin, hi.size] at hg
  refine ⟨?_, ?_, ?_, ⟨w, ?_⟩, ⟨program, ?_⟩⟩
  · calc c.next op = { c with machine := (c.next op).machine } := rfl
      _ = _ := by
        rw [hmachine, restarted_eq g hmode hp hd hi.size hpaused htool hboot, ← hstarted]
        simp only [turned, ahead, next, hfeed]
  · rw [hstarted]
    rfl
  · rw [hstarted]
    intro now observer
    have hone : program.progress ((other.install c.machine.job.fileName text program w
        duration).ahead (c.machine.job.loops + 1)).job.fileSize 1 = .ok g := hg
    exact Machine.tick_ok_of_one rfl rfl rfl rfl hone now observer
  · rw [hstarted]
    rfl
  · rw [hstarted]
    rfl

theorem Restarts.run {wrapped started : Controller} {loops : Nat} {observer : Observer}
    {head : Point} (h : Restarts wrapped started loops observer head) {waiting : List Operation}
    (hwaiting : ∀ o ∈ waiting, o.waits = true) (hop : op.tickTime?.isSome = true)
    (later : List Operation) :
    (wrapped.run (waiting ++ op :: later)).machine =
        (started.run (waiting ++ op :: later)).machine.ahead
          (if later.any started.replaces then 0 else loops) ∧
      (wrapped.run waiting).answers (op :: later) =
        (started.run waiting).answers (op :: later) ∧
      ((started.observer = .absent ↔ observer = .absent) →
        wrapped.published (waiting ++ op :: later) =
          started.published (waiting ++ op :: later)) := by
  obtain ⟨now, htime⟩ := Option.isSome_iff_exists.1 hop
  obtain ⟨w, hs⟩ := h.startedAt
  obtain ⟨p, hp⟩ := h.program
  obtain ⟨t, ht⟩ := h.ticks now observer
  have hw := run_waiting (c := wrapped) (by rw [h.eq]; exact h.mode) hwaiting
  have hv := run_waiting h.mode hwaiting
  obtain ⟨hrun, hanswers, hpublished⟩ :=
    run_turned (c := started.ahead loops observer) head h.mode hs hp htime ht later
  obtain ⟨hrun', hanswers', hpublished'⟩ := run_ahead started loops observer (op :: later)
  rw [List.any_cons, replaces_of_tickTime hop, Bool.false_or] at hrun'
  rw [run_append, run_append, published_append, published_append, hw.1, hw.2, hv.1, hv.2, h.eq,
    hrun, hanswers, hpublished, hrun', hanswers']
  exact ⟨rfl, rfl, fun hobserver => by rw [hpublished' hobserver]⟩

end Controller

end VirtualPrinter
