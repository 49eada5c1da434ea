import VirtualPrinter.Machine.Controller
import VirtualPrinter.Proofs.Results

/-!
# Runs of commands

Commands answered one after the other: the controller they leave, what the observer is shown on the
way and what is answered. Beside that stands what a single command can do: one lemma for the passage
of time, and one equation for the machine that each kind of command leaves.
-/

namespace VirtualPrinter

/-! ### The passage of time -/

attribute [local irreducible] Binary64.ofNat

namespace Machine

variable {m : Machine} {now startedAt duration : Binary64} {observer : Observer}
  {program : Program} {progress : Progress}

theorem tick_idle (hmode : m.runMode = .idle) :
    m.tick now observer = .ok { machine := { m with head := { m.head with z := m.idleHeight } } } := by
  simp only [tick, hmode]

theorem tick_printing (hmode : m.runMode = .printing) (hs : m.job.startedAt = some startedAt)
    (hp : m.program = some program) (hd : m.job.duration = some duration) :
    m.tick now observer = m.tickPrinting program duration startedAt now observer := by
  simp only [tick, hmode, hs, hp, hd]

theorem tick_held (hidle : m.runMode ≠ .idle) (hprint : m.runMode ≠ .printing) :
    m.tick now observer = .ok { machine := m } := by
  cases hmode : m.runMode with
  | idle => contradiction
  | printing => contradiction
  | paused => simp only [tick, hmode]
  | stopped => simp only [tick, hmode]

theorem tickPrinting_fault {fault : MachineFault}
    (h : program.progress m.job.fileSize (elapsedFraction (now - startedAt) duration) =
      .error fault) :
    m.tickPrinting program duration startedAt now observer = .error fault := by
  simp only [tickPrinting, h]
  rfl

theorem tickPrinting_early
    (h : program.progress m.job.fileSize (elapsedFraction (now - startedAt) duration) =
      .ok progress) (hlt : (now - startedAt).lt duration = true) :
    m.tickPrinting program duration startedAt now observer =
      .ok { machine := m.showing progress } := by
  simp only [tickPrinting, h, hlt, if_true]
  rfl

theorem tickPrinting_late
    (h : program.progress m.job.fileSize (elapsedFraction (now - startedAt) duration) =
      .ok progress) (hlt : (now - startedAt).lt duration = false) :
    m.tickPrinting program duration startedAt now observer =
      .ok ((m.showing progress).wrap program now observer) := by
  simp only [tickPrinting, h, hlt, Bool.false_eq_true, if_false]
  rfl

/-- What telling a machine the time can do to it. -/
inductive Passing (m : Machine) (now : Binary64) (observer : Observer) : Tick → Prop
  | idle (hmode : m.runMode = .idle) :
      Passing m now observer { machine := { m with head := { m.head with z := m.idleHeight } } }
  | early {program : Program} {startedAt duration : Binary64} {progress : Progress}
      (hmode : m.runMode = .printing) (hp : m.program = some program)
      (hs : m.job.startedAt = some startedAt) (hd : m.job.duration = some duration)
      (hprogress : program.progress m.job.fileSize (elapsedFraction (now - startedAt) duration) =
        .ok progress)
      (hlt : (now - startedAt).lt duration = true) :
      Passing m now observer { machine := m.showing progress }
  | late {program : Program} {startedAt duration : Binary64} {progress : Progress}
      (hmode : m.runMode = .printing) (hp : m.program = some program)
      (hs : m.job.startedAt = some startedAt) (hd : m.job.duration = some duration)
      (hprogress : program.progress m.job.fileSize (elapsedFraction (now - startedAt) duration) =
        .ok progress)
      (hlt : (now - startedAt).lt duration = false) :
      Passing m now observer ((m.showing progress).wrap program now observer)
  | held (hidle : m.runMode ≠ .idle)
      (hjob : m.runMode = .printing → m.job.startedAt = none ∨ m.program = none) :
      Passing m now observer { machine := m }

theorem passing_of_tick {t : Tick} (h : m.tick now observer = .ok t) : Passing m now observer t := by
  by_cases hidle : m.runMode = .idle
  · rw [tick_idle hidle] at h
    cases h
    exact .idle hidle
  · by_cases hmode : m.runMode = .printing
    · cases hs : m.job.startedAt with
      | none =>
        simp only [tick, hmode, hs] at h
        cases h
        exact .held hidle fun _ => Or.inl hs
      | some startedAt =>
        cases hp : m.program with
        | none =>
          simp only [tick, hmode, hs, hp] at h
          cases h
          exact .held hidle fun _ => Or.inr hp
        | some program =>
          cases hd : m.job.duration with
          | none =>
            simp only [tick, hmode, hs, hp, hd] at h
            contradiction
          | some duration =>
            rw [tick_printing hmode hs hp hd] at h
            cases hprogress : program.progress m.job.fileSize
                (elapsedFraction (now - startedAt) duration) with
            | error fault =>
              rw [tickPrinting_fault hprogress] at h
              contradiction
            | ok progress =>
              cases hlt : (now - startedAt).lt duration with
              | true =>
                rw [tickPrinting_early hprogress hlt] at h
                cases h
                exact .early hmode hp hs hd hprogress hlt
              | false =>
                rw [tickPrinting_late hprogress hlt] at h
                cases h
                exact .late hmode hp hs hd hprogress hlt
    · rw [tick_held hidle hmode] at h
      cases h
      exact .held hidle fun hprint => absurd hprint hmode

theorem wrap_eq (m : Machine) (program : Program) (now : Binary64) (observer : Observer) :
    m.wrap program now observer =
      { machine := (m.finished program).restarted now
        wrapped := true
        published := (observer.receive (m.finished program) now).1
        records := (observer.receive (m.finished program) now).2 ++
          [.runFinished m.job.fileName (m.job.loops + 1)] } := by
  simp only [wrap]
  cases observer.receive (m.finished program) now
  rfl

/- A snapshot repeats its machine and adds the uptime. -/
theorem snapshot_eq {s : Snapshot} (h : m.snapshot now = .ok s) :
    s = {
      runMode := m.runMode
      head := m.head
      tool := m.tool
      fileName := m.job.fileName
      fileSize := m.job.fileSize
      filePosition := m.job.filePosition
      completion := m.job.completion
      uptime := s.uptime } := by
  obtain ⟨uptime, -, rfl⟩ := exists_of_map_eq_ok h
  rfl

theorem receive_published (observer : Observer) (m : Machine) (now : Binary64) :
    (observer.receive m now).1 =
      if observer = .absent then [] else (m.snapshot now).toOption.toList := by
  unfold Observer.receive
  cases observer <;> cases m.snapshot now <;> rfl

theorem snapshot_of_receive {s : Snapshot} (h : s ∈ (observer.receive m now).1) :
    m.snapshot now = .ok s := by
  rw [receive_published] at h
  split at h
  · contradiction
  · cases hs : m.snapshot now with
    | error fault =>
      rw [hs] at h
      contradiction
    | ok view =>
      rw [hs] at h
      rw [List.mem_singleton.1 h]

/- The observer is shown nothing but the finished state of the loaded program. -/
theorem Passing.snapshot_of_published {t : Tick} {s : Snapshot} (h : Passing m now observer t)
    (hs : s ∈ t.published) :
    ∃ program g, m.program = some program ∧
      ((m.showing g).finished program).snapshot now = .ok s := by
  cases h with
  | idle hmode => contradiction
  | early hmode hp hstart hd hprogress hlt => contradiction
  | late hmode hp hstart hd hprogress hlt =>
    rw [wrap_eq] at hs
    exact ⟨_, _, hp, snapshot_of_receive hs⟩
  | held hidle hjob => contradiction

/- What telling the time leaves alone, whatever it shows or restarts: the machine's settings and the
job's identity. -/
structure Keeps (m n : Machine) : Prop where
  runMode : n.runMode = m.runMode
  program : n.program = m.program
  tool : n.tool = m.tool
  bootedAt : n.bootedAt = m.bootedAt
  fileName : n.job.fileName = m.job.fileName
  fileSize : n.job.fileSize = m.job.fileSize
  duration : n.job.duration = m.job.duration
  pausedAt : n.job.pausedAt = m.job.pausedAt
  started : n.job.startedAt.isSome = m.job.startedAt.isSome

theorem Passing.keeps {t : Tick} (h : Passing m now observer t) : Keeps m t.machine := by
  cases h with
  | idle hmode => exact ⟨rfl, rfl, rfl, rfl, rfl, rfl, rfl, rfl, rfl⟩
  | early hmode hp hs hd hprogress hlt => exact ⟨rfl, rfl, rfl, rfl, rfl, rfl, rfl, rfl, rfl⟩
  | late hmode hp hs hd hprogress hlt =>
    rw [wrap_eq]
    refine ⟨rfl, rfl, rfl, rfl, rfl, rfl, rfl, rfl, ?_⟩
    rw [hs]
    rfl
  | held hidle hjob => exact ⟨rfl, rfl, rfl, rfl, rfl, rfl, rfl, rfl, rfl⟩

end Machine

namespace Controller

/-! ### Single commands -/

/-- The time that a command is given; starting a job and resetting stand apart. -/
def Operation.time? : Operation → Option Binary64
  | .pause now | .resume now | .stop now | .tick now | .status now | .snapshot now => some now
  | _ => none

/-- The time that a command tells the machine. -/
def Operation.tickTime? : Operation → Option Binary64
  | .pause now | .stop now | .tick now | .status now => some now
  | _ => none

/-- The run modes in which a command does its work; in the others it is refused. -/
def Operation.admits : Operation → RunMode → Bool
  | .pause _, mode => mode = .printing
  | .resume _, mode => mode = .paused
  | .stop _, mode => mode = .printing ∨ mode = .paused
  | _, _ => true

/-- What a command makes of the machine that its tick left. -/
def Operation.settle : Operation → Machine → Machine
  | .pause now, m => { m with runMode := .paused, job := { m.job with pausedAt := some now } }
  | .stop _, m =>
    { m with runMode := .stopped, job := { m.job with startedAt := none, pausedAt := none } }
  | _, m => m

/-- The machine whose paused job goes on. -/
def resumed (m : Machine) (now : Binary64) : Machine :=
  { m with
    runMode := .printing
    job := { m.job with startedAt := shiftedStart m.job now, pausedAt := none } }

variable {c : Controller} {op : Operation} {now : Binary64}

theorem afterTick_ok {α : Type} {t : Tick} (next : Tick → Outcome α)
    (h : c.machine.tick now c.observer = .ok t) :
    c.afterTick now next =
      { next t with
        published := t.published ++ (next t).published
        records := t.records ++ (next t).records } := by
  simp only [afterTick, h]

theorem afterTick_fault {α : Type} {fault : MachineFault} (next : Tick → Outcome α)
    (h : c.machine.tick now c.observer = .error fault) :
    c.afterTick now next = { answer := .error fault, machine := c.machine } := by
  simp only [afterTick, h]

/-- The machine and the snapshots that a command with a time leaves. -/
inductive Effect (c : Controller) (now : Binary64) :
    Operation → Machine → List Snapshot → Prop
  | ticked {op : Operation} {t : Tick} (hop : op.tickTime? = some now)
      (hmode : op.admits c.machine.runMode = true)
      (h : c.machine.tick now c.observer = .ok t) :
      Effect c now op (op.settle t.machine) t.published
  | failed {op : Operation} {fault : MachineFault} (hop : op.tickTime? = some now)
      (h : c.machine.tick now c.observer = .error fault) : Effect c now op c.machine []
  | resumed (hmode : c.machine.runMode = .paused) :
      Effect c now (.resume now) (resumed c.machine now) []
  | refused {op : Operation} (hmode : op.admits c.machine.runMode = false) :
      Effect c now op c.machine []
  | viewed : Effect c now (.snapshot now) c.machine []

theorem effect_of_time (hop : op.time? = some now) :
    Effect c now op (c.perform op).machine (c.perform op).published := by
  cases op with
  | start name text time given => contradiction
  | reset => contradiction
  | snapshot time =>
    cases hop
    exact .viewed
  | resume time =>
    cases hop
    by_cases hmode : c.machine.runMode = .paused
    · simp only [perform, resume, hmode, if_true, Outcome.map]
      exact .resumed hmode
    · simp only [perform, resume, hmode, if_false, Outcome.map, unchanged]
      exact .refused (by simp [Operation.admits, hmode])
  | tick time =>
    cases hop
    cases h : c.machine.tick now c.observer with
    | error fault =>
      simp only [perform, tick, afterTick_fault _ h, Outcome.map]
      exact .failed rfl h
    | ok t =>
      simp only [perform, tick, afterTick_ok _ h, Outcome.map, List.append_nil]
      exact .ticked rfl rfl h
  | status time =>
    cases hop
    cases h : c.machine.tick now c.observer with
    | error fault =>
      simp only [perform, status, afterTick_fault _ h, Outcome.map]
      exact .failed rfl h
    | ok t =>
      simp only [perform, status, afterTick_ok _ h, Outcome.map, List.append_nil]
      exact .ticked rfl rfl h
  | pause time =>
    cases hop
    by_cases hmode : c.machine.runMode = .printing
    · cases h : c.machine.tick now c.observer with
      | error fault =>
        simp only [perform, pause, hmode, if_true, afterTick_fault _ h, Outcome.map]
        exact .failed rfl h
      | ok t =>
        simp only [perform, pause, hmode, if_true, afterTick_ok _ h, Outcome.map, List.append_nil]
        exact .ticked rfl (by simp [Operation.admits, hmode]) h
    · simp only [perform, pause, hmode, if_false, Outcome.map, unchanged]
      exact .refused (by simp [Operation.admits, hmode])
  | stop time =>
    cases hop
    by_cases hmode : c.machine.runMode = .printing ∨ c.machine.runMode = .paused
    · cases h : c.machine.tick now c.observer with
      | error fault =>
        simp only [perform, stop, hmode, if_true, afterTick_fault _ h, Outcome.map]
        exact .failed rfl h
      | ok t =>
        simp only [perform, stop, hmode, if_true, afterTick_ok _ h, Outcome.map, List.append_nil]
        exact .ticked rfl (by simpa [Operation.admits] using hmode) h
    · simp only [perform, stop, hmode, if_false, Outcome.map, unchanged]
      exact .refused (by simpa [Operation.admits] using hmode)

theorem exists_effect (c : Controller) (hop : op.time? = some now) :
    ∃ m l, (c.perform op).machine = m ∧ (c.perform op).published = l ∧ Effect c now op m l :=
  ⟨_, _, rfl, rfl, effect_of_time hop⟩

/- No command with a time exchanges the job: what runs, and under which name and size, stays. -/
structure SameJob (m n : Machine) : Prop where
  program : n.program = m.program
  bootedAt : n.bootedAt = m.bootedAt
  fileName : n.job.fileName = m.job.fileName
  fileSize : n.job.fileSize = m.job.fileSize
  duration : n.job.duration = m.job.duration

theorem SameJob.refl (m : Machine) : SameJob m m := ⟨rfl, rfl, rfl, rfl, rfl⟩

theorem SameJob.trans {m n r : Machine} (h : SameJob m n) (h' : SameJob n r) : SameJob m r where
  program := h'.program.trans h.program
  bootedAt := h'.bootedAt.trans h.bootedAt
  fileName := h'.fileName.trans h.fileName
  fileSize := h'.fileSize.trans h.fileSize
  duration := h'.duration.trans h.duration

theorem sameJob_tick {m : Machine} {observer : Observer} {t : Tick}
    (h : m.tick now observer = .ok t) : SameJob m t.machine := by
  have hk := (Machine.passing_of_tick h).keeps
  exact ⟨hk.program, hk.bootedAt, hk.fileName, hk.fileSize, hk.duration⟩

theorem sameJob_settle (op : Operation) (m : Machine) : SameJob m (op.settle m) := by
  cases op <;> exact ⟨rfl, rfl, rfl, rfl, rfl⟩

theorem Effect.sameJob {m : Machine} {l : List Snapshot} (h : Effect c now op m l) :
    SameJob c.machine m := by
  cases h with
  | ticked hop hmode h => exact (sameJob_tick h).trans (sameJob_settle op _)
  | failed hop h => exact .refl _
  | resumed hmode => exact ⟨rfl, rfl, rfl, rfl, rfl⟩
  | refused hmode => exact .refl _
  | viewed => exact .refl _

theorem status_ok {t : Tick} {s : Snapshot} (ht : c.machine.tick now c.observer = .ok t)
    (hs : t.machine.snapshot now = .ok s) : (c.status now).answer = .ok s := by
  rw [status, afterTick_ok _ ht, hs]
  rfl

theorem exists_of_status_ok {s : Snapshot} (h : (c.status now).answer = .ok s) :
    ∃ t, c.machine.tick now c.observer = .ok t ∧ (c.status now).machine = t.machine ∧
      t.machine.snapshot now = .ok s := by
  unfold status at h ⊢
  cases ht : c.machine.tick now c.observer with
  | error fault =>
    rw [afterTick_fault _ ht] at h
    contradiction
  | ok t =>
    rw [afterTick_ok _ ht] at h ⊢
    exact ⟨t, rfl, rfl, eq_of_mapError_eq_ok h⟩

theorem time_or_start_or_reset (op : Operation) :
    (∃ now, op.time? = some now) ∨
      (∃ name text now given, op = .start name text now given) ∨ op = .reset := by
  cases op with
  | start name text now given => exact Or.inr (Or.inl ⟨name, text, now, given, rfl⟩)
  | reset => exact Or.inr (Or.inr rfl)
  | _ => exact Or.inl ⟨_, rfl⟩

/-! ### Sequences of commands -/

/-- The controller that commands leave, answered in order. -/
def run (c : Controller) (ops : List Operation) : Controller := ops.foldl next c

/-- What the observer is shown over commands. -/
def published (c : Controller) : List Operation → List Snapshot
  | [] => []
  | op :: ops => (c.perform op).published ++ (c.next op).published ops

/-- The answers to commands. -/
def answers (c : Controller) : List Operation → List (Except MachineFault Answer)
  | [] => []
  | op :: ops => (c.perform op).answer :: (c.next op).answers ops

theorem run_cons (c : Controller) (op : Operation) (ops : List Operation) :
    c.run (op :: ops) = (c.next op).run ops := rfl

theorem run_append (c : Controller) (xs ys : List Operation) :
    c.run (xs ++ ys) = (c.run xs).run ys := List.foldl_append

/- What every command keeps holds after all of them. -/
theorem run_invariant {P : Machine → Prop} {ops : List Operation} (h : P c.machine)
    (hnext : ∀ d : Controller, ∀ op ∈ ops, P d.machine → P (d.next op).machine) :
    P (c.run ops).machine := by
  induction ops generalizing c with
  | nil => exact h
  | cons op ops ih =>
    exact ih (hnext c op List.mem_cons_self h) fun d other hother =>
      hnext d other (List.mem_cons_of_mem _ hother)

theorem next_observer (c : Controller) (op : Operation) : (c.next op).observer = c.observer := rfl

theorem run_settings (c : Controller) (ops : List Operation) :
    (c.run ops).feedRate = c.feedRate ∧ (c.run ops).observer = c.observer := by
  induction ops generalizing c with
  | nil => exact ⟨rfl, rfl⟩
  | cons op ops ih => exact ih (c.next op)

theorem published_append (c : Controller) (xs ys : List Operation) :
    c.published (xs ++ ys) = c.published xs ++ (c.run xs).published ys := by
  induction xs generalizing c with
  | nil => rfl
  | cons op xs ih => simp only [List.cons_append, published, ih, List.append_assoc, run_cons]

end Controller

end VirtualPrinter
