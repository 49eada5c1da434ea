import Mathlib.Data.List.Induction
import VirtualPrinter.Proofs.Machine.Progress
import VirtualPrinter.Proofs.Machine.Start

/-!
# Run mode and job fit together

Which of the program, the start time and the time of the pause are there follows from the run mode,
after any commands. The program is that of the text that was loaded last, and outside of idleness the
size is that of the text that a job was started with last; the two are one text unless the first of
them cannot be encoded. Pausing, resuming and stopping are answered by the run mode alone.
-/

namespace VirtualPrinter

open Binary64

attribute [local irreducible] Binary64.ofNat

namespace Machine

variable {m : Machine} {now : Binary64} {observer : Observer}

structure Coherent (m : Machine) : Prop where
  printing : m.runMode = .printing →
    m.program.isSome = true ∧ m.job.startedAt.isSome = true ∧ m.job.pausedAt = none
  paused : m.runMode = .paused →
    m.program.isSome = true ∧ m.job.startedAt.isSome = true ∧ m.job.pausedAt.isSome = true
  stopped : m.runMode = .stopped →
    m.program.isSome = true ∧ m.job.startedAt = none ∧ m.job.pausedAt = none
  idle : m.runMode = .idle → m.job = {}

theorem Coherent.program_isSome (h : Coherent m) (hactive : m.runMode ≠ .idle) :
    m.program.isSome = true := by
  cases hmode : m.runMode with
  | idle => contradiction
  | printing => exact (h.printing hmode).1
  | paused => exact (h.paused hmode).1
  | stopped => exact (h.stopped hmode).1

theorem coherent_boot (bootedAt : Binary64) : Coherent { bootedAt } where
  printing h := by contradiction
  paused h := by contradiction
  stopped h := by contradiction
  idle _ := rfl

theorem job_of_idle {t : Tick} (ht : m.tick now observer = .ok t) (hmode : m.runMode = .idle) :
    t.machine.job = m.job := by
  rw [tick_idle hmode] at ht
  cases ht
  rfl

theorem coherent_tick {t : Tick} (h : Coherent m) (ht : m.tick now observer = .ok t) :
    Coherent t.machine := by
  have hk := (passing_of_tick ht).keeps
  refine ⟨?_, ?_, ?_, ?_⟩
  · intro hm
    rw [hk.program, hk.pausedAt, hk.started]
    exact h.printing (hk.runMode ▸ hm)
  · intro hm
    rw [hk.program, hk.pausedAt, hk.started]
    exact h.paused (hk.runMode ▸ hm)
  · intro hm
    obtain ⟨hp, hs, hpause⟩ := h.stopped (hk.runMode ▸ hm)
    have hstarted := hk.started
    rw [hs] at hstarted
    rw [hk.program, hk.pausedAt]
    exact ⟨hp, Option.isNone_iff_eq_none.1 (Option.isSome_eq_false_iff.1 hstarted), hpause⟩
  · intro hm
    have hidle := hk.runMode ▸ hm
    rw [job_of_idle ht hidle]
    exact h.idle hidle

end Machine

namespace Controller

open Machine

variable {c : Controller} {op : Operation} {now : Binary64}

/-! ### What each run mode implies -/

theorem coherent_settle {t : Tick} (h : Coherent t.machine)
    (hmode : op.admits t.machine.runMode = true) : Coherent (op.settle t.machine) := by
  cases op with
  | pause time =>
    obtain ⟨hp, hs, hpause⟩ := h.printing (by simpa [Operation.admits] using hmode)
    exact
      { printing := fun hm => by contradiction
        paused := fun _ => ⟨hp, hs, rfl⟩
        stopped := fun hm => by contradiction
        idle := fun hm => by contradiction }
  | stop time =>
    have hp : t.machine.program.isSome = true := by
      rcases (by simpa [Operation.admits] using hmode :
        t.machine.runMode = .printing ∨ t.machine.runMode = .paused) with hm | hm
      · exact (h.printing hm).1
      · exact (h.paused hm).1
    exact
      { printing := fun hm => by contradiction
        paused := fun hm => by contradiction
        stopped := fun _ => ⟨hp, rfl, rfl⟩
        idle := fun hm => by contradiction }
  | _ => exact h

theorem coherent_resumed (h : Coherent c.machine) (hmode : c.machine.runMode = .paused) :
    Coherent (resumed c.machine now) := by
  obtain ⟨hp, hs, _⟩ := h.paused hmode
  have hshift : (shiftedStart c.machine.job now).isSome = true := by
    unfold shiftedStart
    split
    · rfl
    · exact hs
  exact
    { printing := fun _ => ⟨hp, hshift, rfl⟩
      paused := fun hm => by contradiction
      stopped := fun hm => by contradiction
      idle := fun hm => by contradiction }

theorem coherent_install (name : Option String) (plain : String) (program : Program)
    (duration : Binary64) : Coherent (c.install name plain program now duration) where
  printing _ := ⟨rfl, rfl, rfl⟩
  paused h := by contradiction
  stopped h := by contradiction
  idle h := by contradiction

theorem coherent_load (h : Coherent c.machine) (program : Program) : Coherent (c.load program) where
  printing hm := ⟨rfl, (h.printing hm).2⟩
  paused hm := ⟨rfl, (h.paused hm).2⟩
  stopped hm := ⟨rfl, (h.stopped hm).2⟩
  idle hm := h.idle hm

theorem coherent_start (h : Coherent c.machine) (name : Option String) (text : ProgramText)
    (given : Option Binary64) : Coherent (c.start name text now given).machine := by
  obtain ⟨answer, hstarted⟩ := exists_started c name text now given
  generalize (c.start name text now given).machine = m at hstarted ⊢
  cases hstarted with
  | refused hnone => exact h
  | torn hp hd hfault => exact coherent_load h _
  | installed htext hp hd => exact coherent_install name _ _ _

theorem coherent_next (h : Coherent c.machine) (op : Operation) :
    Coherent (c.next op).machine := by
  change Coherent (c.perform op).machine
  rcases time_or_start_or_reset op with ⟨now, hop⟩ | ⟨name, text, now, given, rfl⟩ | rfl
  · obtain ⟨m, l, hm, hl, heffect⟩ := exists_effect c hop
    rw [hm]
    cases heffect with
    | ticked hop hmode ht =>
      have hsame := (passing_of_tick ht).keeps.runMode
      exact coherent_settle (coherent_tick h ht) (hsame ▸ hmode)
    | failed hop ht => exact h
    | resumed hmode => exact coherent_resumed h hmode
    | refused hmode => exact h
    | viewed => exact h
  · exact coherent_start h name text given
  · exact
      { printing := fun hm => by contradiction
        paused := fun hm => by contradiction
        stopped := fun hm => by contradiction
        idle := fun _ => rfl }

theorem coherent_run (h : Coherent c.machine) (ops : List Operation) :
    Coherent (c.run ops).machine :=
  run_invariant h fun _ op _ hd => coherent_next hd op

/-! ### The texts that were used last -/

/-- The text that a command loads a program from, and the program: a text that is interpreted and
has a duration. -/
def loaded? (c : Controller) : Operation → Option (ProgramText × Program)
  | .start _ text _ given =>
    match Program.ofText text.legible with
    | .error _ => none
    | .ok program => (c.effectiveDuration program given).toOption.map fun _ => (text, program)
  | _ => none

/-- The text that a command starts a job with: one that is loaded and can be encoded. -/
def begun? (c : Controller) (op : Operation) : Option String :=
  (c.loaded? op).bind fun entry => entry.1.encodable.toOption

def lastLoaded (c : Controller) (ops : List Operation) : Option (ProgramText × Program) :=
  (ops.filterMap c.loaded?).getLast?

def lastBegun (c : Controller) (ops : List Operation) : Option String :=
  (ops.filterMap c.begun?).getLast?

/-- The text loaded last, if there is one, has started a job. -/
def Intact (c : Controller) (ops : List Operation) : Prop :=
  ∀ text program, c.lastLoaded ops = some (text, program) → ∃ plain : String, text = plain

variable {name : Option String} {text : ProgramText} {plain : String} {given : Option Binary64}
  {program : Program} {duration : Binary64}

theorem loaded?_some (name : Option String) (now : Binary64)
    (h : Program.ofText text.legible = .ok program)
    (hd : c.effectiveDuration program given = .ok duration) :
    c.loaded? (.start name text now given) = some (text, program) := by
  simp only [loaded?, h, hd]
  rfl

theorem loaded?_none (name : Option String) (now : Binary64)
    (h : ∀ program duration, Program.ofText text.legible = .ok program →
      c.effectiveDuration program given ≠ .ok duration) :
    c.loaded? (.start name text now given) = none := by
  cases hp : Program.ofText text.legible with
  | error fault => simp only [loaded?, hp]
  | ok program =>
    cases hd : c.effectiveDuration program given with
    | error fault =>
      simp only [loaded?, hp, hd]
      rfl
    | ok duration => exact absurd hd (h program duration hp)

theorem loaded?_of_time (hop : op.time? = some now) : c.loaded? op = none := by
  cases op with
  | start name text time given => contradiction
  | _ => rfl

theorem begun?_none (h : c.loaded? op = none) : c.begun? op = none := by
  rw [begun?, h]
  rfl

/- With a feed rate every text that is interpreted is loaded. -/
theorem loaded?_start (hfeed : c.feedRate.isSome = true)
    (h : Program.ofText text.legible = .ok program) (name : Option String) (now : Binary64)
    (given : Option Binary64) :
    c.loaded? (.start name text now given) = some (text, program) := by
  obtain ⟨feedRate, hrate⟩ := Option.isSome_iff_exists.1 hfeed
  have hestimate : c.estimate program = .ok (program.duration feedRate) := by
    unfold estimate
    rw [hrate]
  have hduration : ∃ duration, c.effectiveDuration program given = .ok duration := by
    unfold effectiveDuration
    split
    · exact ⟨_, hestimate⟩
    · split
      · exact ⟨_, hestimate⟩
      · exact ⟨_, rfl⟩
  obtain ⟨duration, hd⟩ := hduration
  exact loaded?_some name now h hd

theorem loaded?_congr {d : Controller} (h : d.feedRate = c.feedRate) : d.loaded? = c.loaded? := by
  funext op
  cases op with
  | start name text now given => simp only [loaded?, effectiveDuration, estimate, h]
  | _ => rfl

theorem begun?_congr {d : Controller} (h : d.feedRate = c.feedRate) : d.begun? = c.begun? := by
  funext op
  rw [begun?, begun?, loaded?_congr h]

/-- Whether a command loads a text that cannot be encoded: the program is exchanged, and the head
stays where it is. -/
def tears (c : Controller) (op : Operation) : Bool :=
  (c.loaded? op).isSome && (c.begun? op).isNone

theorem tears_of_fault {fault : EncodingFault} (hp : Program.ofText text.legible = .ok program)
    (hd : c.effectiveDuration program given = .ok duration)
    (hfault : text.encodable = .error fault) :
    c.tears (.start name text now given) = true := by
  rw [tears, begun?, loaded?_some name now hp hd, Option.bind_some, hfault]
  rfl

theorem tears_of_time (hop : op.time? = some now) : c.tears op = false := by
  rw [tears, loaded?_of_time hop]
  rfl

theorem tears_congr {d : Controller} (h : d.feedRate = c.feedRate) : d.tears = c.tears := by
  funext op
  rw [tears, tears, loaded?_congr h, begun?_congr h]

/- A history without such commands is intact. -/
theorem intact_of_tears {ops : List Operation} (h : ∀ op ∈ ops, c.tears op = false) :
    c.Intact ops := by
  intro text program hloaded
  obtain ⟨op, hop, hentry⟩ := List.mem_filterMap.1 (List.mem_of_getLast? hloaded)
  have hwhole := h op hop
  rw [tears, begun?, hentry, Option.bind_some] at hwhole
  cases htext : text.encodable with
  | error fault =>
    rw [htext] at hwhole
    contradiction
  | ok plain => exact ⟨plain, ProgramText.encodable_eq_ok_iff.1 htext⟩

/- What came last behind a list and one more is what the last one gives, if it gives anything. -/
theorem getLast?_filterMap_concat {α β : Type} (f : α → Option β) (xs : List α) (x : α) :
    ((xs ++ [x]).filterMap f).getLast? = (f x).or (xs.filterMap f).getLast? := by
  rw [List.filterMap_append, List.getLast?_append]
  cases h : f x with
  | none => simp [h]
  | some y => simp [h]

/- The invariant of a run: the program is the one loaded last, and a job that there is was started
with the text begun last. The two agree where the text loaded last can be encoded. -/
structure Carries (m : Machine) (loaded : Option (ProgramText × Program)) (begun : Option String) :
    Prop where
  program : m.program = loaded.map (·.2)
  interpreted : ∀ text program, loaded = some (text, program) →
    Program.ofText text.legible = .ok program
  job : m.runMode ≠ .idle → ∃ plain, begun = some plain ∧ m.job.fileSize = plain.utf8ByteSize ∧
    m.job.duration.isSome = true
  agree : ∀ plain program, loaded = some (ProgramText.ofString plain, program) → begun = some plain

theorem Carries.of_frame {m n : Machine} {loaded : Option (ProgramText × Program)}
    {begun : Option String} (h : Carries m loaded begun)
    (hmode : n.runMode ≠ .idle → m.runMode ≠ .idle) (hsame : SameJob m n) :
    Carries n loaded begun where
  program := hsame.program.trans h.program
  interpreted := h.interpreted
  job hn := by
    rw [hsame.fileSize, hsame.duration]
    exact h.job (hmode hn)
  agree := h.agree

theorem settle_active {m : Machine} (hmode : op.admits m.runMode = true)
    (h : (op.settle m).runMode ≠ .idle) : m.runMode ≠ .idle := by
  intro hidle
  rw [hidle] at hmode
  cases op with
  | pause time => simp [Operation.admits] at hmode
  | stop time => simp [Operation.admits] at hmode
  | _ => exact h hidle

/- No command with a time starts a job. -/
theorem active_of_time (hop : op.time? = some now)
    (h : (c.perform op).machine.runMode ≠ .idle) : c.machine.runMode ≠ .idle := by
  obtain ⟨m, l, hm, hl, heffect⟩ := exists_effect c hop
  rw [hm] at h
  cases heffect with
  | ticked hop hmode ht =>
    have hk := (passing_of_tick ht).keeps
    rw [← hk.runMode]
    exact settle_active (hk.runMode ▸ hmode) h
  | failed hop ht => exact h
  | resumed hmode =>
    rw [hmode]
    decide
  | refused hmode => exact h
  | viewed => exact h

theorem carries_start {loaded : Option (ProgramText × Program)} {begun : Option String}
    (h : Carries c.machine loaded begun) (name : Option String) (text : ProgramText)
    (given : Option Binary64) :
    Carries (c.start name text now given).machine
      ((c.loaded? (.start name text now given)).or loaded)
      ((c.begun? (.start name text now given)).or begun) := by
  obtain ⟨answer, hstarted⟩ := exists_started c name text now given
  generalize (c.start name text now given).machine = m at hstarted ⊢
  cases hstarted with
  | refused hnone =>
    have hloaded := loaded?_none name now hnone
    rw [begun?_none hloaded, hloaded]
    exact h
  | torn hp hd hfault =>
    have hloaded := loaded?_some name now hp hd
    have hbegun : c.begun? (.start name text now given) = none := by
      rw [begun?, hloaded, Option.bind_some, hfault]
      rfl
    rw [hbegun, hloaded]
    refine ⟨rfl, ?_, h.job, ?_⟩
    · rintro other program heq
      cases heq
      exact hp
    · rintro plain program heq
      cases heq
      rw [ProgramText.encodable_ofString] at hfault
      cases hfault
  | @installed plain program duration htext hp hd =>
    subst htext
    have hloaded := loaded?_some name now (ofText_legible hp) hd
    have hbegun : c.begun? (.start name plain now given) = some plain := by
      rw [begun?, hloaded, Option.bind_some, ProgramText.encodable_ofString]
      rfl
    rw [hbegun, hloaded]
    refine ⟨rfl, ?_, fun _ => ⟨plain, rfl, rfl, rfl⟩, ?_⟩
    · rintro other program heq
      cases heq
      exact ofText_legible hp
    · rintro other program heq
      have hsame := congrArg Prod.fst (Option.some.inj heq)
      rw [ProgramText.ofString_inj.1 hsame]
      rfl

theorem carries_next {loaded : Option (ProgramText × Program)} {begun : Option String}
    (h : Carries c.machine loaded begun) (op : Operation) :
    Carries (c.next op).machine ((c.loaded? op).or loaded) ((c.begun? op).or begun) := by
  change Carries (c.perform op).machine _ _
  rcases time_or_start_or_reset op with ⟨now, hop⟩ | ⟨name, text, now, given, rfl⟩ | rfl
  · have hnone := loaded?_of_time (c := c) hop
    rw [begun?_none hnone, hnone, Option.none_or, Option.none_or]
    exact h.of_frame (active_of_time hop) (effect_of_time hop).sameJob
  · exact carries_start h name text given
  · exact ⟨h.program, h.interpreted, fun hn => by contradiction, h.agree⟩

theorem carries_run (bootedAt : Binary64) (feedRate : Option Binary64) (observer : Observer)
    (ops : List Operation) :
    let c := boot bootedAt feedRate observer
    Carries (c.run ops).machine (c.lastLoaded ops) (c.lastBegun ops) := by
  intro c
  -- What came last is told by the end of the list, so the induction adds commands there.
  induction ops using List.reverseRecOn with
  | nil => exact ⟨rfl, nofun, fun hn => by contradiction, nofun⟩
  | append_singleton ops op ih =>
    have hnext := carries_next ih op
    have hfeed := (run_settings c ops).1
    rw [loaded?_congr hfeed, begun?_congr hfeed] at hnext
    rw [run_append, lastLoaded, lastBegun, getLast?_filterMap_concat, getLast?_filterMap_concat]
    exact hnext

/- A machine that is not idle has the program and the size of one text, if that loaded last is it. -/
theorem Carries.installed {m : Machine} {loaded : Option (ProgramText × Program)}
    {begun : Option String} (h : Carries m loaded begun) (hactive : m.runMode ≠ .idle)
    (hloaded : loaded = some (ProgramText.ofString plain, program)) :
    Installed m plain program := by
  obtain ⟨other, hbegun, hsize, hduration⟩ := h.job hactive
  rw [h.agree plain program hloaded, Option.some.injEq] at hbegun
  refine ⟨?_, ?_, hbegun ▸ hsize, hduration⟩
  · rw [← h.interpreted _ _ hloaded, ProgramText.legible_ofString]
  · rw [h.program, hloaded]
    rfl

theorem installed_of_intact {bootedAt : Binary64} {feedRate : Option Binary64}
    {observer : Observer} {ops : List Operation}
    (hactive : ((boot bootedAt feedRate observer).run ops).machine.runMode ≠ .idle)
    (hintact : (boot bootedAt feedRate observer).Intact ops) :
    ∃ (plain : String) (program : Program),
      (boot bootedAt feedRate observer).lastLoaded ops = some (↑plain, program) ∧
      Installed ((boot bootedAt feedRate observer).run ops).machine plain program := by
  have hcarries := carries_run bootedAt feedRate observer ops
  have hsome := (coherent_run (coherent_boot bootedAt) (c := boot bootedAt feedRate observer)
    ops).program_isSome hactive
  cases hloaded : (boot bootedAt feedRate observer).lastLoaded ops with
  | none =>
    have hprogram := hcarries.program
    rw [hloaded] at hprogram
    rw [hprogram] at hsome
    contradiction
  | some entry =>
    obtain ⟨plain, hplain⟩ := hintact entry.1 entry.2 hloaded
    have hlast : entry = (↑plain, entry.2) := Prod.ext hplain rfl
    exact ⟨plain, entry.2, congrArg some hlast,
      hcarries.installed hactive (hloaded.trans (congrArg some hlast))⟩

/-! ### Answers -/

/-- The commands that are answered by whether they did their work. -/
def Operation.isCommand : Operation → Bool
  | .pause _ | .resume _ | .stop _ => true
  | _ => false

theorem command_refused (hop : op.isCommand = true) (h : op.admits c.machine.runMode = false) :
    (c.perform op).answer = .ok (.flag false) ∧ (c.perform op).machine = c.machine := by
  cases op with
  | pause time =>
    have hmode : c.machine.runMode ≠ .printing := by simpa [Operation.admits] using h
    simp only [perform, pause, hmode, if_false, unchanged, Outcome.map]
    exact ⟨rfl, trivial⟩
  | resume time =>
    have hmode : c.machine.runMode ≠ .paused := by simpa [Operation.admits] using h
    simp only [perform, resume, hmode, if_false, unchanged, Outcome.map]
    exact ⟨rfl, trivial⟩
  | stop time =>
    have hmode : ¬ (c.machine.runMode = .printing ∨ c.machine.runMode = .paused) := by
      simpa [Operation.admits] using h
    simp only [perform, stop, hmode, if_false, unchanged, Outcome.map]
    exact ⟨rfl, trivial⟩
  | _ => contradiction

/- A command that is not refused answers that it did its work, unless its tick fails. -/
theorem command_admitted (hop : op.isCommand = true) (h : op.admits c.machine.runMode = true) :
    (c.perform op).answer = .ok (.flag true) ∨
      ∃ now fault, op.tickTime? = some now ∧ c.machine.tick now c.observer = .error fault ∧
        (c.perform op).answer = .error fault := by
  cases op with
  | pause time =>
    have hmode : c.machine.runMode = .printing := by simpa [Operation.admits] using h
    simp only [perform, pause, hmode, if_true, Outcome.map]
    cases ht : c.machine.tick time c.observer with
    | ok t =>
      rw [afterTick_ok _ ht]
      exact Or.inl rfl
    | error fault =>
      rw [afterTick_fault _ ht]
      exact Or.inr ⟨time, fault, rfl, ht, rfl⟩
  | resume time =>
    have hmode : c.machine.runMode = .paused := by simpa [Operation.admits] using h
    simp only [perform, resume, hmode, if_true, Outcome.map]
    exact Or.inl rfl
  | stop time =>
    have hmode : c.machine.runMode = .printing ∨ c.machine.runMode = .paused := by
      simpa [Operation.admits] using h
    simp only [perform, stop, hmode, if_true, Outcome.map]
    cases ht : c.machine.tick time c.observer with
    | ok t =>
      rw [afterTick_ok _ ht]
      exact Or.inl rfl
    | error fault =>
      rw [afterTick_fault _ ht]
      exact Or.inr ⟨time, fault, rfl, ht, rfl⟩
  | _ => contradiction

theorem command_answer {a : Answer} (hop : op.isCommand = true)
    (h : (c.perform op).answer = .ok a) : a = .flag (op.admits c.machine.runMode) := by
  cases hmode : op.admits c.machine.runMode with
  | false =>
    rw [(command_refused hop hmode).1] at h
    cases h
    rfl
  | true =>
    rcases command_admitted hop hmode with hok | ⟨now, fault, _, _, herror⟩
    · rw [hok] at h
      cases h
      rfl
    · rw [herror] at h
      contradiction

theorem command_succeeds {loaded : Option (ProgramText × Program)} {begun : Option String}
    (hc : Carries c.machine loaded begun) (hop : op.isCommand = true)
    (hfits : op.admits c.machine.runMode = true → op.tickTime?.isSome = true → c.machine.Fits) :
    (c.perform op).answer = .ok (.flag (op.admits c.machine.runMode)) := by
  cases hmode : op.admits c.machine.runMode with
  | false => exact (command_refused hop hmode).1
  | true =>
    rcases command_admitted hop hmode with hok | ⟨now, fault, htime, ht, _⟩
    · exact hok
    · exfalso
      have hactive : c.machine.runMode ≠ .idle := by
        intro hidle
        rw [hidle] at hmode
        cases op <;> contradiction
      obtain ⟨_, _, _, hduration⟩ := hc.job hactive
      obtain ⟨t, hok⟩ :=
        Machine.tick_ok now c.observer hduration (hfits hmode (by rw [htime]; rfl))
      rw [hok] at ht
      contradiction

end Controller

end VirtualPrinter
