import VirtualPrinter.Proofs.Machine.Coherence
import VirtualPrinter.Proofs.Machine.Early

/-!
# Polls do not disturb a run

A tick or a status query that does not wrap writes the progress that it shows, and no tick of a
printing machine reads that. However often and at whatever times a job has been asked about, the
next answer and the next wrap are those of a job that nobody asked about.
-/

namespace VirtualPrinter

open Binary64

attribute [local irreducible] Binary64.ofNat Binary64.ofRatio

namespace Machine

variable {m : Machine} {now startedAt duration : Binary64} {observer : Observer}
  {program : Program} {g : Progress}

theorem showing_shown (m : Machine) : m.showing m.shown = m := rfl

theorem Prints.tick_showing (h : Prints m program startedAt duration) (g : Progress) :
    (m.showing g).tick now observer = m.tick now observer := by
  rw [tick_printing h.mode h.startedAt_eq h.program_eq h.duration_eq,
    tick_printing (m := m.showing g) h.mode h.startedAt_eq h.program_eq h.duration_eq]
  rfl

theorem Passing.published_nil {t : Tick} (h : Passing m now observer t) (hw : t.wrapped = false) :
    t.published = [] := by
  cases h with
  | idle hmode => rfl
  | early hmode hp hs hd hprogress hlt => rfl
  | late hmode hp hs hd hprogress hlt =>
    rw [wrap_eq] at hw
    contradiction
  | held hidle hjob => rfl

end Machine

namespace Controller

open Machine

variable {c : Controller} {op : Operation} {ops : List Operation}
  {now startedAt duration : Binary64} {program : Program}

/-! ### Single polls -/

/-- A tick, or a query of a view of the machine. -/
def Operation.asks : Operation → Bool
  | .tick _ | .status _ | .snapshot _ => true
  | _ => false

theorem Operation.asks_cases (h : op.asks = true) :
    (∃ now, op.pollTime? = some now) ∨ ∃ now, op = .snapshot now := by
  cases op with
  | tick time => exact Or.inl ⟨time, rfl⟩
  | status time => exact Or.inl ⟨time, rfl⟩
  | snapshot time => exact Or.inr ⟨time, rfl⟩
  | _ => contradiction

/-- The controller whose machine shows another progress. -/
def displaying (c : Controller) (g : Progress) : Controller :=
  { c with machine := c.machine.showing g }

theorem afterTick_map {α β : Type} (c : Controller) (now : Binary64) (next : Tick → Outcome α)
    (f : α → β) : (c.afterTick now next).map f = c.afterTick now fun t => (next t).map f := by
  unfold afterTick
  split <;> rfl

/- A tick and a status query tell the time first, and do nothing after that but answer. -/
theorem exists_afterTick (hop : op.pollTime? = some now) :
    ∃ next : Tick → Outcome Answer, (∀ t, (next t).published = []) ∧
      ∀ c : Controller, c.perform op = c.afterTick now next := by
  cases op with
  | tick time =>
    cases hop
    exact ⟨_, fun _ => rfl, fun c => afterTick_map c now _ _⟩
  | status time =>
    cases hop
    exact ⟨_, fun _ => rfl, fun c => afterTick_map c now _ _⟩
  | _ => contradiction

/- A poll that does not wrap shows some progress, if only the one that was shown already. -/
theorem next_of_asks (h : Prints c.machine program startedAt duration) (hop : op.asks = true)
    (hw : c.wraps op = false) :
    ∃ g, c.next op = c.displaying g ∧ (c.perform op).published = [] := by
  rcases op.asks_cases hop with ⟨now, hpoll⟩ | ⟨now, rfl⟩
  · obtain ⟨answered, hsilent, hperform⟩ := exists_afterTick hpoll
    rw [hperform]
    cases ht : c.machine.tick now c.observer with
    | error fault =>
      have hnext := (poll_failed hpoll ht).1
      refine ⟨c.machine.shown, ?_, ?_⟩
      · rw [displaying, showing_shown, ← hnext]
        rfl
      · rw [afterTick_fault _ ht]
    | ok t =>
      obtain ⟨hnext, hwrapped⟩ := poll_next hpoll ht
      rw [hw] at hwrapped
      obtain ⟨g, hm, -, -⟩ := h.early ht hwrapped.symm
      refine ⟨g, ?_, ?_⟩
      · rw [displaying, ← hm, ← hnext]
        rfl
      · rw [afterTick_ok _ ht, hsilent, List.append_nil]
        exact (passing_of_tick ht).published_nil hwrapped.symm
  · exact ⟨c.machine.shown, rfl, rfl⟩

/- The next poll overwrites what is shown; one that fails leaves it. -/
theorem perform_displaying (h : Prints c.machine program startedAt duration) (g : Progress)
    (hop : op.pollTime? = some now) :
    ((c.displaying g).perform op).answer = (c.perform op).answer ∧
      ((c.displaying g).perform op).published = (c.perform op).published ∧
      ((c.displaying g).next op = c.next op ∨ ∃ fault,
        c.machine.tick now c.observer = .error fault ∧ (c.perform op).answer = .error fault) := by
  obtain ⟨answered, -, hperform⟩ := exists_afterTick hop
  have hsame : (c.displaying g).machine.tick now (c.displaying g).observer =
      c.machine.tick now c.observer := h.tick_showing g
  cases ht : c.machine.tick now c.observer with
  | error fault =>
    rw [hperform, hperform, afterTick_fault _ ht, afterTick_fault _ (hsame.trans ht)]
    exact ⟨rfl, rfl, Or.inr ⟨fault, rfl, rfl⟩⟩
  | ok t =>
    have houtcome : (c.displaying g).perform op = c.perform op := by
      rw [hperform, hperform, afterTick_ok _ ht, afterTick_ok _ (hsame.trans ht)]
    rw [next, next, houtcome]
    exact ⟨rfl, rfl, Or.inl rfl⟩

/-! ### Any number of polls -/

/-- Polls none of which wraps the job. -/
structure Quiet (c : Controller) (ops : List Operation) : Prop where
  asks : ∀ op ∈ ops, op.asks = true
  neverWraps : c.neverWraps ops = true

instance (c : Controller) (ops : List Operation) : Decidable (c.Quiet ops) :=
  decidable_of_iff ((∀ op ∈ ops, op.asks = true) ∧ c.neverWraps ops = true)
    ⟨fun h => ⟨h.1, h.2⟩, fun h => ⟨h.asks, h.neverWraps⟩⟩

theorem Quiet.run (h : Prints c.machine program startedAt duration) (hq : c.Quiet ops) :
    ∃ g, c.run ops = c.displaying g ∧ c.published ops = [] := by
  induction ops generalizing c with
  | nil => exact ⟨c.machine.shown, rfl, rfl⟩
  | cons op ops ih =>
    obtain ⟨hw, hrest⟩ := Bool.and_eq_true_iff.1 hq.neverWraps
    obtain ⟨g, hnext, hpublished⟩ := next_of_asks h (hq.asks op List.mem_cons_self)
      (Bool.not_eq_true' _ ▸ hw)
    rw [hnext] at hrest
    obtain ⟨k, hrun, hlater⟩ := ih (c := c.displaying g) (h.showing g)
      ⟨fun other hother => hq.asks other (List.mem_cons_of_mem _ hother), hrest⟩
    refine ⟨k, ?_, ?_⟩
    · rw [run_cons, hnext, hrun]
      rfl
    · rw [published, hpublished, hnext, hlater]
      rfl

/- The poll after quiet ones, and only a machine that does not fit can make it fail. -/
theorem Quiet.perform_run (h : Prints c.machine program startedAt duration)
    (hq : c.Quiet ops) (hop : op.pollTime?.isSome = true) :
    ((c.run ops).perform op).answer = (c.perform op).answer ∧
      c.published (ops ++ [op]) = c.published [op] ∧
      ((c.run ops).next op = c.next op ∨
        ¬ c.machine.Fits ∧ ∃ fault, (c.perform op).answer = .error fault) := by
  obtain ⟨now, hnow⟩ := Option.isSome_iff_exists.1 hop
  obtain ⟨g, hrun, hnil⟩ := hq.run h
  obtain ⟨hanswer, hpublished, hnext⟩ := perform_displaying h g hnow
  rw [hrun]
  refine ⟨hanswer, ?_, hnext.imp_right ?_⟩
  · rw [published_append, hnil, hrun, List.nil_append, published, published, hpublished]
    rfl
  · rintro ⟨fault, ht, hfault⟩
    refine ⟨fun hfits => ?_, fault, hfault⟩
    obtain ⟨t, hok⟩ := h.tick_ok now c.observer hfits
    rw [hok] at ht
    contradiction

/- Whatever a reached machine that prints is printing, it has begun to. -/
theorem prints_of_reached (bootedAt : Binary64) (feedRate : Option Binary64) (observer : Observer)
    (ops : List Operation)
    (hmode : ((boot bootedAt feedRate observer).run ops).machine.runMode = .printing) :
    ∃ program startedAt duration,
      Prints ((boot bootedAt feedRate observer).run ops).machine program startedAt duration := by
  have hactive : ((boot bootedAt feedRate observer).run ops).machine.runMode ≠ .idle := by
    rw [hmode]
    decide
  obtain ⟨_, _, _, hduration⟩ := (carries_run bootedAt feedRate observer ops).job hactive
  have hcoherent := coherent_run (coherent_boot bootedAt) (c := boot bootedAt feedRate observer) ops
  obtain ⟨hp, hs, -⟩ := hcoherent.printing hmode
  obtain ⟨program, hp⟩ := Option.isSome_iff_exists.1 hp
  obtain ⟨startedAt, hs⟩ := Option.isSome_iff_exists.1 hs
  obtain ⟨duration, hd⟩ := Option.isSome_iff_exists.1 hduration
  exact ⟨program, startedAt, duration, hp, hmode, hs, hd⟩

/-- A job that has been polled at any times without a wrap is answered, is shown to the observer
and goes on as if it had not been: a tick or a status query has the outcome that it has alone, and
so two clients that poll at different rates see the same progress and the same wraps. A tick that
does not wrap can be repeated. Only a tick that fails leaves the progress that was shown before, and
a tick fails only where there is more than the format can count: a file of more than `2^53` bytes,
when the loaded program is that of the job. -/
theorem polls_undisturbing (bootedAt : Binary64) (feedRate : Option Binary64) (observer : Observer)
    (history : List Operation) {polls : List Operation}
    (hmode : ((boot bootedAt feedRate observer).run history).machine.runMode = .printing)
    (hpolls : ((boot bootedAt feedRate observer).run history).Quiet polls) :
    let c := (boot bootedAt feedRate observer).run history
    let polled := c.run polls
    (∀ op : Operation, op.pollTime?.isSome = true →
      (polled.perform op).answer = (c.perform op).answer ∧
        c.published (polls ++ [op]) = c.published [op] ∧
        (polled.next op = c.next op ∨
          ¬ c.machine.Fits ∧ ∃ fault, (c.perform op).answer = .error fault)) ∧
      ((boot bootedAt feedRate observer).Intact history →
        (c.machine.Fits ↔ c.machine.job.fileSize ≤ 2 ^ 53)) ∧
      (∀ others, c.Quiet others → ∀ op : Operation, op.pollTime?.isSome = true →
        (polled.perform op).answer = ((c.run others).perform op).answer ∧
          c.published (polls ++ [op]) = c.published (others ++ [op])) ∧
      ∀ now, c.wraps (.tick now) = false →
        (c.next (.tick now)).next (.tick now) = c.next (.tick now) := by
  intro c polled
  obtain ⟨program, startedAt, duration, hprints⟩ :=
    prints_of_reached bootedAt feedRate observer history hmode
  refine ⟨fun op hop => hpolls.perform_run hprints hop, ?_, ?_, ?_⟩
  · intro hintact
    obtain ⟨text, _, -, hinstalled⟩ := installed_of_intact (by rw [hmode]; decide) hintact
    exact hinstalled.fits_iff
  · intro others hothers op hop
    obtain ⟨hanswer, hpublished, -⟩ := hpolls.perform_run hprints hop
    obtain ⟨hanswer', hpublished', -⟩ := hothers.perform_run hprints hop
    exact ⟨hanswer.trans hanswer'.symm, hpublished.trans hpublished'.symm⟩
  · intro now hw
    have hasks : (Operation.tick now).asks = true := rfl
    have hpoll : (Operation.tick now).pollTime? = some now := rfl
    obtain ⟨g, hnext, -⟩ := next_of_asks hprints hasks hw
    rcases (perform_displaying hprints g hpoll).2.2 with hsame | ⟨fault, ht, -⟩
    · rw [hnext, hsame, hnext]
    · have hmachine := (poll_failed hpoll ht).1
      have hkept : c.next (.tick now) = c := by
        change { c with machine := (c.next (.tick now)).machine } = c
        rw [hmachine]
      rw [hkept, hkept]

/- Polls that go back and forth, and then the tick that ends the run. -/
theorem polls_undisturbing_unordered :
    let text := "G1 X0 Y0\nG1 X10 E1\nG1 X20 E2\nG1 X30 E3"
    let history : List Operation := [.start (some "a") text 0 (some 1000), .tick 100]
    let polls : List Operation := [.status 900, .tick (-500), .snapshot 5000, .status 800]
    let c := (boot 0 (some 600) .accepting).run history
    c.machine.runMode = .printing ∧ c.Quiet polls ∧ (c.run polls).machine ≠ c.machine ∧
      c.wraps (.tick 1000) = true ∧
      c.published (polls ++ [.tick 1000]) = c.published [.tick 1000] ∧
      (c.run polls).next (.tick 1000) = c.next (.tick 1000) ∧ c.wraps (.tick 700) = false ∧
      (c.next (.tick 700)).next (.tick 700) = c.next (.tick 700) := by
  intro text history polls c
  have hfacts : (c.machine.runMode = .printing ∧ c.Quiet polls) ∧
      (c.run polls).machine ≠ c.machine ∧ c.wraps (.tick 1000) = true ∧
      c.wraps (.tick 700) = false ∧ c.machine.job.fileSize ≤ 2 ^ 53 ∧
      ∀ op ∈ history, (boot 0 (some 600) .accepting).tears op = false := by
    decide +kernel
  obtain ⟨⟨hmode, hpolls⟩, hmoved, hwrap, hearly, hsize, htears⟩ := hfacts
  have hintact := intact_of_tears htears
  obtain ⟨halone, hfits, -, hrepeat⟩ :=
    polls_undisturbing 0 (some 600) .accepting history hmode hpolls
  rw [show (boot 0 (some 600) .accepting).run history = c from rfl] at halone hfits hrepeat
  clear_value c
  obtain ⟨-, hpublished, hnext⟩ := halone (.tick 1000) rfl
  have hsame := hnext.resolve_right fun hlarge => hlarge.1 ((hfits hintact).2 hsize)
  exact ⟨hmode, hpolls, hmoved, hwrap, hpublished, hsame, hearly, hrepeat 700 hearly⟩

end Controller

end VirtualPrinter
