import VirtualPrinter.Proofs.Machine.Clock
import VirtualPrinter.Proofs.Machine.Start

/-!
# Pauses leave no trace in the progress

Beside a run with pauses stands one without: the same ticks, each earlier by the pauses that were
over by then. On a whole clock both show the same at every step, and their start times differ by
those pauses.
-/

namespace VirtualPrinter

open Binary64

attribute [local irreducible] Binary64.ofNat Binary64.ofRatio

/-- The view without the uptime. -/
def Snapshot.timeless (s : Snapshot) : Snapshot := { s with uptime := 0 }

/-- The total length of the pauses that are over, and the time of the latest pause. -/
structure Holds where
  total : Int := 0
  since : Int := 0

namespace Machine

variable {m r q : Machine} {now late startedAt duration : Binary64} {observer : Observer}
  {program : Program} {s clock t a : Int} {h : Holds}

/-! ### What a pause leaves alone -/

/-- The machine without what a pause changes. -/
def untimed (m : Machine) : Machine :=
  { m with runMode := .printing, job := { m.job with startedAt := none, pausedAt := none } }

/-- The machine's view without the uptime. -/
def view (m : Machine) : Snapshot :=
  { runMode := m.runMode
    head := m.head
    tool := m.tool
    fileName := m.job.fileName
    fileSize := m.job.fileSize
    filePosition := m.job.filePosition
    completion := m.job.completion
    uptime := 0 }

theorem snapshot_timeless {view : Snapshot} (hv : m.snapshot now = .ok view) :
    view.timeless = m.view := by
  rw [snapshot_eq hv]
  rfl

theorem view_untimed (hmode : m.runMode = .printing) : m.untimed.view = m.view := by
  simp only [view, untimed, hmode]

theorem view_congr (hsame : r.untimed = q.untimed) (hr : r.runMode = .printing)
    (hq : q.runMode = .printing) : r.view = q.view := by
  rw [← view_untimed hr, ← view_untimed hq, hsame]

theorem untimed_showing (m : Machine) (g : Progress) :
    (m.showing g).untimed = m.untimed.showing g := rfl

theorem untimed_finished (m : Machine) (program : Program) :
    (m.finished program).untimed = m.untimed.finished program := rfl

theorem untimed_restarted (m : Machine) (now : Binary64) :
    (m.restarted now).untimed = (m.untimed.restarted nan).untimed := rfl

theorem receive_timeless (hsame : r.untimed = q.untimed) (hr : r.runMode = .printing)
    (hq : q.runMode = .printing) (hnow : now.IsWhole t) (hlate : late.IsWhole a)
    (ht : t.natAbs ≤ 2 ^ 53) (ha : a.natAbs ≤ 2 ^ 53) (observer : Observer) :
    (observer.receive r now).1.map Snapshot.timeless =
      (observer.receive q late).1.map Snapshot.timeless := by
  have hboot : r.bootedAt = q.bootedAt := by
    show r.untimed.bootedAt = q.untimed.bootedAt
    rw [hsame]
  have hrok := snapshot_ok_iff (m := r) hnow ht
  have hqok := snapshot_ok_iff (m := q) hlate ha
  rw [hboot, ← hqok] at hrok
  unfold Observer.receive
  cases hv : r.snapshot now with
  | error fault =>
    cases hw : q.snapshot late with
    | error other => cases observer <;> rfl
    | ok w =>
      obtain ⟨v, hv'⟩ := hrok.2 ⟨w, hw⟩
      rw [hv] at hv'
      contradiction
  | ok v =>
    obtain ⟨w, hw⟩ := hrok.1 ⟨v, hv⟩
    have heq : v.timeless = w.timeless := by
      rw [snapshot_timeless hv, snapshot_timeless hw, view_congr hsame hr hq]
    rw [hw]
    cases observer with
    | absent => rfl
    | accepting => simp only [List.map_cons, List.map_nil, heq]
    | failing => simp only [List.map_cons, List.map_nil, heq]

/-! ### One machine follows another -/

/- The machine `r` of a run with pauses beside the machine `q` of the run without: the same but for
the mode and the start time, which is later by the pauses that are over. -/
structure Follows (s clock : Int) (program : Program) (duration : Binary64) (h : Holds)
    (r q : Machine) : Prop where
  same : r.untimed = q.untimed
  program_eq : r.program = some program
  duration_eq : r.job.duration = some duration
  active : r.runMode ≠ .idle
  free : q.runMode = .printing
  start_ge : -2 ^ 51 ≤ s
  clock_le : clock ≤ 2 ^ 51
  total_nonneg : 0 ≤ h.total
  printing : r.runMode = .printing → ∃ x y a, r.job.startedAt = some x ∧
    q.job.startedAt = some y ∧ x.IsWhole (a + h.total) ∧ y.IsWhole a ∧ s ≤ a ∧
    a + h.total ≤ clock
  paused : r.runMode = .paused → ∃ x y z a, r.job.startedAt = some x ∧
    q.job.startedAt = some y ∧ r.job.pausedAt = some z ∧ x.IsWhole (a + h.total) ∧ y.IsWhole a ∧
    z.IsWhole h.since ∧ s ≤ a ∧ a + h.total ≤ h.since ∧ h.since ≤ clock

theorem Follows.elapse (hf : Follows s clock program duration h r q) (hle : clock ≤ t)
    (hb : t ≤ 2 ^ 51) : Follows s t program duration h r q := by
  refine { hf with clock_le := hb, printing := ?_, paused := ?_ }
  · intro hmode
    obtain ⟨x, y, a, hx, hy, hxa, hya, hsa, ha⟩ := hf.printing hmode
    exact ⟨x, y, a, hx, hy, hxa, hya, hsa, ha.trans hle⟩
  · intro hmode
    obtain ⟨x, y, z, a, hx, hy, hz, hxa, hya, hza, hsa, ha, hsince⟩ := hf.paused hmode
    exact ⟨x, y, z, a, hx, hy, hz, hxa, hya, hza, hsa, ha, hsince.trans hle⟩

theorem Follows.program_free (hf : Follows s clock program duration h r q) :
    q.program = some program := by
  show q.untimed.program = some program
  rw [← hf.same]
  exact hf.program_eq

theorem Follows.duration_free (hf : Follows s clock program duration h r q) :
    q.job.duration = some duration := by
  show q.untimed.job.duration = some duration
  rw [← hf.same]
  exact hf.duration_eq

/- Both machines compute the same progress from the same elapsed time, so their ticks agree. -/
theorem Follows.tick (hf : Follows s clock program duration h r q) (hmode : r.runMode = .printing)
    (hnow : now.IsWhole clock) (hlate : late.IsWhole (clock - h.total)) (observer : Observer) :
    (∃ fault, r.tick now observer = .error fault ∧ q.tick late observer = .error fault) ∨
      ∃ t u, r.tick now observer = .ok t ∧ q.tick late observer = .ok u ∧
        t.machine.runMode = .printing ∧
        Follows s clock program duration h t.machine u.machine ∧
        t.published.map Snapshot.timeless = u.published.map Snapshot.timeless := by
  obtain ⟨x, y, a, hx, hy, hxa, hya, hsa, ha⟩ := hf.printing hmode
  have hlow := hf.start_ge
  have hhigh := hf.clock_le
  have htotal := hf.total_nonneg
  have hsize : r.job.fileSize = q.job.fileSize := by
    show r.untimed.job.fileSize = q.untimed.job.fileSize
    rw [hf.same]
  have helapsed := hnow.sub hxa (by omega)
  have hother := hlate.sub hya (by omega)
  -- Both elapsed times are this one whole number.
  have hback : clock - h.total - a = clock - (a + h.total) := by omega
  rw [hback] at hother
  have hfraction := elapsedFraction_congr helapsed hother duration
  have hlt := lt_congr helapsed hother duration
  rw [tick_printing hmode hx hf.program_eq hf.duration_eq,
    tick_printing hf.free hy hf.program_free hf.duration_free]
  cases hg : program.progress r.job.fileSize (elapsedFraction (now - x) duration) with
  | error fault =>
    have hg' := hg
    rw [hsize, hfraction] at hg'
    exact Or.inl ⟨fault, tickPrinting_fault hg, tickPrinting_fault hg'⟩
  | ok g =>
    have hg' := hg
    rw [hsize, hfraction] at hg'
    have hshow : (r.showing g).untimed = (q.showing g).untimed := by
      rw [untimed_showing, untimed_showing, hf.same]
    cases hshort : (now - x).lt duration with
    | true =>
      have hshort' := hshort
      rw [hlt] at hshort'
      refine Or.inr ⟨_, _, tickPrinting_early hg hshort, tickPrinting_early hg' hshort', hmode,
        ?_, rfl⟩
      exact { hf with same := hshow }
    | false =>
      have hshort' := hshort
      rw [hlt] at hshort'
      refine Or.inr ⟨_, _, tickPrinting_late hg hshort, tickPrinting_late hg' hshort', ?_, ?_, ?_⟩
      · rw [wrap_eq]
        exact hmode
      · rw [wrap_eq, wrap_eq]
        have hdone : ((r.showing g).finished program).untimed =
            ((q.showing g).finished program).untimed := by
          rw [untimed_finished, untimed_finished, hshow]
        refine { hf with same := ?_, printing := ?_, paused := ?_ }
        · show (Machine.restarted _ now).untimed = (Machine.restarted _ late).untimed
          rw [untimed_restarted, untimed_restarted _ late, hdone]
        · intro _
          refine ⟨now, late, clock - h.total, rfl, rfl, ?_, hlate, by omega, by omega⟩
          rwa [Int.sub_add_cancel]
        · intro hpaused
          change r.runMode = .paused at hpaused
          rw [hmode] at hpaused
          contradiction
      · rw [wrap_eq, wrap_eq]
        have hdone : ((r.showing g).finished program).untimed =
            ((q.showing g).finished program).untimed := by
          rw [untimed_finished, untimed_finished, hshow]
        exact receive_timeless hdone hmode hf.free hnow hlate (by omega) (by omega) observer

end Machine

namespace Controller

open Machine

variable {c d : Controller} {op : Operation} {now duration : Binary64} {program : Program}
  {s clock t : Int} {h : Holds}

/-! ### The run without pauses -/

/-- The pauses after a command that finds the machine in a mode. -/
def after (h : Holds) (mode : RunMode) : Operation → Holds
  | .pause now => if mode = .printing then { h with since := now.wholeValue } else h
  | .resume now =>
    if mode = .paused then { h with total := h.total + (now.wholeValue - h.since) } else h
  | _ => h

/-- What becomes of a command without the pauses: a tick, when it tells the time to a machine that
prints, and nothing otherwise. -/
def unpaused (c : Controller) (h : Holds) (op : Operation) : List Operation :=
  if op.tickTime?.isSome = true ∧ c.machine.runMode = .printing then
    [.tick (ofInt (op.instant - h.total))]
  else []

def holds (c : Controller) (h : Holds) : List Operation → Holds
  | [] => h
  | op :: ops => (c.next op).holds (after h c.machine.runMode op) ops

/-- The run without pauses. -/
def pauseFree (c : Controller) (h : Holds) : List Operation → List Operation
  | [] => []
  | op :: ops => c.unpaused h op ++ (c.next op).pauseFree (after h c.machine.runMode op) ops

theorem pauseFree_append (c : Controller) (h : Holds) (xs ys : List Operation) :
    c.pauseFree h (xs ++ ys) = c.pauseFree h xs ++ (c.run xs).pauseFree (c.holds h xs) ys := by
  induction xs generalizing c h with
  | nil => rfl
  | cons op xs ih =>
    simp only [List.cons_append, pauseFree, ih, List.append_assoc, run_cons, holds]

theorem unpaused_printing (htick : op.tickTime? = some now) (hmode : c.machine.runMode = .printing)
    (htime : op.instant = t) : c.unpaused h op = [.tick (ofInt (t - h.total))] := by
  rw [unpaused, htick, htime, if_pos ⟨rfl, hmode⟩]

theorem unpaused_held (hmode : c.machine.runMode ≠ .printing) : c.unpaused h op = [] := by
  rw [unpaused, if_neg fun hand => hmode hand.2]

theorem unpaused_silent (htick : op.tickTime? = none) : c.unpaused h op = [] := by
  rw [unpaused, htick, if_neg fun hand => Bool.false_ne_true hand.1]

theorem unpaused_refused (hmode : op.admits c.machine.runMode = false) :
    c.unpaused h op = [] := by
  by_cases hprint : c.machine.runMode = .printing
  · rw [hprint] at hmode
    cases op with
    | resume time => exact unpaused_silent rfl
    | _ => contradiction
  · exact unpaused_held hprint

theorem after_refused {mode : RunMode} (hmode : op.admits mode = false) : after h mode op = h := by
  cases op with
  | pause time =>
    have hne : mode ≠ .printing := by simpa [Operation.admits] using hmode
    rw [after, if_neg hne]
  | resume time =>
    have hne : mode ≠ .paused := by simpa [Operation.admits] using hmode
    rw [after, if_neg hne]
  | _ => rfl

theorem tick_outcome_ok {u : Tick} (hu : d.machine.tick now d.observer = .ok u) :
    (d.run [.tick now]).machine = u.machine ∧ d.published [.tick now] = u.published := by
  simp only [run, List.foldl_cons, List.foldl_nil, published, next, perform, tick,
    afterTick_ok _ hu, Outcome.map, List.append_nil]
  exact ⟨trivial, trivial⟩

theorem tick_outcome_fault {fault : MachineFault}
    (hu : d.machine.tick now d.observer = .error fault) :
    (d.run [.tick now]).machine = d.machine ∧ d.published [.tick now] = [] := by
  simp only [run, List.foldl_cons, List.foldl_nil, published, next, perform, tick,
    afterTick_fault _ hu, Outcome.map, List.append_nil]
  exact ⟨trivial, trivial⟩

/-! ### One command -/

theorem follows_stop {m q : Machine} (hf : Follows s clock program duration h m q) :
    Follows s clock program duration h ((Operation.stop now).settle m) q :=
  { hf with
    active := fun hm => by contradiction
    printing := fun hm => by contradiction
    paused := fun hm => by contradiction }

theorem follows_settle {m q : Machine} (hf : Follows s clock program duration h m q)
    (hmode : m.runMode = .printing) (htime : op.time? = some now) (hnow : now.IsWhole clock) :
    Follows s clock program duration (after h .printing op) (op.settle m) q := by
  cases op with
  | pause time =>
    cases htime
    obtain ⟨x, y, a, hx, hy, hxa, hya, hsa, ha⟩ := hf.printing hmode
    rw [after, if_pos rfl, hnow.wholeValue_eq]
    exact
      { hf with
        active := fun hm => by contradiction
        printing := fun hm => by contradiction
        paused := fun _ => ⟨x, y, now, a, hx, hy, rfl, hxa, hya, hnow, hsa, ha, le_rfl⟩ }
  | stop time => exact follows_stop hf
  | resume time =>
    rw [after, if_neg (by decide)]
    exact hf
  | _ => exact hf

theorem follows_resumed (hf : Follows s clock program duration h c.machine d.machine)
    (hmode : c.machine.runMode = .paused) (hnow : now.IsWhole clock) :
    Follows s clock program duration (after h .paused (.resume now)) (resumed c.machine now)
      d.machine := by
  obtain ⟨x, y, z, a, hx, hy, hz, hxa, hya, hza, hsa, ha, hsince⟩ := hf.paused hmode
  have hlow := hf.start_ge
  have hhigh := hf.clock_le
  have htotal := hf.total_nonneg
  rw [after, if_pos rfl, hnow.wholeValue_eq]
  have hpause := hnow.sub hza (by omega)
  have hsum : a + h.total + (clock - h.since) = a + (h.total + (clock - h.since)) := by omega
  have hshift := hxa.add hpause (by omega)
  rw [hsum] at hshift
  exact
    { hf with
      active := fun hm => by contradiction
      total_nonneg := by
        show 0 ≤ h.total + (clock - h.since)
        omega
      printing := fun _ => ⟨x + (now - z), y, a, by simp only [resumed, shiftedStart, hx, hz], hy,
        hshift, hya, hsa, by
          show a + (h.total + (clock - h.since)) ≤ clock
          omega⟩
      paused := fun hm => by contradiction }

theorem follows_stopped {m q : Machine} (hf : Follows s clock program duration h m q)
    (hmode : m.runMode ≠ .printing) (hallowed : op.admits m.runMode = true)
    (htick : op.tickTime?.isSome = true) :
    Follows s clock program duration (after h m.runMode op) (op.settle m) q := by
  cases op with
  | pause time =>
    have hprint : m.runMode = .printing := by simpa [Operation.admits] using hallowed
    contradiction
  | stop time => exact follows_stop hf
  | resume time => contradiction
  | _ => exact hf

/- A pause whose tick fails is no pause. -/
theorem follows_failed {m q : Machine} (hf : Follows s clock program duration h m q)
    (hmode : m.runMode = .printing) (op : Operation) :
    Follows s clock program duration (after h .printing op) m q := by
  have hpaused : m.runMode ≠ .paused := by
    rw [hmode]
    decide
  cases op with
  | pause time =>
    rw [after, if_pos rfl]
    exact { hf with paused := fun hm => absurd hm hpaused }
  | resume time =>
    rw [after, if_neg (by decide)]
    exact hf
  | _ => exact hf

theorem isWhole_late {m q : Machine} (hf : Follows s clock program duration h m q)
    (hmode : m.runMode = .printing) :
    (ofInt (clock - h.total)).IsWhole (clock - h.total) := by
  obtain ⟨x, y, a, hx, hy, hxa, hya, hsa, ha⟩ := hf.printing hmode
  have hlow := hf.start_ge
  have hhigh := hf.clock_le
  have htotal := hf.total_nonneg
  exact isWhole_ofInt (by omega)

theorem follows_next (hobserver : d.observer = c.observer)
    (hf : Follows s clock program duration h c.machine d.machine) (htime : op.time? = some now)
    (hnow : now.IsWhole t) (hle : clock ≤ t) (hb : t ≤ 2 ^ 51) :
    Follows s t program duration (after h c.machine.runMode op) (c.next op).machine
        (d.run (c.unpaused h op)).machine ∧
      (c.perform op).published.map Snapshot.timeless =
        (d.published (c.unpaused h op)).map Snapshot.timeless := by
  have hlater := hf.elapse hle hb
  change Follows s t program duration _ (c.perform op).machine _ ∧ _
  obtain ⟨m, l, hm, hl, heffect⟩ := exists_effect c htime
  rw [hm, hl]
  cases heffect with
  | ticked htick hallowed ht =>
    -- Only a machine that prints has a tick in the other run; any other stands still.
    by_cases hmode : c.machine.runMode = .printing
    · rw [unpaused_printing htick hmode (instant_eq htime hnow), hmode]
      rcases hlater.tick hmode hnow (isWhole_late hlater hmode) c.observer with
        ⟨fault, hr, _⟩ | ⟨u, v, hr, hv, hprint, hfollow, hshown⟩
      · rw [ht] at hr
        contradiction
      · rw [ht] at hr
        cases hr
        rw [← hobserver] at hv
        obtain ⟨hmachine, hpublished⟩ := tick_outcome_ok hv
        rw [hmachine, hpublished]
        exact ⟨follows_settle hfollow hprint htime hnow, hshown⟩
    · rw [tick_held hlater.active hmode] at ht
      cases ht
      rw [unpaused_held hmode]
      exact ⟨follows_stopped hlater hmode hallowed (by rw [htick]; rfl), rfl⟩
  | failed htick ht =>
    by_cases hmode : c.machine.runMode = .printing
    · rw [unpaused_printing htick hmode (instant_eq htime hnow), hmode]
      rcases hlater.tick hmode hnow (isWhole_late hlater hmode) c.observer with
        ⟨fault, _, hfault⟩ | ⟨u, v, hr, _⟩
      · rw [← hobserver] at hfault
        obtain ⟨hmachine, hpublished⟩ := tick_outcome_fault hfault
        rw [hmachine, hpublished]
        exact ⟨follows_failed hlater hmode op, rfl⟩
      · rw [ht] at hr
        contradiction
    · rw [tick_held hlater.active hmode] at ht
      contradiction
  | resumed hmode =>
    rw [unpaused_silent rfl, hmode]
    exact ⟨follows_resumed hlater hmode hnow, rfl⟩
  | refused hallowed =>
    rw [unpaused_refused hallowed, after_refused hallowed]
    exact ⟨hlater, rfl⟩
  | viewed =>
    rw [unpaused_silent rfl]
    exact ⟨hlater, rfl⟩

/-! ### Whole runs -/

theorem follows_run {ops : List Operation} (hops : Clocked clock ops)
    (hobserver : d.observer = c.observer)
    (hf : Follows s clock program duration h c.machine d.machine) :
    (∃ last, Follows s last program duration (c.holds h ops) (c.run ops).machine
        (d.run (c.pauseFree h ops)).machine) ∧
      (c.published ops).map Snapshot.timeless =
        (d.published (c.pauseFree h ops)).map Snapshot.timeless := by
  induction hops generalizing c d h with
  | nil => exact ⟨⟨_, hf⟩, rfl⟩
  | @cons clock t op ops now htime hnow hle hb hops ih =>
    obtain ⟨hnext, hshown⟩ := follows_next hobserver hf htime hnow hle hb
    have hsame : (d.run (c.unpaused h op)).observer = (c.next op).observer := by
      rw [(run_settings d _).2, hobserver]
      rfl
    obtain ⟨hrest, hlater⟩ := ih hsame hnext
    rw [pauseFree, run_append, published_append, published, List.map_append, List.map_append,
      hshown, hlater]
    exact ⟨hrest, rfl⟩

theorem follows_start (name : Option String) {text : String} {given : Option Binary64}
    (hp : Program.ofText text = .ok program)
    (hd : c.effectiveDuration program given = .ok duration) (hs : now.IsWhole s)
    (hb : s.natAbs ≤ 2 ^ 51) :
    Follows s s program duration {} (c.next (.start name text now given)).machine
      (c.next (.start name text now given)).machine := by
  rw [next_installed name hp hd]
  exact
    { same := rfl
      program_eq := rfl
      duration_eq := rfl
      active := fun hm => by contradiction
      free := rfl
      start_ge := by omega
      clock_le := by omega
      total_nonneg := le_rfl
      printing := fun _ => ⟨now, now, s, rfl, rfl, by rwa [Int.add_zero], hs, le_rfl, by simp⟩
      paused := fun hm => by contradiction }

/-- Pauses are transparent to progress: on a whole clock a started job shows the same as in the run
without its pauses, its observer is shown the same apart from uptimes, and while it prints its start
time is later by the pauses that are over. It is so after every command, for further commands only
add to the run without pauses. -/
theorem run_pauseFree (c : Controller) (name : Option String) {text : String}
    {given : Option Binary64} {ops : List Operation} (hp : Program.ofText text = .ok program)
    (hd : c.effectiveDuration program given = .ok duration) (hs : now.IsWhole s)
    (hb : s.natAbs ≤ 2 ^ 51) (hops : Clocked s ops) :
    let started := c.next (.start name text now given)
    let held := (started.run ops).machine
    let free := (started.run (started.pauseFree {} ops)).machine
    held.head = free.head ∧ held.job.completion = free.job.completion ∧
      held.job.filePosition = free.job.filePosition ∧ held.job.loops = free.job.loops ∧
      (started.published ops).map Snapshot.timeless =
        (started.published (started.pauseFree {} ops)).map Snapshot.timeless ∧
      (held.runMode = .printing → ∃ x y a, held.job.startedAt = some x ∧
        free.job.startedAt = some y ∧ y.IsWhole a ∧
        x.IsWhole (a + (started.holds {} ops).total)) ∧
      ∀ more, ∃ rest, started.pauseFree {} (ops ++ more) = started.pauseFree {} ops ++ rest := by
  intro started held free
  obtain ⟨⟨last, hf⟩, hshown⟩ :=
    follows_run hops rfl (follows_start (c := c) name hp hd hs hb)
  have hsame : held.untimed = free.untimed := hf.same
  refine ⟨?_, ?_, ?_, ?_, hshown, ?_, fun more => ⟨_, pauseFree_append _ _ ops more⟩⟩
  · show held.untimed.head = free.untimed.head
    rw [hsame]
  · show held.untimed.job.completion = free.untimed.job.completion
    rw [hsame]
  · show held.untimed.job.filePosition = free.untimed.job.filePosition
    rw [hsame]
  · show held.untimed.job.loops = free.untimed.job.loops
    rw [hsame]
  · intro hmode
    obtain ⟨x, y, a, hx, hy, hxa, hya, _, _⟩ := hf.printing hmode
    exact ⟨x, y, a, hx, hy, hya, hxa⟩

/- A job of one second with three points on its path, paused twice on its way: after four tenths,
and in its second run. -/
theorem run_pauseFree_second :
    let c := boot 0 (some 600) .accepting
    let text := "G1 X0 Y0\nG1 X10 E1\nG1 X20 E2\nG1 X30 E3"
    let ops : List Operation :=
      [.tick 300, .pause 400, .resume 900, .tick 1600, .pause 1700, .status 1800, .resume 2000,
        .tick 2500]
    let started := c.next (.start (some "a") text 0 (some 1000))
    let held := (started.run ops).machine
    let free := (started.run (started.pauseFree {} ops)).machine
    ∃ program, Program.ofText text = .ok program ∧ 2 < program.endpoints.length ∧
      c.effectiveDuration program (some 1000) = .ok 1000 ∧ Clocked 0 ops ∧
      held.head = free.head ∧ held.job.completion = free.job.completion ∧
      held.job.filePosition = free.job.filePosition ∧ 0 < held.job.filePosition ∧
      held.job.loops = free.job.loops ∧ held.job.loops = 1 ∧
      (started.published ops).map Snapshot.timeless =
        (started.published (started.pauseFree {} ops)).map Snapshot.timeless ∧
      ∃ x y a, held.job.startedAt = some x ∧ free.job.startedAt = some y ∧ y.IsWhole a ∧
        x.IsWhole (a + 800) := by
  intro c text ops started held free
  have hle : Binary64.le 1000 0 = false := by decide +kernel
  have hops : Clocked 0 ops :=
    .cons rfl (isWhole_ofNat (n := 300) (by omega)) (by omega) (by omega)
      (.cons rfl (isWhole_ofNat (n := 400) (by omega)) (by omega) (by omega)
        (.cons rfl (isWhole_ofNat (n := 900) (by omega)) (by omega) (by omega)
          (.cons rfl (isWhole_ofNat (n := 1600) (by omega)) (by omega) (by omega)
            (.cons rfl (isWhole_ofNat (n := 1700) (by omega)) (by omega) (by omega)
              (.cons rfl (isWhole_ofNat (n := 1800) (by omega)) (by omega) (by omega)
                (.cons rfl (isWhole_ofNat (n := 2000) (by omega)) (by omega) (by omega)
                  (.cons rfl (isWhole_ofNat (n := 2500) (by omega)) (by omega) (by omega)
                    .nil)))))))
  have hfacts : (Program.ofText text).toOption.any (2 < ·.endpoints.length) = true ∧
      0 < held.job.filePosition ∧ held.job.loops = 1 ∧ held.runMode = .printing ∧
      (started.holds {} ops).total = 800 := by
    decide +kernel
  obtain ⟨hlong, hposition, hloops, hprinting, htotal⟩ := hfacts
  have hstarted : c.next (.start (some "a") text 0 (some 1000)) = started := rfl
  clear_value started
  cases hp : Program.ofText text with
  | error fault =>
    rw [hp] at hlong
    exact absurd hlong Bool.false_ne_true
  | ok program =>
    rw [hp] at hlong
    have hd := effectiveDuration_given (c := c) program hle
    have hs : (0 : Binary64).IsWhole 0 := isWhole_ofNat (n := 0) (by omega)
    obtain ⟨hhead, hcompletion, hsame, hsameLoops, hshown, hstart, -⟩ :=
      run_pauseFree c (some "a") hp hd hs (by omega) hops
    rw [hstarted] at hhead hcompletion hsame hsameLoops hshown hstart
    obtain ⟨x, y, a, hx, hy, hya, hxa⟩ := hstart hprinting
    rw [htotal] at hxa
    exact ⟨program, rfl, of_decide_eq_true hlong, hd, hops, hhead, hcompletion, hsame, hposition,
      hsameLoops, hloops, hshown, x, y, a, hx, hy, hya, hxa⟩

end Controller

end VirtualPrinter
