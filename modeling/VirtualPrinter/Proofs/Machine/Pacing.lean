import VirtualPrinter.Proofs.Machine.Clock
import VirtualPrinter.Proofs.Machine.Progress
import VirtualPrinter.Proofs.Machine.Start

/-!
# Wraps are paced by the time spent printing

On a whole clock a job wraps exactly when it has been printing for its duration since it last
wrapped. The time spent printing is kept beside the machine, which knows only a start time.
-/

namespace VirtualPrinter

open Binary64

attribute [local irreducible] Binary64.ofNat Binary64.ofRatio

/-! ### Time spent printing -/

/-- The clock, and the time spent printing: in all, and since the job last wrapped. -/
structure Pace where
  clock : Int
  active : Int := 0
  sinceWrap : Int := 0

namespace Pace

def elapse (p : Pace) (mode : RunMode) (t : Int) : Pace :=
  let spent := if mode = .printing then t - p.clock else 0
  { clock := t, active := p.active + spent, sinceWrap := p.sinceWrap + spent }

def wrapped (p : Pace) : Pace := { p with sinceWrap := 0 }

theorem elapse_printing (p : Pace) (t : Int) :
    p.elapse .printing t =
      { clock := t, active := p.active + (t - p.clock), sinceWrap := p.sinceWrap + (t - p.clock) } :=
  rfl

theorem elapse_held (p : Pace) {mode : RunMode} (t : Int) (h : mode ≠ .printing) :
    p.elapse mode t = { p with clock := t } := by
  simp only [elapse, h, if_false, Int.add_zero]

end Pace

namespace Machine

variable {m : Machine} {now duration : Binary64} {observer : Observer} {text : String}
  {program : Program} {s t : Int} {p : Pace}

/- What ties the machine to the time spent printing. The start time stands as far back as the job has
been printing since its last wrap, counted from now or, in a pause, from its beginning; an overshoot
is dropped by every wrap, so the wraps account for the time spent at most. -/
structure Paced (s : Int) (text : String) (program : Program) (duration : Binary64) (p : Pace)
    (m : Machine) : Prop where
  installed : Installed m text program
  duration_eq : m.job.duration = some duration
  active : m.runMode ≠ .idle
  start_ge : -2 ^ 51 ≤ s
  start_le : s ≤ p.clock - p.sinceWrap
  clock_le : p.clock ≤ 2 ^ 51
  since_nonneg : 0 ≤ p.sinceWrap
  printing : m.runMode = .printing →
    ∃ x, m.job.startedAt = some x ∧ x.IsWhole (p.clock - p.sinceWrap)
  paused : m.runMode = .paused → ∃ x y a, m.job.startedAt = some x ∧ m.job.pausedAt = some y ∧
    y.IsWhole a ∧ x.IsWhole (a - p.sinceWrap) ∧ s ≤ a - p.sinceWrap ∧ a ≤ p.clock
  loops : (m.job.loops : ℚ) * duration.toRat + p.sinceWrap ≤ p.active

theorem Paced.elapse (h : Paced s text program duration p m) (hle : p.clock ≤ t)
    (hb : t ≤ 2 ^ 51) : Paced s text program duration (p.elapse m.runMode t) m := by
  have hloops := h.loops
  have hstart := h.start_le
  have hsince := h.since_nonneg
  by_cases hmode : m.runMode = .printing
  · rw [hmode, Pace.elapse_printing]
    -- The start time stays, as the clock and the time since the wrap move on together.
    have hback : t - (p.sinceWrap + (t - p.clock)) = p.clock - p.sinceWrap := by omega
    refine ⟨h.installed, h.duration_eq, h.active, h.start_ge, ?_, hb, ?_, ?_, ?_, ?_⟩
    · rw [hback]
      exact hstart
    · show 0 ≤ p.sinceWrap + (t - p.clock)
      omega
    · intro _
      rw [hback]
      exact h.printing hmode
    · intro hpaused
      rw [hmode] at hpaused
      contradiction
    · push_cast
      linarith
  · rw [Pace.elapse_held p t hmode]
    refine ⟨h.installed, h.duration_eq, h.active, h.start_ge, ?_, hb, hsince, ?_, ?_, hloops⟩
    · show s ≤ t - p.sinceWrap
      omega
    · intro hprint
      contradiction
    · intro hpaused
      obtain ⟨x, y, a, hx, hy, hya, hxa, hsa, ha⟩ := h.paused hpaused
      exact ⟨x, y, a, hx, hy, hya, hxa, hsa, ha.trans hle⟩

/- The elapsed time that a tick computes is the time spent printing since the last wrap. -/
theorem Paced.elapsed_lt_iff {startedAt : Binary64} (h : Paced s text program duration p m)
    (hfin : duration.isFinite = true) (hmode : m.runMode = .printing)
    (hs : m.job.startedAt = some startedAt) (hnow : now.IsWhole p.clock) :
    (now - startedAt).lt duration = true ↔ (p.sinceWrap : ℚ) < duration.toRat := by
  obtain ⟨x, hx, hwhole⟩ := h.printing hmode
  rw [hs] at hx
  cases hx
  have hstart := h.start_le
  have hlow := h.start_ge
  have hhigh := h.clock_le
  have hsince := h.since_nonneg
  have hback : p.clock - (p.clock - p.sinceWrap) = p.sinceWrap := by omega
  rw [Machine.elapsed_lt_iff hnow hwhole (by omega) hfin, hback]

theorem Paced.showing (h : Paced s text program duration p m) (g : Progress) :
    Paced s text program duration p (m.showing g) :=
  ⟨h.installed.of_frame rfl rfl rfl, h.duration_eq, h.active, h.start_ge, h.start_le, h.clock_le,
    h.since_nonneg, h.printing, h.paused, h.loops⟩

theorem Paced.restarted (h : Paced s text program duration p m) (hmode : m.runMode = .printing)
    (hnow : now.IsWhole p.clock) (hd : duration.toRat ≤ p.sinceWrap) :
    Paced s text program duration p.wrapped (m.restarted now) := by
  have hloops := h.loops
  have hstart := h.start_le
  have hsince := h.since_nonneg
  refine ⟨h.installed.of_frame rfl rfl rfl, h.duration_eq, h.active, h.start_ge, ?_, h.clock_le,
    le_rfl, ?_, ?_, ?_⟩
  · show s ≤ p.clock - 0
    omega
  · intro _
    refine ⟨now, rfl, ?_⟩
    show now.IsWhole (p.clock - 0)
    rwa [Int.sub_zero]
  · intro hpaused
    change m.runMode = .paused at hpaused
    rw [hmode] at hpaused
    contradiction
  · show ((m.job.loops + 1 : Nat) : ℚ) * duration.toRat + ((0 : Int) : ℚ) ≤ p.active
    push_cast
    linarith

theorem paced_tick {tick : Tick} (h : Paced s text program duration p m)
    (hfin : duration.isFinite = true) (hnow : now.IsWhole p.clock)
    (ht : m.tick now observer = .ok tick) :
    Paced s text program duration (if tick.wrapped then p.wrapped else p) tick.machine := by
  cases passing_of_tick ht with
  | idle hmode => exact absurd hmode h.active
  | early hmode hp hs hd hg hlt => exact h.showing _
  | late hmode hp hs hd hg hlt =>
    rw [h.duration_eq] at hd
    cases hd
    have hdone : duration.toRat ≤ p.sinceWrap := by
      rw [← not_lt, ← h.elapsed_lt_iff hfin hmode hs hnow, hlt]
      exact Bool.false_ne_true
    rw [wrap_eq]
    exact ((h.showing _).showing _).restarted hmode hnow hdone
  | held hidle hjob => exact h

theorem Paced.wrapped_iff {tick : Tick} (h : Paced s text program duration p m)
    (hfin : duration.isFinite = true) (hmode : m.runMode = .printing) (hnow : now.IsWhole p.clock)
    (ht : m.tick now observer = .ok tick) :
    tick.wrapped = true ↔ duration.toRat ≤ p.sinceWrap := by
  obtain ⟨x, hx, _⟩ := h.printing hmode
  have hlt := h.elapsed_lt_iff hfin hmode hx hnow
  rw [← not_lt, ← hlt]
  cases passing_of_tick ht with
  | idle hidle => exact absurd hidle h.active
  | early _ hp hs hd hg hshort =>
    rw [hs] at hx
    cases hx
    rw [h.duration_eq] at hd
    cases hd
    rw [hshort]
    simp
  | late _ hp hs hd hg hlong =>
    rw [hs] at hx
    cases hx
    rw [h.duration_eq] at hd
    cases hd
    rw [hlong, wrap_eq]
    simp
  | held hidle hjob =>
    rcases hjob hmode with hnone | hnone
    · rw [hx] at hnone
      contradiction
    · rw [h.installed.program] at hnone
      contradiction

/-! ### What a wrap counts -/

theorem Passing.loops_eq {tick : Tick} (h : Passing m now observer tick) :
    tick.machine.job.loops = m.job.loops + if tick.wrapped then 1 else 0 := by
  cases h with
  | idle hmode => rfl
  | early hmode hp hs hd hg hlt => rfl
  | late hmode hp hs hd hg hlt =>
    rw [wrap_eq]
    rfl
  | held hidle hjob => rfl

theorem receive_length {view : Snapshot} (hobserver : observer ≠ .absent)
    (h : m.snapshot now = .ok view) : (observer.receive m now).1.length = 1 := by
  unfold Observer.receive
  rw [h]
  cases observer with
  | absent => exact absurd rfl hobserver
  | accepting => rfl
  | failing => rfl

theorem Passing.published_length {tick : Tick} (h : Passing m now observer tick)
    (hobserver : observer ≠ .absent) (hnow : now.IsWhole t) (hb : t.natAbs ≤ 2 ^ 53)
    (hboot : m.bootedAt ≠ infinity true) :
    tick.published.length = if tick.wrapped then 1 else 0 := by
  cases h with
  | idle hmode => rfl
  | early hmode hp hs hd hg hlt => rfl
  | @late done startedAt duration g hmode hp hs hd hg hlt =>
    rw [wrap_eq]
    have hdone : ((m.showing g).finished done).bootedAt ≠ infinity true := hboot
    obtain ⟨view, hview⟩ := (snapshot_ok_iff hnow hb).2 hdone
    rw [if_pos rfl]
    exact receive_length hobserver hview
  | held hidle hjob => rfl

end Machine

namespace Controller

open Machine

variable {c : Controller} {op : Operation} {now duration : Binary64} {text : String}
  {program : Program} {s t : Int} {p : Pace}

/-! ### Single commands -/

/-- Whether the tick of a command wraps the job. -/
def wraps (c : Controller) (op : Operation) : Bool :=
  match op.tickTime? with
  | some now =>
    op.admits c.machine.runMode && (c.machine.tick now c.observer).toOption.any Tick.wrapped
  | none => false

def advance (c : Controller) (p : Pace) (op : Operation) : Pace :=
  let later := p.elapse c.machine.runMode op.instant
  if c.wraps op then later.wrapped else later

def pace (c : Controller) (p : Pace) : List Operation → Pace
  | [] => p
  | op :: ops => (c.next op).pace (c.advance p op) ops

theorem wraps_ticked {tick : Tick} (htime : op.tickTime? = some now)
    (hmode : op.admits c.machine.runMode = true)
    (ht : c.machine.tick now c.observer = .ok tick) : c.wraps op = tick.wrapped := by
  simp only [wraps, htime, hmode, ht, Except.toOption, Option.any_some, Bool.true_and]

theorem wraps_failed {fault : MachineFault} (htime : op.tickTime? = some now)
    (ht : c.machine.tick now c.observer = .error fault) : c.wraps op = false := by
  simp only [wraps, htime, ht, Except.toOption, Option.any_none, Bool.and_false]

theorem wraps_refused (hmode : op.admits c.machine.runMode = false) : c.wraps op = false := by
  unfold wraps
  split
  · rw [hmode, Bool.false_and]
  · rfl

theorem admits_printing (htime : op.tickTime? = some now) : op.admits .printing = true := by
  cases op with
  | pause time => rfl
  | stop time => rfl
  | tick time => rfl
  | status time => rfl
  | _ => contradiction

theorem loops_next (htime : op.time? = some now) :
    (c.next op).machine.job.loops = c.machine.job.loops + if c.wraps op then 1 else 0 := by
  change (c.perform op).machine.job.loops = _
  obtain ⟨m, l, hm, hl, heffect⟩ := exists_effect c htime
  rw [hm]
  cases heffect with
  | @ticked _ tick htick hmode ht =>
    rw [wraps_ticked htick hmode ht, ← (passing_of_tick ht).loops_eq]
    cases op <;> rfl
  | failed htick ht =>
    rw [wraps_failed htick ht]
    rfl
  | resumed hmode => rfl
  | refused hmode =>
    rw [wraps_refused hmode]
    rfl
  | viewed => rfl

theorem published_length (htime : op.time? = some now) (hobserver : c.observer ≠ .absent)
    (hnow : now.IsWhole t) (hb : t.natAbs ≤ 2 ^ 53) (hboot : c.machine.bootedAt ≠ infinity true) :
    (c.perform op).published.length = if c.wraps op then 1 else 0 := by
  obtain ⟨m, l, hm, hl, heffect⟩ := exists_effect c htime
  rw [hl]
  cases heffect with
  | ticked htick hmode ht =>
    rw [wraps_ticked htick hmode ht]
    exact (passing_of_tick ht).published_length hobserver hnow hb hboot
  | failed htick ht =>
    rw [wraps_failed htick ht]
    rfl
  | resumed hmode => rfl
  | refused hmode =>
    rw [wraps_refused hmode]
    rfl
  | viewed => rfl

theorem bootedAt_next (htime : op.time? = some now) :
    (c.next op).machine.bootedAt = c.machine.bootedAt := by
  change (c.perform op).machine.bootedAt = _
  obtain ⟨m, l, hm, hl, heffect⟩ := exists_effect c htime
  rw [hm]
  cases heffect with
  | ticked htick hmode ht =>
    rw [← (passing_of_tick ht).keeps.bootedAt]
    cases op <;> rfl
  | failed htick ht => rfl
  | resumed hmode => rfl
  | refused hmode => rfl
  | viewed => rfl

theorem paced_settle {m : Machine} (h : Paced s text program duration p m)
    (htime : op.time? = some now) (hnow : now.IsWhole p.clock)
    (hmode : op.admits m.runMode = true) :
    Paced s text program duration p (op.settle m) := by
  cases op with
  | pause time =>
    cases htime
    have hprint : m.runMode = .printing := by simpa [Operation.admits] using hmode
    obtain ⟨x, hx, hwhole⟩ := h.printing hprint
    exact
      { h with
        installed := h.installed.of_frame rfl rfl rfl
        active := fun hm => by contradiction
        printing := fun hm => by contradiction
        paused := fun _ => ⟨x, now, p.clock, hx, rfl, hnow, hwhole, h.start_le, le_rfl⟩ }
  | stop time =>
    exact
      { h with
        installed := h.installed.of_frame rfl rfl rfl
        active := fun hm => by contradiction
        printing := fun hm => by contradiction
        paused := fun hm => by contradiction }
  | _ => exact h

theorem paced_resumed (h : Paced s text program duration p c.machine)
    (hnow : now.IsWhole p.clock) (hmode : c.machine.runMode = .paused) :
    Paced s text program duration p (resumed c.machine now) := by
  obtain ⟨x, y, a, hx, hy, hya, hxa, hsa, ha⟩ := h.paused hmode
  have hlow := h.start_ge
  have hhigh := h.clock_le
  have hsince := h.since_nonneg
  have hpause := hnow.sub hya (by omega)
  have hsum : a - p.sinceWrap + (p.clock - a) = p.clock - p.sinceWrap := by omega
  have hshift := hxa.add hpause (by rw [hsum]; omega)
  rw [hsum] at hshift
  exact
    { h with
      installed := h.installed.of_frame rfl rfl rfl
      active := fun hm => by contradiction
      printing := fun _ => ⟨x + (now - y), by simp only [resumed, shiftedStart, hx, hy], hshift⟩
      paused := fun hm => by contradiction }

theorem paced_next (h : Paced s text program duration p c.machine)
    (hfin : duration.isFinite = true) (htime : op.time? = some now) (hnow : now.IsWhole t)
    (hle : p.clock ≤ t) (hb : t ≤ 2 ^ 51) :
    Paced s text program duration (c.advance p op) (c.next op).machine := by
  have hlater := h.elapse hle hb
  have hclock : now.IsWhole (p.elapse c.machine.runMode t).clock := hnow
  change Paced s text program duration (c.advance p op) (c.perform op).machine
  rw [advance, instant_eq htime hnow]
  obtain ⟨m, l, hm, hl, heffect⟩ := exists_effect c htime
  rw [hm]
  cases heffect with
  | @ticked _ tick htick hmode ht =>
    have hsame := (passing_of_tick ht).keeps.runMode
    rw [wraps_ticked htick hmode ht]
    have htick := paced_tick hlater hfin hclock ht
    apply paced_settle htick htime
    · split <;> exact hnow
    · rw [hsame]
      exact hmode
  | failed htick ht =>
    rw [wraps_failed htick ht]
    exact hlater
  | resumed hmode => exact paced_resumed hlater hclock hmode
  | refused hmode =>
    rw [wraps_refused hmode]
    exact hlater
  | viewed => exact hlater

/- Only a file that is too long keeps a job from wrapping when its time has come. -/
theorem wraps_iff (h : Paced s text program duration p c.machine) (hfin : duration.isFinite = true)
    (htick : op.tickTime? = some now) (hnow : now.IsWhole t) (hle : p.clock ≤ t)
    (hb : t ≤ 2 ^ 51) (hmode : c.machine.runMode = .printing) :
    (c.wraps op = true → duration.toRat ≤ (p.sinceWrap + (t - p.clock) : Int)) ∧
      (duration.toRat ≤ (p.sinceWrap + (t - p.clock) : Int) →
        c.wraps op = true ∨ 2 ^ 53 < text.utf8ByteSize) := by
  have hlater := h.elapse hle hb
  rw [hmode, Pace.elapse_printing] at hlater
  cases ht : c.machine.tick now c.observer with
  | error fault =>
    rw [wraps_failed htick ht]
    refine ⟨fun hw => by contradiction, fun _ => Or.inr ?_⟩
    by_contra hsmall
    have hsize : c.machine.job.fileSize ≤ 2 ^ 53 := by
      rw [h.installed.size]
      omega
    obtain ⟨tick, hok⟩ := h.installed.tick_ok now c.observer hsize
    rw [hok] at ht
    contradiction
  | ok tick =>
    rw [wraps_ticked htick (hmode ▸ admits_printing htick) ht]
    have hiff := hlater.wrapped_iff hfin hmode hnow ht
    exact ⟨hiff.1, fun hd => Or.inl (hiff.2 hd)⟩

theorem wraps_held (h : Paced s text program duration p c.machine)
    (hmode : c.machine.runMode ≠ .printing) : c.wraps op = false := by
  cases htick : op.tickTime? with
  | none => simp only [wraps, htick]
  | some now =>
    rw [wraps, htick]
    simp only [tick_held h.active hmode, Except.toOption, Option.any_some, Bool.and_false]

theorem not_wraps_of_lt (h : Paced s text program duration p c.machine)
    (hfin : duration.isFinite = true) (htime : op.time? = some now) (hnow : now.IsWhole p.clock)
    (hlt : (p.sinceWrap : ℚ) < duration.toRat) : c.wraps op = false := by
  by_cases hmode : c.machine.runMode = .printing
  · cases htick : op.tickTime? with
    | none => simp only [wraps, htick]
    | some time =>
      have hsame := time_of_tickTime htick
      rw [htime] at hsame
      cases hsame
      have hwrap := (wraps_iff h hfin htick hnow le_rfl h.clock_le hmode).1
      rw [Int.sub_self, Int.add_zero] at hwrap
      cases hw : c.wraps op with
      | false => rfl
      | true => exact absurd (hwrap hw) (not_le.2 hlt)
  · exact wraps_held h hmode

/-! ### Runs on a whole clock -/

theorem paced_run {ops : List Operation} (hops : Clocked p.clock ops)
    (h : Paced s text program duration p c.machine) (hfin : duration.isFinite = true) :
    Paced s text program duration (c.pace p ops) (c.run ops).machine := by
  induction ops generalizing c p with
  | nil => exact h
  | cons op ops ih =>
    cases hops with
    | @cons _ t _ _ now htime hnow hle hb hops =>
      have hnext := paced_next h hfin htime hnow hle hb
      have hclock : (c.advance p op).clock = t := by
        rw [advance, instant_eq htime hnow]
        split <;> rfl
      exact ih (hclock ▸ hops) hnext

theorem loops_run {clock : Int} {ops : List Operation} (hops : Clocked clock ops)
    (hlow : -2 ^ 51 ≤ clock) (hobserver : c.observer ≠ .absent)
    (hboot : c.machine.bootedAt ≠ infinity true) :
    (c.run ops).machine.job.loops = c.machine.job.loops + (c.published ops).length := by
  induction hops generalizing c with
  | nil => rfl
  | @cons clock t op ops now htime hnow hle hb hops ih =>
    have hrest := ih (c := c.next op) (by omega) hobserver (by rw [bootedAt_next htime]; exact hboot)
    have hfirst := published_length htime hobserver hnow (by omega) hboot
    rw [run_cons, hrest, loops_next htime, published, List.length_append, hfirst, Nat.add_assoc]

/- At one instant the first wrap leaves no time spent printing for a second. -/
theorem loops_instant_of_lt {ops : List Operation} (hops : Clocked p.clock ops)
    (hall : ∀ op ∈ ops, op.instant = p.clock) (h : Paced s text program duration p c.machine)
    (hfin : duration.isFinite = true) (hlt : (p.sinceWrap : ℚ) < duration.toRat) :
    (c.run ops).machine.job.loops = c.machine.job.loops := by
  induction ops generalizing c p with
  | nil => rfl
  | cons op ops ih =>
    cases hops with
    | @cons _ t _ _ now htime hnow hle hb hops =>
      have hsame := hall op List.mem_cons_self
      rw [instant_eq htime hnow] at hsame
      subst hsame
      have hnot := not_wraps_of_lt h hfin htime hnow hlt
      have hadvance : c.advance p op = p := by
        rw [advance, hnot, instant_eq htime hnow]
        simp [Pace.elapse]
      have hnext := paced_next h hfin htime hnow le_rfl hb
      rw [hadvance] at hnext
      have hrest := ih hops (fun op hop => hall op (List.mem_cons_of_mem _ hop)) hnext hlt
      rw [run_cons, hrest, loops_next htime, hnot]
      rfl

theorem loops_instant {ops : List Operation} (hops : Clocked p.clock ops)
    (hall : ∀ op ∈ ops, op.instant = t) (h : Paced s text program duration p c.machine)
    (hfin : duration.isFinite = true) (hpos : 0 < duration.toRat) :
    (c.run ops).machine.job.loops ≤ c.machine.job.loops + 1 := by
  induction ops generalizing c p with
  | nil => exact Nat.le_succ _
  | cons op ops ih =>
    cases hops with
    | @cons _ t' _ _ now htime hnow hle hb hops =>
      have hsame := hall op List.mem_cons_self
      rw [instant_eq htime hnow] at hsame
      subst hsame
      have hrest : ∀ op ∈ ops, op.instant = t' := fun op hop => hall op (List.mem_cons_of_mem _ hop)
      have hnext := paced_next h hfin htime hnow hle hb
      have hclock : (c.advance p op).clock = t' := by
        rw [advance, instant_eq htime hnow]
        split <;> rfl
      rw [run_cons]
      have hloops := loops_next htime (c := c)
      cases hw : c.wraps op with
      | false =>
        rw [hw] at hloops
        have hle := ih (hclock ▸ hops) hrest hnext
        rw [hloops] at hle
        exact hle
      | true =>
        -- From here on the clock stands still, and the duration is positive.
        rw [hw] at hloops
        have hzero : (c.advance p op).sinceWrap = 0 := by
          rw [advance, hw]
          rfl
        have heq := loops_instant_of_lt (hclock ▸ hops) (hclock ▸ hrest) hnext hfin
          (by rw [hzero]; exact_mod_cast hpos)
        rw [heq, hloops]
        rfl

/-! ### The run of a started job -/

theorem paced_start (name : Option String) {given : Option Binary64}
    (hp : Program.ofText text = .ok program)
    (hd : c.effectiveDuration program given = .ok duration) (hs : now.IsWhole s)
    (hb : s.natAbs ≤ 2 ^ 51) :
    Paced s text program duration { clock := s } (c.next (.start name text now given)).machine := by
  rw [next_installed name hp hd]
  refine ⟨⟨hp, rfl, rfl, rfl⟩, rfl, fun hm => by contradiction, ?_, ?_, ?_, le_rfl, ?_,
    fun hm => by contradiction, ?_⟩
  · omega
  · show s ≤ s - 0
    omega
  · show s ≤ 2 ^ 51
    omega
  · intro _
    refine ⟨now, rfl, ?_⟩
    show now.IsWhole (s - 0)
    rwa [Int.sub_zero]
  · show ((0 : Nat) : ℚ) * duration.toRat + ((0 : Int) : ℚ) ≤ ((0 : Int) : ℚ)
    simp

/-- On a whole clock the wraps of a started job use up no more than the time spent printing. A
command told the time while the job prints wraps it when the duration has been spent since the last
wrap, and not before; a wrap counts once, at one instant there is one at most, and the observer is
shown each, unless the machine was booted before all time. Only a file of more than `2^53` bytes can
miss a wrap. -/
theorem run_paced (c : Controller) (name : Option String) {given : Option Binary64}
    {ops : List Operation} (hp : Program.ofText text = .ok program)
    (hd : c.effectiveDuration program given = .ok duration) (hfin : duration.isFinite = true)
    (hs : now.IsWhole s) (hb : s.natAbs ≤ 2 ^ 51) (hops : Clocked s ops) :
    let started := c.next (.start name text now given)
    let reached := started.run ops
    let p := started.pace { clock := s } ops
    let loops := reached.machine.job.loops
    (loops : ℚ) * duration.toRat ≤ p.active ∧
      (∀ op time t, op.tickTime? = some time → time.IsWhole t → p.clock ≤ t → t ≤ 2 ^ 51 →
        reached.machine.runMode = .printing →
          (reached.wraps op = true → duration.toRat ≤ (p.sinceWrap + (t - p.clock) : Int)) ∧
          (duration.toRat ≤ (p.sinceWrap + (t - p.clock) : Int) →
            reached.wraps op = true ∨ 2 ^ 53 < text.utf8ByteSize)) ∧
      (∀ op time, op.time? = some time →
        (reached.next op).machine.job.loops = loops + if reached.wraps op then 1 else 0) ∧
      (∀ t later, Clocked p.clock later → (∀ op ∈ later, op.instant = t) →
        (reached.run later).machine.job.loops ≤ loops + 1) ∧
      (c.observer ≠ .absent → c.machine.bootedAt ≠ infinity true →
        (started.published ops).length = loops) := by
  intro started reached p loops
  have hstart := paced_start (c := c) name hp hd hs hb
  have hpaced : Paced s text program duration p reached.machine := paced_run hops hstart hfin
  have hpos : 0 < duration.toRat := by
    rcases effectiveDuration_pos hd with hnan | hpos
    · rw [hnan] at hfin
      contradiction
    · exact toRat_pos hfin hpos
  refine ⟨?_, ?_, ?_, ?_, ?_⟩
  · have hloops := hpaced.loops
    have hsince : (0 : ℚ) ≤ p.sinceWrap := by exact_mod_cast hpaced.since_nonneg
    linarith
  · intro op time t htick hwhole hle htop hmode
    exact wraps_iff hpaced hfin htick hwhole hle htop hmode
  · intro op time htime
    exact loops_next htime
  · intro t later hlater hall
    exact loops_instant hlater hall hpaced hfin hpos
  · intro hobserver hboot
    have hmachine : started.machine = c.install name text program now duration :=
      next_installed name hp hd
    have hobserved : started.observer ≠ .absent := by
      simp only [started, next_observer]
      exact hobserver
    have hcount := loops_run hops (c := started) (by omega) hobserved
      (by rw [hmachine]; exact hboot)
    have hzero : started.machine.job.loops = 0 := by
      rw [hmachine]
      rfl
    rw [hzero, Nat.zero_add] at hcount
    exact hcount.symm

/- A job of one second with three points on its path wraps at the first of two calls half a second
late, is paused half-way through its second run, and goes on. -/
theorem run_paced_second :
    let c := boot 0 (some 600) .accepting
    let text := "G1 X0 Y0\nG1 X10 E1\nG1 X20 E2\nG1 X30 E3"
    let ops : List Operation := [.tick 1500, .status 1500, .pause 2000, .resume 3000, .tick 3200]
    let started := c.next (.start (some "a") text 0 (some 1000))
    ∃ program, Program.ofText text = .ok program ∧ 2 < program.endpoints.length ∧
      c.effectiveDuration program (some 1000) = .ok 1000 ∧ Clocked 0 ops ∧
      (started.run ops).machine.job.loops = 1 ∧
      0 < (started.run ops).machine.job.filePosition ∧
      (started.run ops).machine.job.loops * (1000 : Binary64).toRat ≤
        (started.pace { clock := 0 } ops).active ∧
      (started.published ops).length = (started.run ops).machine.job.loops := by
  intro c text ops started
  have hle : Binary64.le 1000 0 = false := by decide +kernel
  have hfin : (1000 : Binary64).isFinite = true := by decide +kernel
  have hlate : (1500 : Binary64).IsWhole 1500 := isWhole_ofNat (n := 1500) (by omega)
  have hops : Clocked 0 ops :=
    .cons rfl hlate (by omega) (by omega)
      (.cons rfl hlate le_rfl (by omega)
        (.cons rfl (isWhole_ofNat (n := 2000) (by omega)) (by omega) (by omega)
          (.cons rfl (isWhole_ofNat (n := 3000) (by omega)) (by omega) (by omega)
            (.cons rfl (isWhole_ofNat (n := 3200) (by omega)) (by omega) (by omega) .nil))))
  have hfacts : (Program.ofText text).toOption.any (2 < ·.endpoints.length) = true ∧
      (started.run ops).machine.job.loops = 1 ∧
      0 < (started.run ops).machine.job.filePosition := by
    decide +kernel
  obtain ⟨hlong, hloops, hposition⟩ := hfacts
  have hstarted : c.next (.start (some "a") text 0 (some 1000)) = started := rfl
  have hobserver : c.observer ≠ .absent := nofun
  have hboot : c.machine.bootedAt ≠ infinity true := by decide +kernel
  clear_value started
  cases hp : Program.ofText text with
  | error fault =>
    rw [hp] at hlong
    exact absurd hlong Bool.false_ne_true
  | ok program =>
    rw [hp] at hlong
    have hd := effectiveDuration_given (c := c) program hle
    have hs : (0 : Binary64).IsWhole 0 := isWhole_ofNat (n := 0) (by omega)
    obtain ⟨hactive, -, -, -, hshown⟩ := run_paced c (some "a") hp hd hfin hs (by omega) hops
    rw [hstarted] at hactive hshown
    exact ⟨program, rfl, of_decide_eq_true hlong, hd, hops, hloops, hposition, hactive,
      hshown hobserver hboot⟩

end Controller

end VirtualPrinter
