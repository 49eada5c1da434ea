import VirtualPrinter.Proofs.Binary64.Monotone
import VirtualPrinter.Proofs.Machine.Completion
import VirtualPrinter.Proofs.Machine.Pacing

/-!
# Progress never goes back

While a job is only told the time, later and later, and does not wrap, it shows the progress of the
elapsed time and of nothing else. Each step from the elapsed time to the place in the file keeps the
order of its arguments, rounded as it is, so that what is shown never decreases.
-/

namespace VirtualPrinter

open Binary64

attribute [local irreducible] Binary64.ofNat Binary64.ofRatio

/-! ### Progress as a function of the fraction -/

theorem wholeStep_ok {x : Binary64} {k : Int} (h : wholeStep x = .ok k) : x.floor = .ok k := by
  unfold wholeStep at h
  cases hx : x.floor with
  | error fault =>
    rw [hx] at h
    contradiction
  | ok j =>
    rw [hx] at h
    cases h
    rfl

namespace Program

variable {p : Program} {size : Nat} {t u : Binary64} {g h : Progress}

theorem endpointAt_inv {index : Int} {head : Point} (h : p.endpointAt index = .ok head) :
    ∃ i : Nat, index = i ∧ p.endpoints[i]? = some head := by
  cases index with
  | negSucc n => contradiction
  | ofNat i =>
    refine ⟨i, rfl, ?_⟩
    change p.endpoints[i]?.elim _ _ = _ at h
    cases hi : p.endpoints[i]? with
    | none =>
      rw [hi] at h
      contradiction
    | some point =>
      rw [hi] at h
      cases h
      rfl

/- What a computed progress is made of, on a path and without one. -/
theorem progress_path_inv (hlong : 1 < p.endpoints.length) (hg : p.progress size t = .ok g) :
    ∃ i : Nat, pathIndex (p.endpoints.length - 1) t = .ok (i : Int) ∧
      p.endpoints[i]? = some g.head ∧
      g.completion = ofRatio false i (p.endpoints.length - 1) ∧
      wholeStep (g.completion * .ofNat size) = .ok g.filePosition := by
  unfold progress at hg
  rw [if_pos hlong] at hg
  dsimp only at hg
  cases hindex : pathIndex (p.endpoints.length - 1) t with
  | error fault =>
    rw [hindex] at hg
    contradiction
  | ok index =>
    rw [hindex, ok_bind] at hg
    cases hhead : p.endpointAt index with
    | error fault =>
      rw [hhead] at hg
      contradiction
    | ok head =>
      rw [hhead, ok_bind] at hg
      obtain ⟨i, rfl, hi⟩ := endpointAt_inv hhead
      rw [Int.toNat_natCast] at hg
      cases hpos : wholeStep (ofRatio false i (p.endpoints.length - 1) * .ofNat size) with
      | error fault =>
        rw [hpos] at hg
        contradiction
      | ok position =>
        rw [hpos, ok_bind] at hg
        obtain rfl : ⟨head, ofRatio false i (p.endpoints.length - 1), position⟩ = g :=
          Except.ok.inj hg
        exact ⟨i, rfl, hi, rfl, hpos⟩

theorem progress_timed_inv (hshort : ¬ 1 < p.endpoints.length) (hg : p.progress size t = .ok g) :
    g.head = parked p.layers.low ∧ g.completion = t ∧
      wholeStep (t * .ofNat size) = .ok g.filePosition := by
  unfold progress at hg
  rw [if_neg hshort] at hg
  cases hpos : wholeStep (t * .ofNat size) with
  | error fault =>
    rw [hpos] at hg
    contradiction
  | ok position =>
    rw [hpos] at hg
    cases hg
    exact ⟨rfl, rfl, rfl⟩

theorem pathIndex_mono {last : Nat} {i j : Int} (ht : InUnit t) (hu : InUnit u)
    (htu : t.le u = true) (hi : pathIndex last t = .ok i) (hj : pathIndex last u = .ok j) : i ≤ j :=
  floor_mul_mono ht hu htu (wholeStep_ok hi) (wholeStep_ok hj)

theorem progress_mono (ht : InUnit t) (hu : InUnit u) (htu : t.le u = true)
    (hg : p.progress size t = .ok g) (hh : p.progress size u = .ok h) :
    g.completion.le h.completion = true ∧ g.filePosition ≤ h.filePosition := by
  by_cases hlong : 1 < p.endpoints.length
  · obtain ⟨i, hi, hihead, hgc, hgp⟩ := progress_path_inv hlong hg
    obtain ⟨j, hj, hjhead, hhc, hhp⟩ := progress_path_inv hlong hh
    have hij : i ≤ j := by exact_mod_cast pathIndex_mono ht hu htu hi hj
    have hjlt := List.getElem?_eq_some_iff.1 hjhead |>.1
    have hle : g.completion.le h.completion = true := by
      rw [hgc, hhc]
      exact ofRatio_mono (by omega) hij
    refine ⟨hle, floor_mul_mono ?_ ?_ hle (wholeStep_ok hgp) (wholeStep_ok hhp)⟩
    · rw [hgc]
      exact ofRatio_inUnit (by omega) (by omega)
    · rw [hhc]
      exact ofRatio_inUnit (by omega) (by omega)
  · obtain ⟨_, hgc, hgp⟩ := progress_timed_inv hlong hg
    obtain ⟨_, hhc, hhp⟩ := progress_timed_inv hlong hh
    rw [hgc, hhc]
    exact ⟨htu, floor_mul_mono ht hu htu (wholeStep_ok hgp) (wholeStep_ok hhp)⟩

/-- The index on the path after a fraction of the run. -/
def indexAt (p : Program) (t : Binary64) : Nat :=
  match pathIndex (p.endpoints.length - 1) t with
  | .ok i => i.toNat
  | .error _ => 0

theorem indexAt_eq {i : Nat} (hi : pathIndex (p.endpoints.length - 1) t = .ok (i : Int)) :
    p.indexAt t = i := by
  unfold indexAt
  rw [hi]
  exact Int.toNat_natCast i

theorem indexAt_head (hlong : 1 < p.endpoints.length) (hg : p.progress size t = .ok g) :
    p.endpoints[p.indexAt t]? = some g.head := by
  obtain ⟨i, hi, hhead, _⟩ := progress_path_inv hlong hg
  rw [indexAt_eq hi, hhead]

theorem indexAt_mono (hlong : 1 < p.endpoints.length) (ht : InUnit t) (hu : InUnit u)
    (htu : t.le u = true) (hg : p.progress size t = .ok g) (hh : p.progress size u = .ok h) :
    p.indexAt t ≤ p.indexAt u := by
  obtain ⟨i, hi, _⟩ := progress_path_inv hlong hg
  obtain ⟨j, hj, _⟩ := progress_path_inv hlong hh
  rw [indexAt_eq hi, indexAt_eq hj]
  exact_mod_cast pathIndex_mono ht hu htu hi hj

theorem indexAt_lt (hlong : 1 < p.endpoints.length) (hpath : p.endpoints.length ≤ 2 ^ 53 + 1)
    (ht : BelowOne t) : p.indexAt t < p.endpoints.length - 1 := by
  obtain ⟨i, hi, _, hlt⟩ := wholeStep_mul (n := p.endpoints.length - 1) ht.inUnit (by omega)
  rw [indexAt_eq hi]
  exact hlt ht (by omega)

end Program

namespace Machine

theorem elapsedFraction_mono {x y duration : Binary64} (hpos : Binary64.lt 0 duration = true)
    (hfin : duration.isFinite = true) (h : x.le y = true) :
    (elapsedFraction x duration).le (elapsedFraction y duration) = true := by
  rw [elapsedFraction, elapsedFraction, if_pos hpos, if_pos hpos]
  exact clampToUnit_mono (div_mono hfin hpos h)

/-- What a machine shows of the progress of its job. -/
def shown (m : Machine) : Progress := ⟨m.head, m.job.completion, m.job.filePosition⟩

/- A machine that has been printing a program since a time, for a duration. -/
structure Prints (m : Machine) (program : Program) (startedAt duration : Binary64) : Prop where
  program_eq : m.program = some program
  mode : m.runMode = .printing
  startedAt_eq : m.job.startedAt = some startedAt
  duration_eq : m.job.duration = some duration

variable {m : Machine} {now startedAt duration : Binary64} {observer : Observer} {program : Program}

theorem Prints.showing (h : Prints m program startedAt duration) (g : Progress) :
    Prints (m.showing g) program startedAt duration :=
  ⟨h.program_eq, h.mode, h.startedAt_eq, h.duration_eq⟩

theorem Prints.tick_ok (h : Prints m program startedAt duration) (now : Binary64)
    (observer : Observer) (hfits : m.Fits) : ∃ t, m.tick now observer = .ok t :=
  Machine.tick_ok now observer (by rw [h.duration_eq]; rfl) hfits

/- A tick that does not wrap shows the progress of the elapsed time and changes nothing else. -/
theorem Prints.early {t : Tick} (h : Prints m program startedAt duration)
    (ht : m.tick now observer = .ok t) (hw : t.wrapped = false) :
    ∃ g, t.machine = m.showing g ∧ (now - startedAt).lt duration = true ∧
      program.progress m.job.fileSize (elapsedFraction (now - startedAt) duration) = .ok g := by
  cases passing_of_tick ht with
  | idle hmode =>
    rw [h.mode] at hmode
    contradiction
  | early hmode hp hs hd hg hlt =>
    rw [h.program_eq, Option.some.injEq] at hp
    rw [h.startedAt_eq, Option.some.injEq] at hs
    rw [h.duration_eq, Option.some.injEq] at hd
    subst hp hs hd
    exact ⟨_, rfl, hlt, hg⟩
  | late hmode hp hs hd hg hlt =>
    rw [wrap_eq] at hw
    contradiction
  | held hidle hjob =>
    rcases hjob h.mode with hnone | hnone
    · rw [h.startedAt_eq] at hnone
      contradiction
    · rw [h.program_eq] at hnone
      contradiction

end Machine

def Snapshot.shown (s : Snapshot) : Progress := ⟨s.head, s.completion, s.filePosition⟩

theorem Machine.snapshot_shown {m : Machine} {now : Binary64} {s : Snapshot}
    (h : m.snapshot now = .ok s) : s.shown = m.shown := by
  rw [snapshot_eq h]
  rfl

namespace Controller

open Machine

variable {c : Controller} {op : Operation} {ops : List Operation} {now startedAt duration : Binary64}
  {text : String} {program : Program}

/-! ### Runs that only tell the time -/

/-- The time of a tick or of a status query. -/
def Operation.pollTime? : Operation → Option Binary64
  | .tick now | .status now => some now
  | _ => none

def pollTimes (ops : List Operation) : List Binary64 := ops.filterMap Operation.pollTime?

/-- Ticks and status queries at finite times that do not go back. -/
structure Polls (ops : List Operation) : Prop where
  polls : ∀ op ∈ ops, op.pollTime?.isSome = true
  finite : ∀ t ∈ pollTimes ops, t.isFinite = true
  ordered : (pollTimes ops).Pairwise fun t u => t.le u = true

/-- Whether no command of a run wraps the job. -/
def neverWraps (c : Controller) : List Operation → Bool
  | [] => true
  | op :: ops => !c.wraps op && (c.next op).neverWraps ops

/-- What is shown after each command of a run. -/
def shown (c : Controller) : List Operation → List Progress
  | [] => []
  | op :: ops => (c.next op).machine.shown :: (c.next op).shown ops

theorem poll_next {t : Tick} (hop : op.pollTime? = some now)
    (ht : c.machine.tick now c.observer = .ok t) :
    (c.next op).machine = t.machine ∧ c.wraps op = t.wrapped := by
  cases op with
  | tick time =>
    cases hop
    refine ⟨?_, wraps_ticked rfl rfl ht⟩
    simp only [next, perform, tick, afterTick_ok _ ht, Outcome.map]
  | status time =>
    cases hop
    refine ⟨?_, wraps_ticked rfl rfl ht⟩
    simp only [next, perform, status, afterTick_ok _ ht, Outcome.map]
  | _ => contradiction

/- What is shown is a function of the times, for nothing that a tick reads has changed. -/
theorem shown_eq (h : Prints c.machine program startedAt duration) (hfits : c.machine.Fits)
    (hpolls : ∀ op ∈ ops, op.pollTime?.isSome = true)
    (hwraps : c.neverWraps ops = true) :
    (c.shown ops).map Except.ok =
        ((pollTimes ops).map fun t =>
          program.progress c.machine.job.fileSize (elapsedFraction (t - startedAt) duration)) ∧
      ∀ t ∈ pollTimes ops, (t - startedAt).lt duration = true := by
  induction ops generalizing c with
  | nil => exact ⟨rfl, fun t ht => absurd ht List.not_mem_nil⟩
  | cons op ops ih =>
    obtain ⟨now, hop⟩ := Option.isSome_iff_exists.1 (hpolls op List.mem_cons_self)
    obtain ⟨hw, hrest⟩ := Bool.and_eq_true_iff.1 hwraps
    obtain ⟨t, ht⟩ := h.tick_ok now c.observer hfits
    obtain ⟨hnext, hwrapped⟩ := poll_next hop ht
    obtain ⟨g, hm, hlt, hg⟩ := h.early ht (by rw [← hwrapped]; exact Bool.not_eq_true' _ ▸ hw)
    rw [hm] at hnext
    have hfits' : (c.next op).machine.Fits := hnext ▸ ⟨hfits.path, hfits.size⟩
    obtain ⟨hshown, hall⟩ := ih (c := c.next op) (hnext ▸ h.showing g) hfits'
      (fun other hother => hpolls other (List.mem_cons_of_mem _ hother)) hrest
    have htimes : pollTimes (op :: ops) = now :: pollTimes ops := List.filterMap_cons_some hop
    rw [htimes]
    refine ⟨?_, ?_⟩
    · rw [shown, List.map_cons, List.map_cons, hshown, hnext, hg]
      rfl
    · intro u hu
      rcases List.mem_cons.1 hu with rfl | hu
      · exact hlt
      · exact hall u hu

section Polling

variable (h : Prints c.machine program startedAt duration) (hfits : c.machine.Fits)
  (hd : duration = nan ∨ Binary64.lt 0 duration = true) (hne : duration ≠ infinity false)
  (hpolls : Polls ops) (hwraps : c.neverWraps ops = true)

include h hfits hd hne hpolls hwraps

/- A call that does not wrap has an elapsed time below the duration, so neither of them is an
infinity beyond it or no number. -/
theorem duration_of_poll {t : Binary64} (ht : t ∈ pollTimes ops) :
    Binary64.lt 0 duration = true ∧ duration.isFinite = true ∧ startedAt ≠ nan := by
  have hlt := (shown_eq h hfits hpolls.polls hwraps).2 t ht
  rcases hd with rfl | hpos
  · rw [lt_nan] at hlt
    contradiction
  · refine ⟨hpos, isFinite_of_pos hpos hne, ?_⟩
    rintro rfl
    rw [sub_nan, nan_lt] at hlt
    contradiction

theorem fraction_mono {t u : Binary64} (ht : t ∈ pollTimes ops) (hu : u ∈ pollTimes ops)
    (htu : t.le u = true) :
    (elapsedFraction (t - startedAt) duration).le
      (elapsedFraction (u - startedAt) duration) = true := by
  obtain ⟨hpos, hfin, hstart⟩ := duration_of_poll h hfits hd hne hpolls hwraps ht
  apply elapsedFraction_mono hpos hfin
  exact sub_mono (hpolls.finite t ht) (hpolls.finite u hu) hstart htu

theorem shown_nondecreasing :
    (c.shown ops).Pairwise fun g h =>
      g.completion.le h.completion = true ∧ g.filePosition ≤ h.filePosition := by
  have heq := (shown_eq h hfits hpolls.polls hwraps).1
  have hpair : ((pollTimes ops).map fun t => program.progress c.machine.job.fileSize
      (elapsedFraction (t - startedAt) duration)).Pairwise fun a b => ∀ g h, a = .ok g → b = .ok h →
        g.completion.le h.completion = true ∧ g.filePosition ≤ h.filePosition := by
    apply List.pairwise_map.2
    apply hpolls.ordered.imp_of_mem
    intro t u ht hu htu g k hg hk
    exact Program.progress_mono (elapsedFraction_inUnit _ _) (elapsedFraction_inUnit _ _)
      (fraction_mono h hfits hd hne hpolls hwraps ht hu htu) hg hk
  rw [← heq, List.pairwise_map] at hpair
  exact hpair.imp fun hgk => hgk _ _ rfl rfl

theorem heads_forward (hlong : 1 < program.endpoints.length) :
    ∃ indices : List Nat, indices.Pairwise (· ≤ ·) ∧
      (∀ i ∈ indices, i ≤ program.endpoints.length - 2) ∧
      (c.shown ops).map (fun g => some g.head) = indices.map fun i => program.endpoints[i]? := by
  obtain ⟨heq, hlt⟩ := shown_eq h hfits hpolls.polls hwraps
  have hok : ∀ t ∈ pollTimes ops, ∃ g, program.progress c.machine.job.fileSize
      (elapsedFraction (t - startedAt) duration) = .ok g := by
    intro t ht
    have hmem := List.mem_map_of_mem (f := fun t => program.progress c.machine.job.fileSize
      (elapsedFraction (t - startedAt) duration)) ht
    rw [← heq] at hmem
    obtain ⟨g, _, hg⟩ := List.mem_map.1 hmem
    exact ⟨g, hg.symm⟩
  refine ⟨(pollTimes ops).map fun t => program.indexAt (elapsedFraction (t - startedAt) duration),
    ?_, ?_, ?_⟩
  · apply List.pairwise_map.2
    apply hpolls.ordered.imp_of_mem
    intro t u ht hu htu
    obtain ⟨g, hg⟩ := hok t ht
    obtain ⟨k, hk⟩ := hok u hu
    exact Program.indexAt_mono hlong (elapsedFraction_inUnit _ _) (elapsedFraction_inUnit _ _)
      (fraction_mono h hfits hd hne hpolls hwraps ht hu htu) hg hk
  · intro i hi
    obtain ⟨t, ht, rfl⟩ := List.mem_map.1 hi
    obtain ⟨hpos, hfin, _⟩ := duration_of_poll h hfits hd hne hpolls hwraps ht
    have hpath := hfits.path program h.program_eq
    have hbelow := Program.indexAt_lt hlong (by omega) (elapsedFraction_belowOne (hlt t ht) hpos hfin)
    omega
  · calc (c.shown ops).map (fun g => some g.head)
        = ((c.shown ops).map Except.ok).map fun e : Except MachineFault Progress =>
            e.toOption.map (·.head) := by
          rw [List.map_map]
          rfl
      _ = (pollTimes ops).map fun t => program.endpoints[program.indexAt
            (elapsedFraction (t - startedAt) duration)]? := by
          rw [heq, List.map_map]
          apply List.map_congr_left
          intro t ht
          obtain ⟨g, hg⟩ := hok t ht
          rw [Function.comp_apply, hg, Program.indexAt_head hlong hg]
          rfl
      _ = _ := by
          rw [List.map_map]
          rfl

end Polling

theorem prints_start (name : Option String) (startedAt : Binary64) {given : Option Binary64}
    (hp : Program.ofText text = .ok program)
    (hd : c.effectiveDuration program given = .ok duration) :
    Prints (c.next (.start name text startedAt given)).machine program startedAt duration ∧
      Installed (c.next (.start name text startedAt given)).machine text program := by
  rw [next_installed name hp hd]
  exact ⟨⟨rfl, rfl, rfl, rfl⟩, hp, rfl, rfl, rfl⟩

theorem shown_of_view {s : Snapshot} (h : (c.perform op).answer = .ok (.view s)) :
    s.shown = (c.next op).machine.shown := by
  obtain ⟨now, hs⟩ := view_of_perform h
  exact snapshot_shown hs

/-- While a started job is told times that do not go back and does not wrap, completion and file
position never decrease, and the head moves forward along the endpoints and does not reach the last
one. What a status query reports is what is shown then. -/
theorem polls_nondecreasing (c : Controller) (name : Option String) {given : Option Binary64}
    (hsize : text.utf8ByteSize < 2 ^ 53) (hp : Program.ofText text = .ok program)
    (hd : c.effectiveDuration program given = .ok duration) (hne : duration ≠ infinity false)
    (hpolls : Polls ops)
    (hwraps : (c.next (.start name text startedAt given)).neverWraps ops = true) :
    let started := c.next (.start name text startedAt given)
    (started.shown ops).Pairwise (fun g h =>
        g.completion.le h.completion = true ∧ g.filePosition ≤ h.filePosition) ∧
      (1 < program.endpoints.length → ∃ indices : List Nat, indices.Pairwise (· ≤ ·) ∧
        (∀ i ∈ indices, i ≤ program.endpoints.length - 2) ∧
        (started.shown ops).map (fun g => some g.head) =
          indices.map fun i => program.endpoints[i]?) ∧
      ∀ earlier op later s, ops = earlier ++ op :: later →
        ((started.run earlier).perform op).answer = .ok (.view s) →
          s.shown = (started.run (earlier ++ [op])).machine.shown := by
  intro started
  obtain ⟨hprints, hinstalled⟩ := prints_start (c := c) name startedAt hp hd
  have hfits : started.machine.Fits := hinstalled.fits_iff.2 (hinstalled.size ▸ hsize.le)
  have hpos := effectiveDuration_pos hd
  refine ⟨shown_nondecreasing hprints hfits hpos hne hpolls hwraps,
    heads_forward hprints hfits hpos hne hpolls hwraps, ?_⟩
  intro earlier op later s _ hs
  rw [run_append]
  exact shown_of_view hs

/- A path of three points, asked about before its start, twice at one time, and late. -/
theorem polls_nondecreasing_second :
    let c := boot 0 (some 600) .absent
    let text := "G1 X0 Y0\nG1 X10 E1\nG1 X20 E2\nG1 X30 E3"
    let ops : List Operation := [.tick (-500), .status 400, .tick 400, .status 900]
    let started := c.next (.start (some "a") text 0 (some 1000))
    ∃ program, text.utf8ByteSize < 2 ^ 53 ∧ Program.ofText text = .ok program ∧
      c.effectiveDuration program (some 1000) = .ok 1000 ∧ (1000 : Binary64) ≠ infinity false ∧
      Polls ops ∧ started.neverWraps ops = true ∧ 1 < program.endpoints.length ∧
      (started.shown ops).Pairwise (fun g h =>
        g.completion.le h.completion = true ∧ g.filePosition ≤ h.filePosition) := by
  intro c text ops started
  have hsize : text.utf8ByteSize < 2 ^ 53 := by decide
  have hle : Binary64.le 1000 0 = false := by decide +kernel
  have hne : (1000 : Binary64) ≠ infinity false := by decide +kernel
  have hpolls : Polls ops :=
    { polls := by decide
      finite := by decide +kernel
      ordered := by decide +kernel }
  have hfacts : started.neverWraps ops = true ∧
      (Program.ofText text).toOption.any (1 < ·.endpoints.length) = true := by
    decide +kernel
  obtain ⟨hwraps, hlong⟩ := hfacts
  cases hp : Program.ofText text with
  | error fault =>
    rw [hp] at hlong
    exact absurd hlong Bool.false_ne_true
  | ok program =>
    rw [hp] at hlong
    have hd := effectiveDuration_given (c := c) program hle
    exact ⟨program, hsize, rfl, hd, hne, hpolls, hwraps, of_decide_eq_true hlong,
      (polls_nondecreasing c (some "a") hsize hp hd hne hpolls hwraps).1⟩

end Controller

end VirtualPrinter
