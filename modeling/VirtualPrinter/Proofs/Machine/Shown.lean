import VirtualPrinter.Proofs.Machine.Head
import VirtualPrinter.Proofs.Machine.Range
import VirtualPrinter.Proofs.Program.Hull

/-!
# The numbers that are shown

While a job is only asked about, its completion stays between zero and one in every view, however
large the program is. The head is at finite coordinates in every view if the program has no others.
-/

namespace VirtualPrinter

open Binary64

attribute [local irreducible] Binary64.ofNat Binary64.ofRatio

/-! ### Finite numbers -/

namespace Binary64

variable {x y z : Binary64}

theorem InUnit.isFinite (h : InUnit x) : x.isFinite = true := by
  obtain ⟨m, rfl, -⟩ := h
  rfl

theorem isFinite_zero : (0 : Binary64).isFinite = true := zero_belowOne.inUnit.isFinite

theorem ne_nan_of_isFinite (h : x.isFinite = true) : x ≠ nan := by
  rintro rfl
  contradiction

theorem isFinite_between (hx : x.isFinite = true) (hz : z.isFinite = true)
    (hxy : x.le y = true) (hyz : y.le z = true) : y.isFinite = true := by
  cases y with
  | nan => exact absurd rfl (ne_nan_of_le hxy)
  | infinity negative =>
    cases negative with
    | true =>
      rw [eq_lowest_of_le hxy] at hx
      contradiction
    | false =>
      rw [eq_highest_of_le hyz] at hz
      contradiction
  | finite negative m => rfl

end Binary64

namespace Program

variable {p : Program} {q : Point}

theorem Finite.numeric (h : p.Finite) : p.Numeric := fun q hq =>
  ⟨ne_nan_of_isFinite (h q hq).x, ne_nan_of_isFinite (h q hq).y, ne_nan_of_isFinite (h q hq).z⟩

theorem Finite.endAt {v : Binary64} (h : p.Finite) (hv : EndAt (·.z) p.segments v) :
    v.isFinite = true := by
  obtain ⟨s, hs, rfl | rfl⟩ := hv
  · exact (h s.start (mem_points.2 ⟨s, hs, Or.inl rfl⟩)).z
  · exact (h s.stop (mem_points.2 ⟨s, hs, Or.inr rfl⟩)).z

theorem Finite.box_heights (h : p.Finite) :
    p.box.low.z.isFinite = true ∧ p.box.high.z.isFinite = true := by
  by_cases hne : p.segments = []
  · rw [box, points_eq_nil_iff.2 hne]
    exact ⟨isFinite_zero, isFinite_zero⟩
  · have hspans := (box_hugs h.numeric hne).z
    exact ⟨h.endAt hspans.low_attained, h.endAt hspans.high_attained⟩

theorem Finite.layers (h : p.Finite) :
    p.layers.low.isFinite = true ∧ p.layers.high.isFinite = true := by
  by_cases hextrudes : p.Extrudes
  · have hspans := layers_hug h.numeric hextrudes
    exact ⟨h.endAt (endAt_of_printed hspans.low_attained),
      h.endAt (endAt_of_printed hspans.high_attained)⟩
  · rw [layers_of_not_extrudes hextrudes]
    exact h.box_heights

theorem Finite.endpoint (h : p.Finite) (hq : q ∈ p.endpoints) : q.Finite := by
  obtain ⟨s, hs, rfl⟩ := List.mem_map.1 hq
  exact h s.stop (mem_points_of_printed (mem_points.2 ⟨s, hs, Or.inr rfl⟩))

theorem Within.finite (hw : p.Within q) (h : p.Finite) : q.Finite := by
  have hz := isFinite_between h.layers.1 h.layers.2 hw.low hw.high
  rcases hw.place with ⟨hx, hy⟩ | ⟨e, he, hx, hy⟩
  · exact ⟨hx ▸ isFinite_zero, hy ▸ isFinite_zero, hz⟩
  · have hend := h.endpoint he
    exact ⟨hx ▸ hend.x, hy ▸ hend.y, hz⟩

end Program

/-! ### Views -/

namespace Machine

variable {m : Machine} {now : Binary64} {observer : Observer} {t : Tick}

theorem completion_tick (h : InUnit m.job.completion) (ht : m.tick now observer = .ok t) :
    InUnit t.machine.job.completion := by
  cases passing_of_tick ht with
  | idle hmode => exact h
  | early hmode hp hs hd hg hlt =>
    exact Program.completion_inUnit (elapsedFraction_inUnit _ _) hg
  | late hmode hp hs hd hg hlt =>
    rw [wrap_eq]
    exact zero_belowOne.inUnit
  | held hidle hjob => exact h

end Machine

namespace Controller

open Machine

variable {c : Controller} {op : Operation} {ops : List Operation} {now : Binary64} {s : Snapshot}
  {program : Program}

theorem numeric_of_time (hop : op.time? = some now) : op.Numeric := by
  cases op with
  | start name text time given => contradiction
  | _ => trivial

theorem completion_next (h : InUnit c.machine.job.completion) (hop : op.time? = some now) :
    InUnit (c.next op).machine.job.completion := by
  change InUnit (c.perform op).machine.job.completion
  obtain ⟨m, l, hm, hl, heffect⟩ := exists_effect c hop
  rw [hm]
  cases heffect with
  | ticked hop hmode ht =>
    have htick := completion_tick h ht
    cases op <;> exact htick
  | failed hop ht => exact h
  | resumed hmode => exact h
  | refused hmode => exact h
  | viewed => exact h

/- A view is one of a machine that the commands before have left. -/
theorem exists_of_view {P : Machine → Prop} (h : P c.machine)
    (hnext : ∀ d : Controller, ∀ op ∈ ops, P d.machine → P (d.next op).machine)
    (hview : .ok (.view s) ∈ c.answers ops) : ∃ m now, P m ∧ m.snapshot now = .ok s := by
  induction ops generalizing c with
  | nil => contradiction
  | cons op ops ih =>
    have hstep := hnext c op List.mem_cons_self h
    rcases List.mem_cons.1 hview with hanswer | hview
    · obtain ⟨now, hsnapshot⟩ := view_of_perform hanswer.symm
      exact ⟨_, now, hstep, hsnapshot⟩
    · exact ih hstep (fun d other hother => hnext d other (List.mem_cons_of_mem _ hother)) hview

theorem completion_of_view (h : InUnit c.machine.job.completion)
    (hops : ∀ op ∈ ops, op.time?.isSome = true) (hview : .ok (.view s) ∈ c.answers ops) :
    InUnit s.completion := by
  obtain ⟨m, now, hm, hsnapshot⟩ := exists_of_view (P := fun m => InUnit m.job.completion) h
    (fun d op hop hd => completion_next hd (Option.some_get (hops op hop)).symm) hview
  rw [snapshot_eq hsnapshot]
  exact hm

/- Neither the program nor the place of the head within it is lost by the commands. -/
theorem within_of_view (h : Sited c.machine) (hprogram : c.machine.program = some program)
    (hops : ∀ op ∈ ops, op.time?.isSome = true) (hview : .ok (.view s) ∈ c.answers ops) :
    program.Within s.head := by
  let P (m : Machine) := Sited m ∧ m.program = some program
  have hnext : ∀ d : Controller, ∀ op ∈ ops, P d.machine → P (d.next op).machine := by
    rintro d op hop ⟨hsited, hloaded⟩
    obtain ⟨now, htime⟩ := Option.isSome_iff_exists.1 (hops op hop)
    have hsame : SameJob d.machine (d.next op).machine := (effect_of_time htime).sameJob
    exact ⟨sited_next hsited (numeric_of_time htime) (tears_of_time htime),
      hsame.program.trans hloaded⟩
  obtain ⟨m, now, ⟨hsited, hloaded⟩, hsnapshot⟩ := exists_of_view (P := P) ⟨h, hprogram⟩ hnext hview
  rw [snapshot_eq hsnapshot]
  exact (hsited program hloaded).2

end Controller

end VirtualPrinter
