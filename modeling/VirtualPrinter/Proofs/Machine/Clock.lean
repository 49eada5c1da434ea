import VirtualPrinter.Proofs.Binary64.Finite
import VirtualPrinter.Proofs.Binary64.Order
import VirtualPrinter.Proofs.Machine.Run

/-!
# Commands on a whole clock

Commands whose times are whole milliseconds and do not go back. At such times the arithmetic of the
machine is exact: elapsed time is a difference of whole numbers, and the uptime does not overflow.
-/

namespace VirtualPrinter

open Binary64

attribute [local irreducible] Binary64.ofNat Binary64.ofRatio

namespace Machine

variable {m : Machine} {now startedAt duration : Binary64} {t a : Int}

/-! ### Elapsed time -/

theorem elapsed_lt_iff (hnow : now.IsWhole t) (hs : startedAt.IsWhole a)
    (hb : (t - a).natAbs ≤ 2 ^ 53) (hd : duration.isFinite = true) :
    (now - startedAt).lt duration = true ↔ ((t - a : Int) : ℚ) < duration.toRat := by
  have helapsed := hnow.sub hs hb
  rw [lt_iff_toRat helapsed.isFinite hd, helapsed.toRat_eq]

theorem elapsedFraction_zero {x : Binary64} (hx : x.IsWhole 0)
    (hd : Binary64.lt 0 duration = true) : elapsedFraction x duration = 0 := by
  obtain ⟨negative, m, rfl, hunits⟩ := hx.exists_finite
  rw [Int.zero_mul] at hunits
  have hm : m.units = 0 := by
    cases negative with
    | false =>
      rw [signedUnits_false] at hunits
      omega
    | true =>
      rw [signedUnits_true] at hunits
      omega
  rw [elapsedFraction, if_pos hd]
  change (div (finite negative m) duration).clampToUnit = 0
  cases duration with
  | nan => exact absurd hd (by rw [lt_nan]; exact Bool.false_ne_true)
  | infinity sign => exact clampToUnit_zero _ rfl
  | finite sign n =>
    obtain ⟨n', hn', hpos⟩ := exists_of_pos (x := finite sign n) rfl hd
    rw [finite.injEq] at hn'
    obtain ⟨rfl, rfl⟩ := hn'
    obtain ⟨k, hk, hzero⟩ := nearest_exact (negative != false) hpos (precise_of_le (Nat.zero_le _))
      overflowUnits_pos
    rw [Nat.zero_mul] at hk
    rw [div, if_neg hpos.ne', hm, Nat.zero_mul, hk]
    exact clampToUnit_zero _ hzero

/- Nothing but the whole number of the elapsed time counts, the sign of a zero least of all. -/
theorem elapsedFraction_congr {x y : Binary64} (hx : x.IsWhole a) (hy : y.IsWhole a)
    (duration : Binary64) : elapsedFraction x duration = elapsedFraction y duration := by
  by_cases ha : a = 0
  · subst ha
    by_cases hd : Binary64.lt 0 duration = true
    · rw [elapsedFraction_zero hx hd, elapsedFraction_zero hy hd]
    · rw [elapsedFraction, elapsedFraction, if_neg hd, if_neg hd]
  · rw [hx.eq_of_ne_zero hy ha]

theorem lt_congr {x y : Binary64} (hx : x.IsWhole a) (hy : y.IsWhole a) (duration : Binary64) :
    x.lt duration = y.lt duration := by
  unfold lt
  rw [hx.place?_eq, hy.place?_eq]

/-! ### Uptime -/

theorem exists_thousand : ∃ n, (1000 : Binary64) = finite false n ∧ unitsPerOne ≤ n.units := by
  obtain ⟨n, hn, hunits⟩ := exists_ofNat (n := 1000) (by omega)
  exact ⟨n, hn, by omega⟩

theorem wholeQuotient_larger_ok {x : Binary64} (h : x ≠ infinity false) :
    ∃ k, (larger 0 x).wholeQuotient 1000 = .ok k := by
  obtain ⟨n, hn, hone⟩ := exists_thousand
  have hfinite := isFinite_larger_zero h
  rw [hn]
  rcases larger_eq 0 x with ⟨hpos, heq⟩ | heq
  · rw [heq] at hfinite ⊢
    obtain ⟨m, hm, _⟩ := exists_of_pos hfinite hpos
    rw [hm]
    exact wholeQuotient_ok hone
  · obtain ⟨z, hz, _⟩ := exists_zero
    rw [heq, hz]
    exact wholeQuotient_ok hone

theorem snapshot_ok (h : now - m.bootedAt ≠ infinity false) : ∃ s, m.snapshot now = .ok s := by
  obtain ⟨k, hk⟩ := wholeQuotient_larger_ok h
  unfold snapshot uptime
  rw [hk]
  exact ⟨_, rfl⟩

theorem uptime_ok_iff (hnow : now.IsWhole t) (hb : t.natAbs ≤ 2 ^ 53) :
    (∃ k, m.uptime now = .ok k) ↔ m.bootedAt ≠ infinity true := by
  obtain ⟨s, n, hfin, _⟩ := hnow.exists_finite
  constructor
  · rintro ⟨k, hk⟩ hboot
    have hhigh : now - infinity true = infinity false := by
      rw [hfin]
      rfl
    have hfault : (larger 0 (infinity false)).wholeQuotient 1000 = .error .notANumber := by
      decide +kernel
    rw [uptime, hboot, hhigh, hfault] at hk
    contradiction
  · intro hboot
    refine wholeQuotient_larger_ok ?_
    cases hbooted : m.bootedAt with
    | nan =>
      rw [hfin]
      exact nofun
    | infinity negative =>
      cases negative with
      | false =>
        rw [hfin]
        exact nofun
      | true => exact absurd hbooted hboot
    | finite negative m =>
      have hz : (now - finite negative m).isFinite = true := isFinite_whole_add hnow hb rfl
      intro hinf
      rw [hinf] at hz
      contradiction

theorem snapshot_ok_iff (hnow : now.IsWhole t) (hb : t.natAbs ≤ 2 ^ 53) :
    (∃ s, m.snapshot now = .ok s) ↔ m.bootedAt ≠ infinity true := by
  rw [← uptime_ok_iff hnow hb]
  unfold snapshot
  cases m.uptime now with
  | ok k => exact ⟨fun _ => ⟨k, rfl⟩, fun _ => ⟨_, rfl⟩⟩
  | error fault =>
    constructor
    · rintro ⟨s, hs⟩
      contradiction
    · rintro ⟨k, hk⟩
      contradiction

end Machine

namespace Controller

/-! ### Whole times that do not go back -/

/-- The whole time of a command. -/
def Operation.instant (op : Operation) : Int := (op.time?.map wholeValue).getD 0

/-- Commands, none of them a start or a reset, at whole times from the clock on. -/
inductive Clocked : Int → List Operation → Prop
  | nil {clock : Int} : Clocked clock []
  | cons {clock t : Int} {op : Operation} {ops : List Operation} {now : Binary64}
      (htime : op.time? = some now) (hwhole : now.IsWhole t) (hle : clock ≤ t)
      (hb : t ≤ 2 ^ 51) (hops : Clocked t ops) : Clocked clock (op :: ops)

theorem instant_eq {op : Operation} {now : Binary64} {t : Int} (htime : op.time? = some now)
    (hwhole : now.IsWhole t) : op.instant = t := by
  simp only [Operation.instant, htime, Option.map_some, Option.getD_some, hwhole.wholeValue_eq]

theorem time_of_tickTime {op : Operation} {now : Binary64} (h : op.tickTime? = some now) :
    op.time? = some now := by
  cases op with
  | pause time => exact h
  | stop time => exact h
  | tick time => exact h
  | status time => exact h
  | _ => contradiction

end Controller

end VirtualPrinter
