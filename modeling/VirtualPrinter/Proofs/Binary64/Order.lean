import VirtualPrinter.Binary64.Order

/-!
# The order of values

Comparison is comparison of places, so two values that both have a place are comparable.
-/

namespace VirtualPrinter.Binary64

theorem lt_iff {x y : Binary64} :
    x.lt y = true ↔ ∃ a b, x.place? = some a ∧ y.place? = some b ∧ a < b := by
  unfold lt
  cases x.place? with
  | none => simp
  | some a =>
    cases y.place? with
    | none => simp
    | some b => simp

theorem eq_nan_or_lt_of_not_le {x y : Binary64} (hy : y ≠ nan) (h : ¬ x.le y = true) :
    x = nan ∨ y.lt x = true := by
  unfold le at h
  cases hx : x.place? with
  | none => exact Or.inl ((place?_eq_none_iff x).1 hx)
  | some a =>
    cases hy' : y.place? with
    | none => exact absurd ((place?_eq_none_iff y).1 hy') hy
    | some b =>
      simp only [hx, hy', decide_eq_true_eq] at h
      exact Or.inr (lt_iff.2 ⟨b, a, hy', hx, by omega⟩)

/-! ### Finite values -/

theorem signedUnits_false (m : Magnitude) : signedUnits false m = m.units := rfl

theorem signedUnits_true (m : Magnitude) : signedUnits true m = -(m.units : Int) := rfl

theorem signedUnits_not (negative : Bool) (m : Magnitude) :
    signedUnits (!negative) m = -signedUnits negative m := by
  cases negative <;> simp [signedUnits]

theorem lt_finite (s t : Bool) (m n : Magnitude) :
    (finite s m).lt (finite t n) = decide (signedUnits s m < signedUnits t n) := rfl

theorem le_finite (s t : Bool) (m n : Magnitude) :
    (finite s m).le (finite t n) = decide (signedUnits s m ≤ signedUnits t n) := rfl

theorem lowest_lt_finite (s : Bool) (m : Magnitude) :
    (infinity true).lt (finite s m) = true := by
  apply lt_iff.2
  exact ⟨-(overflowUnits : Int), signedUnits s m, rfl, rfl, neg_lt_signedUnits s m⟩

theorem place?_lowest : (infinity true).place? = some (-(overflowUnits : Int)) := rfl

theorem place?_highest : (infinity false).place? = some (overflowUnits : Int) := rfl

theorem place?_bounds {x : Binary64} {a : Int} (h : x.place? = some a) :
    -(overflowUnits : Int) ≤ a ∧ a ≤ overflowUnits := by
  cases x with
  | nan => contradiction
  | infinity negative =>
    cases negative with
    | true =>
      rw [place?_lowest, Option.some.injEq] at h
      omega
    | false =>
      rw [place?_highest, Option.some.injEq] at h
      omega
  | finite negative m =>
    have hlow := neg_lt_signedUnits negative m
    have hhigh := signedUnits_lt negative m
    rw [place?, Option.some.injEq] at h
    omega

theorem highest_lt (x : Binary64) : (infinity false).lt x = false := by
  cases h : (infinity false).lt x with
  | false => rfl
  | true =>
    obtain ⟨a, b, ha, hb, hab⟩ := lt_iff.1 h
    have hhigh := (place?_bounds hb).2
    rw [place?_highest, Option.some.injEq] at ha
    omega

theorem isFinite_of_lt_of_lt {x y z : Binary64} (hxy : x.lt y = true) (hyz : y.lt z = true) :
    y.isFinite = true := by
  obtain ⟨a, b, ha, hb, hab⟩ := lt_iff.1 hxy
  obtain ⟨b', d, hb', hd, hbd⟩ := lt_iff.1 hyz
  have hlow := (place?_bounds ha).1
  have hhigh := (place?_bounds hd).2
  cases y with
  | nan => contradiction
  | infinity negative =>
    cases negative with
    | true =>
      rw [place?_lowest, Option.some.injEq] at hb
      omega
    | false =>
      rw [place?_highest, Option.some.injEq] at hb'
      omega
  | finite negative m => rfl

/-! ### The larger of two -/

theorem larger_eq (x y : Binary64) : (x.lt y = true ∧ x.larger y = y) ∨ x.larger y = x := by
  unfold larger
  split
  · rename_i h
    exact Or.inl ⟨h, rfl⟩
  · exact Or.inr rfl

end VirtualPrinter.Binary64
