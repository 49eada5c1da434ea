import VirtualPrinter.Proofs.Binary64.Nearest

/-!
# Results that stay finite

A whole number of moderate size can be added to any finite value without overflow, and a finite
value that is not negative has a whole quotient by anything from one on.
-/

namespace VirtualPrinter

attribute [local irreducible] Binary64.ofNat Binary64.ofRatio

/-! ### Counts of units that do not overflow -/

theorem two_mul_whole_lt {n : Nat} (h : n ≤ 2 ^ 53) :
    2 * (n * unitsPerOne) < 2 ^ (971 + oneExponent) := by
  calc 2 * (n * unitsPerOne) ≤ 2 * (2 ^ 53 * unitsPerOne) :=
        Nat.mul_le_mul_left _ (Nat.mul_le_mul_right _ h)
    _ = 2 ^ (54 + oneExponent) := by
        rw [unitsPerOne, Nat.pow_add]
        ring
    _ < 2 ^ (971 + oneExponent) := Nat.pow_lt_pow_right (by omega) (by omega)

namespace Binary64

variable {x y : Binary64} {b : Int}

theorem isFinite_nearest {num den : Nat} (negative : Bool)
    (h : nearestUnits num den < overflowUnits) : (nearest negative num den).isFinite = true := by
  obtain ⟨m, hm, _⟩ := nearest_finite negative h
  rw [hm]
  rfl

theorem isFinite_whole_add (hx : x.IsWhole b) (hb : b.natAbs ≤ 2 ^ 53) (hy : y.isFinite = true) :
    (x + y).isFinite = true := by
  obtain ⟨t, n, rfl, hn⟩ := hx.exists_finite
  cases y with
  | nan => contradiction
  | infinity negative => contradiction
  | finite s m =>
    change (add (finite t n) (finite s m)).isFinite = true
    simp only [add]
    split
    · rfl
    · apply isFinite_nearest
      apply Nat.lt_of_not_le
      rw [nearestUnits_overflow_iff Nat.one_pos, Nat.mul_one]
      have hm := m.isPrecise.le_greatestUnits m.bounded
      have hwhole := two_mul_whole_lt hb
      have hbound := two_mul_overflowBound
      have hgreatest := greatestUnits_add
      have habs : (signedUnits t n).natAbs = b.natAbs * unitsPerOne := by
        rw [hn, Int.natAbs_mul, Int.natAbs_natCast]
      have hunits := natAbs_signedUnits s m
      have htri := Int.natAbs_add_le (signedUnits t n) (signedUnits s m)
      generalize 2 ^ (971 + oneExponent) = step at hwhole hgreatest
      omega

/-! ### Values that are not negative -/

theorem isFinite_larger_zero (h : x ≠ infinity false) :
    (larger 0 x).isFinite = true := by
  obtain ⟨zero, hzero, -⟩ := exists_zero
  rcases larger_eq 0 x with ⟨hlt, heq⟩ | heq
  · rw [heq]
    cases x with
    | nan => exact absurd hlt (by simp [lt_nan])
    | infinity negative =>
      cases negative with
      | true =>
        obtain ⟨a, b, ha, hb, hab⟩ := lt_iff.1 hlt
        have hlow := (place?_bounds ha).1
        rw [place?_lowest, Option.some.injEq] at hb
        omega
      | false => contradiction
    | finite negative m => rfl
  · rw [heq, hzero]
    rfl

/-! ### Whole quotients -/

theorem finite_sub_le {m r : Magnitude} (h : r.units ≤ m.units) :
    ∃ s k, finite false m - finite false r = finite s k ∧ k.units ≤ m.units := by
  change ∃ s k, add (finite false m) (finite true r) = finite s k ∧ k.units ≤ m.units
  simp only [add]
  split
  · exact ⟨_, _, rfl, Nat.zero_le _⟩
  · have htotal : (signedUnits false m + signedUnits true r).natAbs ≤ m.units * 1 := by
      simp only [signedUnits, Bool.false_eq_true, if_false, if_true]
      omega
    have hle := nearestUnits_le Nat.one_pos m.isPrecise htotal
    obtain ⟨k, hk, hunits⟩ := nearest_finite
      (decide (signedUnits false m + signedUnits true r < 0)) (hle.trans_lt m.bounded)
    exact ⟨_, k, hk, hunits.trans_le hle⟩

/- Dividing by one or more takes no finite value out of the range. -/
theorem finite_div_le {s t : Bool} {m n : Magnitude} (hn : unitsPerOne ≤ n.units) :
    ∃ k, finite s m / finite t n = finite (s != t) k ∧ k.units ≤ m.units := by
  have hn0 : n.units ≠ 0 := by
    have hpos := unitsPerOne_pos
    omega
  have hle : nearestUnits (m.units * unitsPerOne) n.units ≤ m.units :=
    nearestUnits_le (by omega) m.isPrecise (Nat.mul_le_mul_left _ hn)
  obtain ⟨k, hk, hunits⟩ := nearest_finite (s != t) (hle.trans_lt m.bounded)
  refine ⟨k, ?_, hunits.trans_le hle⟩
  change div (finite s m) (finite t n) = _
  rw [div, if_neg hn0, hk]

theorem wholeQuotient_ok {m n : Magnitude} (hn : unitsPerOne ≤ n.units) :
    ∃ k, wholeQuotient (finite false m) (finite false n) = .ok k := by
  have hn0 : n.units ≠ 0 := by
    have hpos := unitsPerOne_pos
    omega
  have hmod : nearestUnits (m.units % n.units) 1 ≤ m.units :=
    nearestUnits_le Nat.one_pos m.isPrecise (by rw [Nat.mul_one]; exact Nat.mod_le _ _)
  obtain ⟨r, hr, hrunits⟩ := nearest_finite false (hmod.trans_lt m.bounded)
  obtain ⟨s, k, hk, hkle⟩ := finite_sub_le (m := m) (r := r) (by rw [hrunits]; exact hmod)
  obtain ⟨q, hq, _⟩ := finite_div_le (s := s) (t := false) (m := k) hn
  have hdiv : (finite false m - remainder (finite false m) (finite false n)) / finite false n =
      finite (s != false) q := by
    rw [remainder, if_neg hn0, hr, hk, hq]
  unfold wholeQuotient
  rw [hdiv]
  exact ⟨_, rfl⟩

end Binary64

end VirtualPrinter
