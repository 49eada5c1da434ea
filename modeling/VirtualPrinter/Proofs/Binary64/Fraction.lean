import VirtualPrinter.Binary64.Arithmetic
import VirtualPrinter.Proofs.Binary64.Order
import VirtualPrinter.Proofs.Binary64.Rounding

/-!
# Fractions of one

Values from zero to one, and how far rounding can carry them: a quotient below one stays below one,
and a fraction below one of a whole number has a whole part below that number.
-/

namespace VirtualPrinter

/-! ### Whole numbers of units -/

theorem unitsPerOne_split : unitsPerOne = 2 ^ 53 * 2 ^ (oneExponent - 53) := by
  rw [unitsPerOne, ← Nat.pow_add]
  congr 1

theorem two_pow_lt_unitsPerOne : 2 ^ 53 < unitsPerOne :=
  Nat.pow_lt_pow_right (by omega) (by decide)

theorem precise_whole {n : Nat} (h : n ≤ 2 ^ 53) : Precise (n * unitsPerOne) := precise_scaled h

theorem whole_lt_overflowUnits {n : Nat} (h : n ≤ 2 ^ 53) : n * unitsPerOne < overflowUnits := by
  calc n * unitsPerOne ≤ 2 ^ 53 * unitsPerOne := Nat.mul_le_mul_right _ h
    _ = 2 ^ (53 + oneExponent) := by rw [unitsPerOne, ← Nat.pow_add]
    _ < overflowUnits := Nat.pow_lt_pow_right (by omega) (by omega)

theorem precise_unitsPerOne : Precise unitsPerOne := by
  have h := precise_whole (n := 1) (by omega)
  rwa [Nat.one_mul] at h

theorem unitsPerOne_lt_overflowUnits : unitsPerOne < overflowUnits := by
  have h := whole_lt_overflowUnits (n := 1) (by omega)
  rwa [Nat.one_mul] at h

/- Rounding the product may add one part in `2^53`, and a value below one lacks at least as much. -/
theorem nearestUnits_mul_lt {t n : Nat} (ht : Precise t) (hlt : t < unitsPerOne) (hn : 0 < n) :
    nearestUnits (t * (n * unitsPerOne)) unitsPerOne < n * unitsPerOne := by
  have hwhole : unitsPerOne ≤ n * unitsPerOne := Nat.le_mul_of_pos_left _ hn
  have hscale := nearestUnits_scale (t * n) 1 unitsPerOne_pos
  rw [Nat.one_mul, Nat.mul_assoc] at hscale
  rw [hscale]
  by_cases hsmall : t * n < 2 ^ 52
  · have hle : nearestUnits (t * n) 1 ≤ t * n :=
      nearestUnits_le Nat.one_pos (precise_of_le (by omega)) (Nat.mul_one _).ge
    have hbig := two_pow_lt_unitsPerOne
    omega
  · have hrel : 2 ^ 53 * (nearestUnits (t * n) 1 * 1) ≤ (2 ^ 53 + 1) * (t * n) :=
      nearestUnits_relative (by omega)
    have hgap := Nat.mul_le_mul_right n (precise_gap ht precise_unitsPerOne hlt)
    rw [Nat.mul_assoc, Nat.mul_assoc, Nat.mul_comm unitsPerOne n] at hgap
    generalize nearestUnits (t * n) 1 = r at hrel ⊢
    generalize t * n = p at hrel hgap
    have hpos : 0 < n * unitsPerOne := Nat.mul_pos hn unitsPerOne_pos
    generalize n * unitsPerOne = w at hgap hpos ⊢
    omega

namespace Binary64

theorem exists_ofNat {n : Nat} (h : n ≤ 2 ^ 53) :
    ∃ m, ofNat n = finite false m ∧ m.units = n * unitsPerOne := by
  have hexact := nearest_exact false Nat.one_pos (precise_whole h) (whole_lt_overflowUnits h)
  rwa [Nat.mul_one] at hexact

theorem exists_zero : ∃ m, (0 : Binary64) = finite false m ∧ m.units = 0 := by
  obtain ⟨m, hm, hunits⟩ := exists_ofNat (n := 0) (by omega)
  exact ⟨m, hm, by simpa using hunits⟩

theorem exists_one : ∃ m, (1 : Binary64) = finite false m ∧ m.units = unitsPerOne := by
  obtain ⟨m, hm, hunits⟩ := exists_ofNat (n := 1) (by omega)
  exact ⟨m, hm, by simpa using hunits⟩

theorem exists_of_pos {x : Binary64} (hx : x.isFinite = true) (hpos : lt 0 x = true) :
    ∃ m, x = finite false m ∧ 0 < m.units := by
  cases x with
  | nan => simp [isFinite] at hx
  | infinity negative => simp [isFinite] at hx
  | finite negative m =>
    obtain ⟨z, hz, hzero⟩ := exists_zero
    rw [hz, lt_finite, signedUnits_false, decide_eq_true_eq] at hpos
    cases negative with
    | false =>
      rw [signedUnits_false] at hpos
      exact ⟨m, rfl, by omega⟩
    | true =>
      rw [signedUnits_true] at hpos
      omega

/-! ### Values from zero to one -/

def InUnit (x : Binary64) : Prop := ∃ m, x = finite false m ∧ m.units ≤ unitsPerOne

def BelowOne (x : Binary64) : Prop := ∃ m, x = finite false m ∧ m.units < unitsPerOne

theorem BelowOne.inUnit {x : Binary64} (h : BelowOne x) : InUnit x := by
  obtain ⟨m, hm, hlt⟩ := h
  exact ⟨m, hm, hlt.le⟩

theorem zero_belowOne : BelowOne 0 := by
  obtain ⟨m, hm, hunits⟩ := exists_zero
  exact ⟨m, hm, by rw [hunits]; exact unitsPerOne_pos⟩

theorem one_inUnit : InUnit 1 := by
  obtain ⟨m, hm, hunits⟩ := exists_one
  exact ⟨m, hm, hunits.le⟩

theorem BelowOne.bounds {x : Binary64} (h : BelowOne x) : le 0 x = true ∧ x.lt 1 = true := by
  obtain ⟨m, rfl, hlt⟩ := h
  obtain ⟨z, hz, hzero⟩ := exists_zero
  obtain ⟨w, hw, hone⟩ := exists_one
  constructor
  · rw [hz, le_finite, signedUnits_false, signedUnits_false, decide_eq_true_eq]
    omega
  · rw [hw, lt_finite, signedUnits_false, signedUnits_false, decide_eq_true_eq]
    omega

theorem belowOne_of_lt {x : Binary64} (hpos : lt 0 x = true) (hlt : x.lt 1 = true) :
    BelowOne x := by
  obtain ⟨m, rfl, _⟩ := exists_of_pos (isFinite_of_lt_of_lt hpos hlt) hpos
  obtain ⟨w, hw, hone⟩ := exists_one
  rw [hw, lt_finite, signedUnits_false, signedUnits_false, decide_eq_true_eq] at hlt
  exact ⟨m, rfl, by omega⟩

theorem zero_lt_one : lt 0 1 = true := by
  obtain ⟨z, hz, hzero⟩ := exists_zero
  obtain ⟨w, hw, hone⟩ := exists_one
  have hpos := unitsPerOne_pos
  rw [hz, hw, lt_finite, signedUnits_false, signedUnits_false, decide_eq_true_eq]
  omega

theorem clampToUnit_cases (x : Binary64) :
    (x.lt 1 = false ∧ x.clampToUnit = 1) ∨
      (lt 0 x = true ∧ x.lt 1 = true ∧ x.clampToUnit = x) ∨
      (lt 0 x = false ∧ x.lt 1 = true ∧ x.clampToUnit = 0) := by
  have hone := zero_lt_one
  cases hx : x.lt 1 with
  | false => exact Or.inl ⟨rfl, by simp [clampToUnit, smaller, larger, hx, hone]⟩
  | true =>
    cases h0 : lt 0 x with
    | true => exact Or.inr (Or.inl ⟨rfl, rfl, by simp [clampToUnit, smaller, larger, hx, h0]⟩)
    | false => exact Or.inr (Or.inr ⟨rfl, rfl, by simp [clampToUnit, smaller, larger, hx, h0]⟩)

theorem clampToUnit_zero (negative : Bool) {m : Magnitude} (h : m.units = 0) :
    (finite negative m).clampToUnit = 0 := by
  obtain ⟨z, hz, hzero⟩ := exists_zero
  obtain ⟨w, hw, hone⟩ := exists_one
  have hpos := unitsPerOne_pos
  have hunits : signedUnits negative m = 0 := by
    cases negative with
    | false => rw [signedUnits_false, h, Nat.cast_zero]
    | true => rw [signedUnits_true, h, Nat.cast_zero, Int.neg_zero]
  rcases clampToUnit_cases (finite negative m) with ⟨hge, _⟩ | ⟨hgt, _, _⟩ | ⟨_, _, hc⟩
  · rw [hw, lt_finite, hunits, signedUnits_false, decide_eq_false_iff_not] at hge
    omega
  · rw [hz, lt_finite, hunits, signedUnits_false, decide_eq_true_eq] at hgt
    omega
  · exact hc

theorem clampToUnit_inUnit (x : Binary64) : InUnit x.clampToUnit := by
  rcases clampToUnit_cases x with ⟨_, hc⟩ | ⟨hpos, hlt, hc⟩ | ⟨_, _, hc⟩
  · rw [hc]
    exact one_inUnit
  · rw [hc]
    exact (belowOne_of_lt hpos hlt).inUnit
  · rw [hc]
    exact zero_belowOne.inUnit

theorem clampToUnit_belowOne {x : Binary64} (h : x.lt 1 = true) : BelowOne x.clampToUnit := by
  rcases clampToUnit_cases x with ⟨hge, _⟩ | ⟨hpos, hlt, hc⟩ | ⟨_, _, hc⟩
  · rw [h] at hge
    contradiction
  · rw [hc]
    exact belowOne_of_lt hpos hlt
  · rw [hc]
    exact zero_belowOne

/-! ### Quotients below one -/

theorem ratio_belowOne {num den : Nat} (hd : 0 < den)
    (h : 2 ^ 53 * num ≤ (2 ^ 53 - 1) * den) :
    ∃ m, nearest false (num * unitsPerOne) den = finite false m ∧ m.units < unitsPerOne := by
  have hle : nearestUnits (num * unitsPerOne) den ≤ (2 ^ 53 - 1) * 2 ^ (oneExponent - 53) := by
    apply nearestUnits_le hd (precise_scaled (by omega))
    calc num * unitsPerOne = 2 ^ 53 * num * 2 ^ (oneExponent - 53) := by rw [unitsPerOne_split]; ring
      _ ≤ (2 ^ 53 - 1) * den * 2 ^ (oneExponent - 53) := Nat.mul_le_mul_right _ h
      _ = (2 ^ 53 - 1) * 2 ^ (oneExponent - 53) * den := by ring
  have hlt : (2 ^ 53 - 1) * 2 ^ (oneExponent - 53) < unitsPerOne := by
    rw [unitsPerOne_split]
    exact Nat.mul_lt_mul_of_pos_right (by omega) (Nat.two_pow_pos _)
  have hfits := (hle.trans_lt hlt).trans unitsPerOne_lt_overflowUnits
  obtain ⟨m, hm, hunits⟩ := nearest_finite false hfits
  exact ⟨m, hm, by rw [hunits]; exact hle.trans_lt hlt⟩

theorem ofRatio_belowOne {i n : Nat} (h : i < n) (hn : n ≤ 2 ^ 53) :
    BelowOne (ofRatio false i n) :=
  ratio_belowOne (by omega) (by omega)

theorem ofRatio_inUnit {i n : Nat} (hn : 0 < n) (h : i ≤ n) : InUnit (ofRatio false i n) := by
  have hle : nearestUnits (i * unitsPerOne) n ≤ unitsPerOne := by
    apply nearestUnits_le hn precise_unitsPerOne
    rw [Nat.mul_comm]
    exact Nat.mul_le_mul_left _ h
  obtain ⟨m, hm, hunits⟩ := nearest_finite false (hle.trans_lt unitsPerOne_lt_overflowUnits)
  exact ⟨m, hm, by rwa [hunits]⟩

theorem nearest_negative_lt_one (num den : Nat) : (nearest true num den).lt 1 = true := by
  obtain ⟨w, hw, hone⟩ := exists_one
  have hpos := unitsPerOne_pos
  rw [hw]
  unfold nearest
  split
  · rw [lt_finite, signedUnits_true, signedUnits_false, decide_eq_true_eq]
    omega
  · exact lowest_lt_finite false w

theorem div_lt_one {x y : Binary64} (h : x.lt y = true) (hpos : lt 0 y = true)
    (hy : y.isFinite = true) : (x / y).lt 1 = true := by
  obtain ⟨n, rfl, hn⟩ := exists_of_pos hy hpos
  change (div x (finite false n)).lt 1 = true
  cases x with
  | nan =>
    rw [nan_lt] at h
    exact absurd h Bool.false_ne_true
  | infinity negative =>
    cases negative with
    | false =>
      rw [highest_lt] at h
      exact absurd h Bool.false_ne_true
    | true =>
      obtain ⟨w, hw, _⟩ := exists_one
      rw [hw]
      exact lowest_lt_finite false w
  | finite negative m =>
    rw [div, if_neg hn.ne']
    cases negative with
    | true => exact nearest_negative_lt_one _ _
    | false =>
      rw [lt_finite, signedUnits_false, signedUnits_false, decide_eq_true_eq] at h
      have hgap := precise_gap m.isPrecise n.isPrecise (by omega)
      have hb : BelowOne (nearest false (m.units * unitsPerOne) n.units) :=
        ratio_belowOne hn hgap
      exact hb.bounds.2

/-! ### Whole parts of products -/

theorem mul_ofNat {t : Binary64} {n : Nat} (ht : InUnit t) (hn : n ≤ 2 ^ 53) :
    ∃ m, t * ofNat n = finite false m ∧ m.units ≤ n * unitsPerOne ∧
      (BelowOne t → 0 < n → m.units < n * unitsPerOne) := by
  obtain ⟨w, hw, hwhole⟩ := exists_ofNat hn
  obtain ⟨u, rfl, hu⟩ := ht
  have hle : nearestUnits (u.units * (n * unitsPerOne)) unitsPerOne ≤ n * unitsPerOne := by
    apply nearestUnits_le unitsPerOne_pos (precise_whole hn)
    rw [Nat.mul_comm]
    exact Nat.mul_le_mul_left _ hu
  obtain ⟨m, hm, hunits⟩ := nearest_finite false (hle.trans_lt (whole_lt_overflowUnits hn))
  refine ⟨m, ?_, by rwa [hunits], ?_⟩
  · rw [hw]
    change mul (finite false u) (finite false w) = _
    simp only [mul, bne_self_eq_false, hwhole]
    exact hm
  · intro hb hpos
    obtain ⟨v, hv, hlt⟩ := hb
    rw [finite.injEq] at hv
    rw [hunits]
    exact nearestUnits_mul_lt u.isPrecise (hv.2 ▸ hlt) hpos

theorem floor_mul_ofNat {t : Binary64} {n : Nat} (ht : InUnit t) (hn : n ≤ 2 ^ 53) :
    ∃ k : Nat, (t * ofNat n).floor = .ok (k : Int) ∧ k ≤ n ∧ (BelowOne t → 0 < n → k < n) := by
  obtain ⟨m, hm, hle, hlt⟩ := mul_ofNat ht hn
  refine ⟨m.units / unitsPerOne, ?_, ?_, ?_⟩
  · rw [hm, Int.natCast_ediv]
    rfl
  · rw [Nat.div_le_iff_le_mul_add_pred unitsPerOne_pos, Nat.mul_comm]
    omega
  · intro hb hpos
    exact (Nat.div_lt_iff_lt_mul unitsPerOne_pos).2 (hlt hb hpos)

end Binary64

end VirtualPrinter
