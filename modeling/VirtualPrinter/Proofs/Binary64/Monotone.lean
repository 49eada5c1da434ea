import VirtualPrinter.Proofs.Binary64.Fraction

/-!
# Rounding keeps the order

Of two quotients by one number the greater is not rounded below the smaller, so every operation that
is monotone on exact values is monotone on rounded ones, overflow and the infinities included.
-/

namespace VirtualPrinter

/-! ### Counts of units -/

theorem roundQuotient_mono {a b : Nat} (den : Nat) (h : a ≤ b) :
    roundQuotient a den ≤ roundQuotient b den := by
  have hdiv : a / den ≤ b / den := Nat.div_le_div_right h
  by_cases hlt : a / den < b / den
  · exact (roundQuotient_le_succ a den).trans (hlt.trans_le (div_le_roundQuotient b den))
  · have heq : a / den = b / den := by omega
    have ha := Nat.div_add_mod a den
    have hb := Nat.div_add_mod b den
    rw [heq] at ha
    have hmod : a % den ≤ b % den := by omega
    simp only [roundQuotient, heq]
    split <;> split <;> omega

theorem nearestUnits_mono {a b den : Nat} (hd : 0 < den) (h : a ≤ b) :
    nearestUnits a den ≤ nearestUnits b den := by
  have hdiv : a / den ≤ b / den := Nat.div_le_div_right h
  by_cases heq : lastPlace (a / den) = lastPlace (b / den)
  · simp only [nearestUnits, heq]
    exact Nat.mul_le_mul_right _ (roundQuotient_mono _ h)
  · -- A power of two stands between quotients with different last places.
    have hplace := lastPlace_mono hdiv
    have hfar := two_pow_le_of_lastPlace (n := b / den) rfl (Or.inr (by omega))
    have hbelow : nearestUnits a den ≤ 2 ^ (52 + lastPlace (b / den)) := by
      calc nearestUnits a den ≤ 2 ^ 53 * 2 ^ lastPlace (a / den) :=
            Nat.mul_le_mul_right _ (roundQuotient_lastPlace_le a den)
        _ = 2 ^ (53 + lastPlace (a / den)) := (Nat.pow_add 2 _ _).symm
        _ ≤ 2 ^ (52 + lastPlace (b / den)) := Nat.pow_le_pow_right (by omega) (by omega)
    have habove : 2 ^ (52 + lastPlace (b / den)) ≤ nearestUnits b den := by
      have hprecise : Precise (1 * 2 ^ (52 + lastPlace (b / den))) := precise_scaled (by omega)
      rw [Nat.one_mul] at hprecise
      exact le_nearestUnits hd hprecise
        ((Nat.mul_le_mul_right _ hfar).trans (Nat.div_mul_le_self b den))
    exact hbelow.trans habove

namespace Binary64

attribute [local irreducible] ofNat

variable {x y z : Binary64}

/-! ### The order of values -/

theorem le_iff : x.le y = true ↔ ∃ a b, x.place? = some a ∧ y.place? = some b ∧ a ≤ b := by
  unfold le
  cases x.place? with
  | none => simp
  | some a =>
    cases y.place? with
    | none => simp
    | some b => simp

theorem le_trans (hxy : x.le y = true) (hyz : y.le z = true) : x.le z = true := by
  obtain ⟨a, b, ha, hb, hab⟩ := le_iff.1 hxy
  obtain ⟨b', d, hb', hd, hbd⟩ := le_iff.1 hyz
  rw [hb] at hb'
  cases hb'
  exact le_iff.2 ⟨a, d, ha, hd, by omega⟩

theorem le_of_lt (h : x.lt y = true) : x.le y = true := by
  obtain ⟨a, b, ha, hb, hab⟩ := lt_iff.1 h
  exact le_iff.2 ⟨a, b, ha, hb, by omega⟩

theorem lt_of_le_of_lt (hxy : x.le y = true) (hyz : y.lt z = true) : x.lt z = true := by
  obtain ⟨a, b, ha, hb, hab⟩ := le_iff.1 hxy
  obtain ⟨b', d, hb', hd, hbd⟩ := lt_iff.1 hyz
  rw [hb] at hb'
  cases hb'
  exact lt_iff.2 ⟨a, d, ha, hd, by omega⟩

theorem lt_of_lt_of_le (hxy : x.lt y = true) (hyz : y.le z = true) : x.lt z = true := by
  obtain ⟨a, b, ha, hb, hab⟩ := lt_iff.1 hxy
  obtain ⟨b', d, hb', hd, hbd⟩ := le_iff.1 hyz
  rw [hb] at hb'
  cases hb'
  exact lt_iff.2 ⟨a, d, ha, hd, by omega⟩

theorem not_le_of_lt (h : x.lt y = true) : y.le x = false := by
  cases hle : y.le x with
  | false => rfl
  | true =>
    have hirr := lt_of_lt_of_le h hle
    rw [lt_irrefl] at hirr
    contradiction

theorem le_refl_of_ne_nan (h : x ≠ nan) : x.le x = true := by
  cases hx : x.place? with
  | none => exact absurd ((place?_eq_none_iff x).1 hx) h
  | some a => exact le_iff.2 ⟨a, a, hx, hx, le_rfl⟩

theorem eq_nan_or_le_of_not_lt (hy : y ≠ nan) (h : x.lt y = false) :
    x = nan ∨ y.le x = true := by
  cases hx : x.place? with
  | none => exact Or.inl ((place?_eq_none_iff x).1 hx)
  | some a =>
    cases hy' : y.place? with
    | none => exact absurd ((place?_eq_none_iff y).1 hy') hy
    | some b =>
      simp only [lt, hx, hy', decide_eq_false_iff_not] at h
      exact Or.inr (le_iff.2 ⟨b, a, hy', hx, by omega⟩)

theorem lt_eq_false_iff : x.lt y = false ↔ x = nan ∨ y = nan ∨ y.le x = true := by
  rw [← place?_eq_none_iff, ← place?_eq_none_iff, lt, le]
  cases x.place? <;> cases y.place? <;> simp

theorem le_eq_false_iff : x.le y = false ↔ x = nan ∨ y = nan ∨ y.lt x = true := by
  rw [← place?_eq_none_iff, ← place?_eq_none_iff, lt, le]
  cases x.place? <;> cases y.place? <;> simp

theorem lowest_le (h : x ≠ nan) : (infinity true).le x = true := by
  cases hx : x.place? with
  | none => exact absurd ((place?_eq_none_iff x).1 hx) h
  | some a => exact le_iff.2 ⟨_, a, place?_lowest, hx, (place?_bounds hx).1⟩

theorem le_highest (h : x ≠ nan) : x.le (infinity false) = true := by
  cases hx : x.place? with
  | none => exact absurd ((place?_eq_none_iff x).1 hx) h
  | some a => exact le_iff.2 ⟨a, _, hx, place?_highest, (place?_bounds hx).2⟩

theorem eq_highest_of_le (h : (infinity false).le x = true) : x = infinity false := by
  obtain ⟨a, b, ha, hb, hab⟩ := le_iff.1 h
  have hpos := overflowUnits_pos
  rw [place?_highest, Option.some.injEq] at ha
  cases x with
  | nan => exact absurd hb nofun
  | infinity negative =>
    cases negative with
    | false => rfl
    | true =>
      rw [place?_lowest, Option.some.injEq] at hb
      omega
  | finite s m =>
    have hlt := signedUnits_lt s m
    rw [place?, Option.some.injEq] at hb
    omega

theorem eq_lowest_of_le (h : x.le (infinity true) = true) : x = infinity true := by
  obtain ⟨a, b, ha, hb, hab⟩ := le_iff.1 h
  have hpos := overflowUnits_pos
  rw [place?_lowest, Option.some.injEq] at hb
  cases x with
  | nan => exact absurd ha nofun
  | infinity negative =>
    cases negative with
    | true => rfl
    | false =>
      rw [place?_highest, Option.some.injEq] at ha
      omega
  | finite s m =>
    have hlt := neg_lt_signedUnits s m
    rw [place?, Option.some.injEq] at ha
    omega

theorem ne_nan_of_place? {a : Int} (h : x.place? = some a) : x ≠ nan := by
  intro hx
  rw [hx] at h
  contradiction

theorem ne_nan_of_lt (h : x.lt y = true) : y ≠ nan := by
  rintro rfl
  rw [lt_nan] at h
  contradiction

theorem ne_nan_of_le (h : x.le y = true) : y ≠ nan := by
  obtain ⟨a, b, ha, hb, hab⟩ := le_iff.1 h
  exact ne_nan_of_place? hb

theorem isFinite_of_pos (hpos : lt 0 x = true) (h : x ≠ infinity false) : x.isFinite = true := by
  obtain ⟨a, b, ha, hb, hab⟩ := lt_iff.1 hpos
  obtain ⟨z, hz, hzero⟩ := exists_zero
  rw [hz, place?, signedUnits_false, hzero, Option.some.injEq] at ha
  cases x with
  | nan => exact absurd hb.symm (Option.some_ne_none b)
  | infinity negative =>
    cases negative with
    | false => exact absurd rfl h
    | true =>
      have hover := overflowUnits_pos
      rw [place?_lowest, Option.some.injEq] at hb
      omega
  | finite s m => rfl

theorem sub_nan (x : Binary64) : x - nan = nan := by
  cases x <;> rfl

theorem le_larger_left (hx : x ≠ nan) : x.le (x.larger y) = true := by
  rcases larger_eq x y with ⟨hlt, heq⟩ | heq
  · rw [heq]
    exact le_of_lt hlt
  · rw [heq]
    exact le_refl_of_ne_nan hx

/- What is not a number is not chosen, so nothing is asked of it. -/
theorem larger_mono (hx : x ≠ nan) (h : y = nan ∨ y.le z = true) :
    (x.larger y).le (x.larger z) = true := by
  rcases larger_eq x y with ⟨hlt, heq⟩ | heq
  · have hle := h.resolve_left (ne_nan_of_lt hlt)
    have hlater : x.larger z = z := if_pos (lt_of_lt_of_le hlt hle)
    rw [heq, hlater]
    exact hle
  · rw [heq]
    exact le_larger_left hx

/-! ### Rounded values -/

/-- The place of the value nearest to `total / den` units; what overflows is at the threshold. -/
def nearestPlace (total : Int) (den : Nat) : Int :=
  let magnitude : Int := min (nearestUnits total.natAbs den) overflowUnits
  if total < 0 then -magnitude else magnitude

theorem nearestUnits_zero {den : Nat} (hd : 0 < den) : nearestUnits 0 den = 0 :=
  Nat.le_zero.1 (nearestUnits_le hd (precise_of_le (Nat.zero_le _)) (Nat.zero_le _))

theorem nearestPlace_mono {a b : Int} {den : Nat} (hd : 0 < den) (h : a ≤ b) :
    nearestPlace a den ≤ nearestPlace b den := by
  simp only [nearestPlace]
  by_cases ha : a < 0
  · by_cases hb : b < 0
    · have hmono := nearestUnits_mono (a := b.natAbs) (b := a.natAbs) hd (by omega)
      rw [if_pos ha, if_pos hb]
      omega
    · rw [if_pos ha, if_neg hb]
      omega
  · have hmono := nearestUnits_mono (a := a.natAbs) (b := b.natAbs) hd (by omega)
    rw [if_neg ha, if_neg (by omega)]
    omega

theorem nearestPlace_zero {den : Nat} (hd : 0 < den) : nearestPlace 0 den = 0 := by
  unfold nearestPlace
  rw [Int.natAbs_zero, nearestUnits_zero hd, if_neg (Int.lt_irrefl 0)]
  exact min_eq_left (Int.natCast_nonneg _)

theorem place?_of_units_zero (negative : Bool) {m : Magnitude} (h : m.units = 0) :
    (finite negative m).place? = some 0 := by
  cases negative with
  | false => rw [place?, signedUnits_false, h, Int.natCast_zero]
  | true => rw [place?, signedUnits_true, h, Int.natCast_zero, Int.neg_zero]

theorem zero_lt_iff : lt 0 x = true ↔ ∃ a, x.place? = some a ∧ 0 < a := by
  obtain ⟨m, hm, hzero⟩ := exists_zero
  rw [hm, lt_iff, place?_of_units_zero false hzero]
  simp

/- The sign of zero does not matter, as both zeros have one place. -/
theorem place?_nearest {negative : Bool} {total : Int} {den : Nat} (hd : 0 < den)
    (hsign : negative = decide (total < 0) ∨ total = 0) :
    (nearest negative total.natAbs den).place? = some (nearestPlace total den) := by
  by_cases hzero : total = 0
  · subst hzero
    have hunits := nearestUnits_zero hd
    have hlt : nearestUnits 0 den < overflowUnits := by
      rw [hunits]
      exact overflowUnits_pos
    obtain ⟨m, hm, hmunits⟩ := nearest_finite negative hlt
    rw [Int.natAbs_zero, hm, nearestPlace_zero hd,
      place?_of_units_zero negative (hmunits.trans hunits)]
  · have hneg := hsign.resolve_right hzero
    subst hneg
    unfold nearest nearestPlace
    split
    · rename_i h
      rw [min_eq_left (by exact_mod_cast h.le)]
      by_cases hlt : total < 0
      · rw [if_pos hlt, decide_eq_true hlt, place?, signedUnits_true]
      · rw [if_neg hlt, decide_eq_false hlt, place?, signedUnits_false]
    · rename_i h
      rw [min_eq_right (by exact_mod_cast Nat.le_of_not_lt h)]
      by_cases hlt : total < 0
      · rw [if_pos hlt, decide_eq_true hlt, place?_lowest]
      · rw [if_neg hlt, decide_eq_false hlt, place?_highest]

/-! ### Differences, products and quotients -/

theorem place?_add_finite (s t : Bool) (m n : Magnitude) :
    (finite s m + finite t n).place? =
      some (nearestPlace (signedUnits s m + signedUnits t n) 1) := by
  change (add (finite s m) (finite t n)).place? = _
  simp only [add]
  split
  · rename_i hzero
    rw [hzero, nearestPlace_zero Nat.one_pos]
    exact place?_of_units_zero (s && t) rfl
  · exact place?_nearest Nat.one_pos (Or.inl rfl)

theorem sub_mono (hx : x.isFinite = true) (hy : y.isFinite = true) (hz : z ≠ nan)
    (h : x.le y = true) : (x - z).le (y - z) = true := by
  cases x with
  | nan => contradiction
  | infinity negative => contradiction
  | finite s m =>
    cases y with
    | nan => contradiction
    | infinity negative => contradiction
    | finite t n =>
      cases z with
      | nan => contradiction
      | infinity negative => exact le_refl_of_ne_nan (x := infinity !negative) nofun
      | finite r k =>
        rw [le_finite, decide_eq_true_eq] at h
        refine le_iff.2 ⟨_, _, place?_add_finite s (!r) m k, place?_add_finite t (!r) n k, ?_⟩
        exact nearestPlace_mono Nat.one_pos (by omega)

/- No time has elapsed between two equal values, whatever the signs of zeros are. -/
theorem sub_lt_of_sameNumber (hx : x.isFinite = true) (h : x.sameNumber y = true)
    (hz : lt 0 z = true) : (x - y).lt z = true := by
  obtain ⟨a, ha, hpos⟩ := zero_lt_iff.1 hz
  cases x with
  | nan => contradiction
  | infinity negative => contradiction
  | finite s m =>
    cases y with
    | nan => contradiction
    | infinity negative =>
      have hlow := neg_lt_signedUnits s m
      have hhigh := signedUnits_lt s m
      have hplace := of_decide_eq_true h
      cases negative with
      | false => omega
      | true => omega
    | finite t n =>
      have hplace : signedUnits s m = signedUnits t n := of_decide_eq_true h
      have hsum : signedUnits s m + signedUnits (!t) n = 0 := by
        rw [signedUnits_not, hplace]
        omega
      refine lt_iff.2 ⟨_, a, place?_add_finite s (!t) m n, ha, ?_⟩
      rw [hsum, nearestPlace_zero Nat.one_pos]
      exact hpos

theorem place?_scaled (s : Bool) (m : Magnitude) (k : Nat) {den : Nat} (hd : 0 < den) :
    (nearest s (m.units * k) den).place? = some (nearestPlace (signedUnits s m * k) den) := by
  have habs : (signedUnits s m * k).natAbs = m.units * k := by
    rw [Int.natAbs_mul, Int.natAbs_natCast]
    cases s with
    | false => rw [signedUnits_false, Int.natAbs_natCast]
    | true => rw [signedUnits_true, Int.natAbs_neg, Int.natAbs_natCast]
  rw [← habs]
  apply place?_nearest hd
  cases s with
  | false =>
    refine Or.inl (decide_eq_false (Int.not_lt.2 (Int.mul_nonneg ?_ (Int.natCast_nonneg k)))).symm
    exact Int.natCast_nonneg _
  | true =>
    rw [signedUnits_true, Int.neg_mul, ← Int.natCast_mul]
    by_cases hzero : m.units * k = 0
    · exact Or.inr (by rw [hzero, Int.natCast_zero, Int.neg_zero])
    · exact Or.inl (decide_eq_true (by omega)).symm

theorem place?_div_finite (s : Bool) (m : Magnitude) {n : Magnitude} (hn : 0 < n.units) :
    (finite s m / finite false n).place? =
      some (nearestPlace (signedUnits s m * unitsPerOne) n.units) := by
  change (div (finite s m) (finite false n)).place? = _
  rw [div, if_neg hn.ne', Bool.bne_false]
  exact place?_scaled s m unitsPerOne hn

theorem place?_mul_finite (s : Bool) (m n : Magnitude) :
    (finite s m * finite false n).place? =
      some (nearestPlace (signedUnits s m * n.units) unitsPerOne) := by
  change (mul (finite s m) (finite false n)).place? = _
  rw [mul, Bool.bne_false]
  exact place?_scaled s m n.units unitsPerOne_pos

/- What scales the units of finite values and leaves the infinities alone keeps the order. -/
theorem scaled_mono {f : Binary64 → Binary64} {k den : Nat} (hd : 0 < den)
    (hinfinity : ∀ negative, f (infinity negative) = infinity negative)
    (hfinite : ∀ s m, (f (finite s m)).place? = some (nearestPlace (signedUnits s m * k) den))
    (h : x.le y = true) : (f x).le (f y) = true := by
  cases x with
  | nan => contradiction
  | infinity negative =>
    cases negative with
    | true =>
      -- The lowest value stays the lowest.
      rw [hinfinity]
      apply lowest_le
      cases y with
      | nan => contradiction
      | infinity other =>
        rw [hinfinity]
        exact nofun
      | finite t n => exact ne_nan_of_place? (hfinite t n)
    | false =>
      rw [eq_highest_of_le h, hinfinity]
      exact le_highest nofun
  | finite s m =>
    cases y with
    | nan => contradiction
    | infinity other =>
      cases other with
      | true => exact absurd (eq_lowest_of_le h) nofun
      | false =>
        rw [hinfinity]
        exact le_highest (ne_nan_of_place? (hfinite s m))
    | finite t n =>
      rw [le_finite, decide_eq_true_eq] at h
      refine le_iff.2 ⟨_, _, hfinite s m, hfinite t n, nearestPlace_mono hd ?_⟩
      exact Int.mul_le_mul_of_nonneg_right h (Int.natCast_nonneg _)

theorem div_mono (hz : z.isFinite = true) (hpos : lt 0 z = true) (h : x.le y = true) :
    (x / z).le (y / z) = true := by
  obtain ⟨n, rfl, hn⟩ := exists_of_pos hz hpos
  refine scaled_mono (f := (· / finite false n)) hn ?_ (fun s m => place?_div_finite s m hn) h
  intro negative
  exact congrArg infinity (Bool.bne_false negative)

theorem mul_mono (hz : z.isFinite = true) (hpos : lt 0 z = true) (h : x.le y = true) :
    (x * z).le (y * z) = true := by
  obtain ⟨n, rfl, hn⟩ := exists_of_pos hz hpos
  refine scaled_mono (f := (· * finite false n)) unitsPerOne_pos ?_
    (fun s m => place?_mul_finite s m n) h
  intro negative
  change mul (infinity negative) (finite false n) = infinity negative
  rw [mul, if_neg hn.ne', Bool.bne_false]

/- A positive value stays positive when it is taken several times, if only as an infinity. -/
theorem mul_ofNat_pos {n : Nat} (hx : lt 0 x = true) (hn : 0 < n) (hle : n ≤ 2 ^ 53) :
    lt 0 (x * ofNat n) = true := by
  obtain ⟨w, hw, hunits⟩ := exists_ofNat hle
  have hwhole : unitsPerOne ≤ w.units := by
    rw [hunits]
    exact Nat.le_mul_of_pos_left _ hn
  by_cases hinf : x = infinity false
  · have hmul : x * ofNat n = infinity false := by
      rw [hinf, hw]
      exact if_neg (unitsPerOne_pos.trans_le hwhole).ne'
    rw [hmul]
    exact zero_lt_iff.2 ⟨_, place?_highest, Int.natCast_pos.2 overflowUnits_pos⟩
  · obtain ⟨m, rfl, hm⟩ := exists_of_pos (isFinite_of_pos hx hinf) hx
    have hkept : m.units ≤ nearestUnits (m.units * w.units) unitsPerOne :=
      le_nearestUnits unitsPerOne_pos m.isPrecise (Nat.mul_le_mul_left _ hwhole)
    rw [hw]
    change lt 0 (mul (finite false m) (finite false w)) = true
    rw [mul, bne_self_eq_false, nearest]
    split
    · exact zero_lt_iff.2 ⟨_, rfl, Int.natCast_pos.2 (hm.trans_le hkept)⟩
    · exact zero_lt_iff.2 ⟨_, place?_highest, Int.natCast_pos.2 overflowUnits_pos⟩

theorem div_self (hx : x.isFinite = true) (hpos : lt 0 x = true) :
    x / x = 1 := by
  obtain ⟨n, rfl, hn⟩ := exists_of_pos hx hpos
  obtain ⟨w, hw, hone⟩ := exists_one
  obtain ⟨m, hm, hunits⟩ := nearest_exact false hn precise_unitsPerOne unitsPerOne_lt_overflowUnits
  change div (finite false n) (finite false n) = 1
  rw [div, if_neg hn.ne', bne_self_eq_false, Nat.mul_comm, hm, hw]
  cases m
  cases w
  cases hunits.trans hone.symm
  rfl

/-! ### Fractions and their shares -/

theorem InUnit.zero_le (h : InUnit x) : le 0 x = true := by
  obtain ⟨m, rfl, hle⟩ := h
  obtain ⟨z, hz, hzero⟩ := exists_zero
  rw [hz, le_finite, signedUnits_false, signedUnits_false, decide_eq_true_eq]
  omega

theorem InUnit.le_one (h : InUnit x) : x.le 1 = true := by
  obtain ⟨m, rfl, hle⟩ := h
  obtain ⟨w, hw, hone⟩ := exists_one
  rw [hw, le_finite, signedUnits_false, signedUnits_false, decide_eq_true_eq]
  omega

theorem clampToUnit_mono (h : x.le y = true) : x.clampToUnit.le y.clampToUnit = true := by
  rcases clampToUnit_cases y with ⟨_, hc⟩ | ⟨hy, hlt, hc⟩ | ⟨hy, hlt, hc⟩
  · rw [hc]
    exact (clampToUnit_inUnit x).le_one
  · rw [hc]
    have hx := lt_of_le_of_lt h hlt
    rcases clampToUnit_cases x with ⟨hge, _⟩ | ⟨_, _, hd⟩ | ⟨_, _, hd⟩
    · rw [hx] at hge
      contradiction
    · rw [hd]
      exact h
    · rw [hd]
      exact le_of_lt hy
  · rw [hc]
    have hx := lt_of_le_of_lt h hlt
    rcases clampToUnit_cases x with ⟨hge, _⟩ | ⟨hpos, _, _⟩ | ⟨_, _, hd⟩
    · rw [hx] at hge
      contradiction
    · rw [lt_of_lt_of_le hpos h] at hy
      contradiction
    · rw [hd]
      exact zero_belowOne.bounds.1

theorem place?_ofRatio (i : Nat) {n : Nat} (hn : 0 < n) :
    (ofRatio false i n).place? = some (nearestPlace (i * unitsPerOne : Nat) n) := by
  have hsign : false = decide (((i * unitsPerOne : Nat) : Int) < 0) :=
    (decide_eq_false (Int.not_lt.2 (Int.natCast_nonneg _))).symm
  have hplace := place?_nearest hn (Or.inl hsign)
  rwa [Int.natAbs_natCast] at hplace

theorem ofRatio_mono {i j n : Nat} (hn : 0 < n) (h : i ≤ j) :
    (ofRatio false i n).le (ofRatio false j n) = true := by
  refine le_iff.2 ⟨_, _, place?_ofRatio i hn, place?_ofRatio j hn, ?_⟩
  exact nearestPlace_mono hn (Int.ofNat_le.2 (Nat.mul_le_mul_right _ h))

theorem ofNat_cases (n : Nat) : (∃ w, ofNat n = finite false w) ∨ ofNat n = infinity false := by
  unfold ofNat ofRatio nearest
  split
  · exact Or.inl ⟨_, rfl⟩
  · exact Or.inr rfl

/-- The whole part of a fraction of a value, both counted in units. -/
def wholeShare (fraction whole : Magnitude) : Nat :=
  nearestUnits (fraction.units * whole.units) unitsPerOne / unitsPerOne

theorem floor_mul {u w : Magnitude} (hu : u.units ≤ unitsPerOne) :
    (finite false u * finite false w).floor = .ok (wholeShare u w : Int) := by
  have hle : nearestUnits (u.units * w.units) unitsPerOne ≤ w.units := by
    apply nearestUnits_le unitsPerOne_pos w.isPrecise
    rw [Nat.mul_comm]
    exact Nat.mul_le_mul_left _ hu
  obtain ⟨m, hm, hunits⟩ := nearest_finite false (hle.trans_lt w.bounded)
  change (mul (finite false u) (finite false w)).floor = _
  rw [mul, bne_self_eq_false, hm, wholeShare, ← hunits, Int.natCast_ediv]
  rfl

theorem wholeShare_mono {t u : Magnitude} (w : Magnitude) (h : t.units ≤ u.units) :
    wholeShare t w ≤ wholeShare u w :=
  Nat.div_le_div_right (nearestUnits_mono unitsPerOne_pos (Nat.mul_le_mul_right _ h))

/- A fraction of an infinity is an infinity or not a number, neither of which has a whole part. -/
theorem finite_of_floor_mul {n : Nat} {k : Int} (hx : InUnit x)
    (h : (x * ofNat n).floor = .ok k) : ∃ w, ofNat n = finite false w := by
  rcases ofNat_cases n with hw | hw
  · exact hw
  · obtain ⟨u, rfl, _⟩ := hx
    rw [hw] at h
    have hfault : ∃ fault, (mul (finite false u) (infinity false)).floor = .error fault := by
      rw [mul]
      split
      · exact ⟨_, rfl⟩
      · exact ⟨_, rfl⟩
    obtain ⟨fault, hfault⟩ := hfault
    cases h.symm.trans hfault

theorem floor_mul_mono {n : Nat} {j k : Int} (hx : InUnit x) (hy : InUnit y)
    (h : x.le y = true) (hj : (x * ofNat n).floor = .ok j) (hk : (y * ofNat n).floor = .ok k) :
    j ≤ k := by
  obtain ⟨w, hw⟩ := finite_of_floor_mul hx hj
  obtain ⟨t, rfl, ht⟩ := hx
  obtain ⟨u, rfl, hu⟩ := hy
  rw [le_finite, signedUnits_false, signedUnits_false, decide_eq_true_eq] at h
  rw [hw, floor_mul ht] at hj
  rw [hw, floor_mul hu] at hk
  cases hj
  cases hk
  exact_mod_cast wholeShare_mono w (by omega)

/- Where the whole itself has a whole part, every fraction of it has. -/
theorem exists_floor_mul {n : Nat} {k : Int} (hx : InUnit x)
    (hk : ((1 : Binary64) * ofNat n).floor = .ok k) :
    ∃ j : Nat, (x * ofNat n).floor = .ok (j : Int) ∧ (j : Int) ≤ k := by
  obtain ⟨w, hw⟩ := finite_of_floor_mul one_inUnit hk
  have hle := hx.le_one
  obtain ⟨t, rfl, ht⟩ := hx
  have hj := floor_mul (w := w) ht
  rw [← hw] at hj
  exact ⟨wholeShare t w, hj, floor_mul_mono ⟨t, rfl, ht⟩ one_inUnit hle hj hk⟩

end Binary64

end VirtualPrinter
