import VirtualPrinter.Binary64.Arithmetic
import VirtualPrinter.Proofs.Binary64.Monotone

/-!
# Values that are not negative

Squares and square roots are not negative, adding what is not negative never takes a value down, and
a greater divisor never takes a quotient up. All of it holds of rounded results, overflow included.
-/

namespace VirtualPrinter

theorem nearestUnits_anti (num : Nat) {a b : Nat} (ha : 0 < a) (h : a ≤ b) :
    nearestUnits num b ≤ nearestUnits num a := by
  have hb : 0 < b := ha.trans_le h
  calc nearestUnits num b = nearestUnits (num * a) (b * a) := (nearestUnits_scale num b ha).symm
    _ ≤ nearestUnits (num * b) (b * a) :=
        nearestUnits_mono (Nat.mul_pos hb ha) (Nat.mul_le_mul_left num h)
    _ = nearestUnits (num * b) (a * b) := by rw [Nat.mul_comm b a]
    _ = nearestUnits num a := nearestUnits_scale num a hb

namespace Binary64

attribute [local irreducible] ofNat

variable {x y z : Binary64}

theorem zero_le_iff : le 0 x = true ↔ ∃ a, x.place? = some a ∧ 0 ≤ a := by
  obtain ⟨m, hm, hzero⟩ := exists_zero
  rw [hm, le_iff, place?_of_units_zero false hzero]
  simp

theorem not_zero_le_lowest : le 0 (infinity true) = false := by decide +kernel

theorem eq_false_of_zero_le_infinity {negative : Bool} (h : le 0 (infinity negative) = true) :
    negative = false := by
  cases negative with
  | false => rfl
  | true =>
    rw [not_zero_le_lowest] at h
    contradiction

theorem zero_le_nearest (num den : Nat) : le 0 (nearest false num den) = true := by
  rw [zero_le_iff]
  unfold nearest
  split
  · exact ⟨_, rfl, Int.natCast_nonneg _⟩
  · exact ⟨_, place?_highest, Int.natCast_nonneg _⟩

/-! ### Squares and roots -/

theorem zero_le_mul_self (h : x ≠ nan) : le 0 (x * x) = true := by
  cases x with
  | nan => contradiction
  | infinity negative =>
    have hsquare : infinity negative * infinity negative = infinity false :=
      congrArg infinity (bne_self_eq_false negative)
    rw [hsquare]
    exact zero_le_iff.2 ⟨_, place?_highest, Int.natCast_nonneg _⟩
  | finite s m =>
    change le 0 (mul (finite s m) (finite s m)) = true
    rw [mul, bne_self_eq_false]
    exact zero_le_nearest _ _

theorem zero_le_sqrt (h : le 0 x = true) : le 0 x.sqrt = true := by
  cases x with
  | nan => exact absurd rfl (ne_nan_of_le h)
  | infinity negative =>
    obtain rfl := eq_false_of_zero_le_infinity h
    exact h
  | finite s m =>
    by_cases hm : m.units = 0
    · rw [sqrt, if_pos hm]
      exact h
    · cases s with
      | false =>
        rw [sqrt, if_neg hm, if_neg Bool.false_ne_true]
        exact zero_le_nearest _ _
      | true =>
        obtain ⟨a, ha, hnonneg⟩ := zero_le_iff.1 h
        rw [place?, signedUnits_true, Option.some.injEq] at ha
        omega

/-! ### Sums and differences -/

theorem sub_ne_nan (hx : x.isFinite = true) (hy : y.isFinite = true) : x - y ≠ nan := by
  cases x with
  | nan => contradiction
  | infinity negative => contradiction
  | finite s m =>
    cases y with
    | nan => contradiction
    | infinity negative => contradiction
    | finite t n => exact ne_nan_of_place? (place?_add_finite s (!t) m n)

theorem nearestPlace_signedUnits (s : Bool) (m : Magnitude) :
    nearestPlace (signedUnits s m) 1 = signedUnits s m := by
  have hexact := nearestUnits_exact Nat.one_pos m.isPrecise
  have hbound := m.bounded
  rw [Nat.mul_one] at hexact
  cases s with
  | false =>
    rw [signedUnits_false, nearestPlace, Int.natAbs_natCast, hexact]
    omega
  | true =>
    rw [signedUnits_true, nearestPlace, Int.natAbs_neg, Int.natAbs_natCast, hexact]
    omega

theorem highest_add (hy : le 0 y = true) : infinity false + y = infinity false := by
  cases y with
  | nan => exact absurd rfl (ne_nan_of_le hy)
  | infinity negative =>
    obtain rfl := eq_false_of_zero_le_infinity hy
    rfl
  | finite s m => rfl

/- A sum is rounded to no less than its first part, as that is a value itself. -/
theorem le_add (hx : le 0 x = true) (hy : le 0 y = true) : x.le (x + y) = true := by
  cases x with
  | nan => exact absurd rfl (ne_nan_of_le hx)
  | infinity negative =>
    obtain rfl := eq_false_of_zero_le_infinity hx
    rw [highest_add hy]
    exact le_refl_of_ne_nan nofun
  | finite s m =>
    cases y with
    | nan => exact absurd rfl (ne_nan_of_le hy)
    | infinity negative =>
      obtain rfl := eq_false_of_zero_le_infinity hy
      exact le_highest nofun
    | finite t n =>
      obtain ⟨b, hb, hnonneg⟩ := zero_le_iff.1 hy
      rw [place?, Option.some.injEq] at hb
      refine le_iff.2 ⟨_, _, rfl, place?_add_finite s t m n, ?_⟩
      calc signedUnits s m = nearestPlace (signedUnits s m) 1 :=
            (nearestPlace_signedUnits s m).symm
        _ ≤ nearestPlace (signedUnits s m + signedUnits t n) 1 :=
            nearestPlace_mono Nat.one_pos (by omega)

theorem zero_le_add (hx : le 0 x = true) (hy : le 0 y = true) : le 0 (x + y) = true :=
  le_trans hx (le_add hx hy)

theorem sub_le (hx : x.isFinite = true) (hy : le 0 y = true) : (x - y).le x = true := by
  cases x with
  | nan => contradiction
  | infinity negative => contradiction
  | finite s m =>
    cases y with
    | nan => exact absurd rfl (ne_nan_of_le hy)
    | infinity negative =>
      obtain rfl := eq_false_of_zero_le_infinity hy
      exact lowest_le nofun
    | finite t n =>
      obtain ⟨b, hb, hnonneg⟩ := zero_le_iff.1 hy
      rw [place?, Option.some.injEq] at hb
      refine le_iff.2 ⟨_, _, place?_add_finite s (!t) m n, rfl, ?_⟩
      calc nearestPlace (signedUnits s m + signedUnits (!t) n) 1 ≤
            nearestPlace (signedUnits s m) 1 := by
              rw [signedUnits_not]
              exact nearestPlace_mono Nat.one_pos (by omega)
        _ = signedUnits s m := nearestPlace_signedUnits s m

theorem sub_ne_highest (hx : x.isFinite = true) (hy : le 0 y = true) :
    x - y ≠ infinity false := by
  intro hsub
  have hle := sub_le hx hy
  rw [hsub] at hle
  rw [eq_highest_of_le hle] at hx
  contradiction

/-! ### Quotients -/

theorem nearestPlace_anti {total : Int} {a b : Nat} (htotal : 0 ≤ total) (ha : 0 < a)
    (h : a ≤ b) : nearestPlace total b ≤ nearestPlace total a := by
  have hunits := nearestUnits_anti total.natAbs ha h
  simp only [nearestPlace, if_neg (Int.not_lt.2 htotal)]
  omega

theorem div_anti (hx : le 0 x = true) (hy : lt 0 y = true) (hz : z.isFinite = true)
    (h : y.le z = true) : (x / z).le (x / y) = true := by
  obtain ⟨n, rfl, hn⟩ := exists_of_pos hz (lt_of_lt_of_le hy h)
  have hfinite : y ≠ infinity false := by
    rintro rfl
    exact absurd (eq_highest_of_le h) nofun
  obtain ⟨m, rfl, hm⟩ := exists_of_pos (isFinite_of_pos hy hfinite) hy
  rw [le_finite, signedUnits_false, signedUnits_false, decide_eq_true_eq] at h
  cases x with
  | nan => exact absurd rfl (ne_nan_of_le hx)
  | infinity negative => exact le_refl_of_ne_nan (x := infinity (negative != false)) nofun
  | finite s k =>
    obtain ⟨a, ha, hnonneg⟩ := zero_le_iff.1 hx
    rw [place?, Option.some.injEq] at ha
    refine le_iff.2 ⟨_, _, place?_div_finite s k hn, place?_div_finite s k hm, ?_⟩
    refine nearestPlace_anti ?_ hm (by omega)
    exact Int.mul_nonneg (by omega) (Int.natCast_nonneg _)

/- Nothing but zeros and not-a-number comes of a division by infinity. -/
theorem div_highest (x : Binary64) :
    x / infinity false = nan ∨ ∃ negative, x / infinity false = signedZero negative := by
  cases x with
  | nan => exact Or.inl rfl
  | infinity negative => exact Or.inl rfl
  | finite s m => exact Or.inr ⟨_, rfl⟩

end Binary64

end VirtualPrinter
