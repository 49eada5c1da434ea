import VirtualPrinter.Binary64.Rounding
import Mathlib.Tactic.Linarith
import Mathlib.Tactic.Ring

/-!
# Rounding against bounds

A rounded quotient keeps every bound of at most 53 significant bits that the exact quotient keeps,
so it is exact on those counts and depends on the value of the quotient alone. Where the quotient
has 53 significant bits it errs by at most one part in `2^53`.
-/

namespace VirtualPrinter

/-- At most 53 significant bits, as every magnitude has. -/
def Precise (u : Nat) : Prop := 2 ^ lastPlace u ∣ u

theorem Magnitude.isPrecise (m : Magnitude) : Precise m.units := m.precise

theorem precise_scaled {k e : Nat} (h : k ≤ 2 ^ 53) : Precise (k * 2 ^ e) :=
  precise_mul_two_pow h

theorem precise_of_le {u : Nat} (h : u ≤ 2 ^ 53) : Precise u := by
  have hs : Precise (u * 2 ^ 0) := precise_scaled h
  rwa [Nat.pow_zero, Nat.mul_one] at hs

/-! ### Last places -/

theorem lastPlace_mono {a b : Nat} (h : a ≤ b) : lastPlace a ≤ lastPlace b := by
  by_cases ha : a = 0
  · subst ha
    simp [lastPlace]
  · have hb : b ≠ 0 := by omega
    have hlog : a.log2 ≤ b.log2 := (Nat.le_log2 hb).2 ((Nat.log2_self_le ha).trans h)
    simp only [lastPlace]
    omega

theorem two_pow_le_of_lastPlace {n e : Nat} (h : lastPlace n = e) (he : 2 ^ 52 ≤ n ∨ 0 < e) :
    2 ^ (52 + e) ≤ n := by
  have hn : n ≠ 0 := by
    rcases he with he | he
    · have hp := Nat.two_pow_pos 52
      omega
    · intro h0
      simp [lastPlace, h0] at h
      omega
  apply (Nat.le_log2 hn).1
  simp only [lastPlace] at h
  rcases he with he | he
  · have hl := (Nat.le_log2 hn).2 he
    omega
  · omega

theorem precise_dvd {a b : Nat} (hb : Precise b) (h : a ≤ b) : 2 ^ lastPlace a ∣ b :=
  (Nat.pow_dvd_pow 2 (lastPlace_mono h)).trans hb

/- Of two precise counts the smaller one stays below the greater by a 53rd binary place of it: both
are multiples of the last place of the smaller, of which it has less than `2^53`. -/
theorem precise_gap {a b : Nat} (ha : Precise a) (hb : Precise b) (h : a < b) :
    2 ^ 53 * a ≤ (2 ^ 53 - 1) * b := by
  have ht := lt_two_pow_lastPlace a
  obtain ⟨k, hk⟩ := ha
  obtain ⟨j, hj⟩ := precise_dvd hb h.le
  generalize lastPlace a = e at ht hk hj
  have hlt : k < 2 ^ 53 := by
    rw [hk, Nat.pow_add, Nat.mul_comm] at ht
    exact Nat.lt_of_mul_lt_mul_right ht
  have hkj : k < j := by
    rw [hk, hj] at h
    exact Nat.lt_of_mul_lt_mul_left h
  have hcount : 2 ^ 53 * k ≤ (2 ^ 53 - 1) * j := by omega
  calc 2 ^ 53 * a = 2 ^ e * (2 ^ 53 * k) := by
        rw [hk]
        ring
    _ ≤ 2 ^ e * ((2 ^ 53 - 1) * j) := Nat.mul_le_mul_left _ hcount
    _ = (2 ^ 53 - 1) * b := by
        rw [hj]
        ring

/-! ### Whole numbers nearest to a quotient -/

theorem roundQuotient_le {num den k : Nat} (h : 2 * num < (2 * k + 1) * den) :
    roundQuotient num den ≤ k := by
  have hdiv := Nat.div_add_mod num den
  by_cases hk : num / den < k
  · exact (roundQuotient_le_succ num den).trans hk
  · have hle : den * k ≤ den * (num / den) := Nat.mul_le_mul_left _ (by omega)
    have hexp : (2 * k + 1) * den = 2 * (den * k) + den := by ring
    have hsmall : 2 * (num % den) < den := by omega
    have heq : num / den = k := by
      by_contra hne
      have hmore : den * (k + 1) ≤ den * (num / den) := Nat.mul_le_mul_left _ (by omega)
      rw [Nat.mul_add, Nat.mul_one] at hmore
      omega
    simp only [roundQuotient, hsmall, true_or, if_true, heq, Nat.le_refl]

theorem le_roundQuotient {num den k : Nat} (hd : 0 < den) (h : k * den ≤ num) :
    k ≤ roundQuotient num den :=
  ((Nat.le_div_iff_mul_le hd).2 h).trans (div_le_roundQuotient num den)

/- The rounded quotient passes the exact one by half a step at most. -/
theorem roundQuotient_half (num den : Nat) :
    2 * (roundQuotient num den * den) ≤ 2 * num + den := by
  have hdiv := Nat.div_add_mod num den
  have hcomm : num / den * den = den * (num / den) := Nat.mul_comm _ _
  simp only [roundQuotient]
  split
  · omega
  · rename_i hup
    rw [Nat.add_mul, Nat.one_mul]
    omega

theorem roundQuotient_scale (num den : Nat) {c : Nat} (hc : 0 < c) :
    roundQuotient (num * c) (den * c) = roundQuotient num den := by
  have hlt : 2 * (num % den) * c < den * c ↔ 2 * (num % den) < den := Nat.mul_lt_mul_right hc
  have heq : 2 * (num % den) * c = den * c ↔ 2 * (num % den) = den :=
    Nat.mul_left_inj hc.ne'
  simp only [roundQuotient, Nat.mul_div_mul_right _ _ hc, Nat.mul_mod_mul_right, ← Nat.mul_assoc,
    hlt, heq]

/-! ### Units nearest to a quotient -/

theorem nearestUnits_le {num den u : Nat} (hd : 0 < den) (hu : Precise u) (h : num ≤ u * den) :
    nearestUnits num den ≤ u := by
  have hq : num / den ≤ u := by
    have hle := Nat.div_le_div_right (c := den) h
    rwa [Nat.mul_div_cancel _ hd] at hle
  obtain ⟨k, hk⟩ := precise_dvd hu hq
  simp only [nearestUnits]
  generalize lastPlace (num / den) = e at hk ⊢
  have hstep : 0 < den * 2 ^ e := Nat.mul_pos hd (Nat.two_pow_pos _)
  have hround : roundQuotient num (den * 2 ^ e) ≤ k := by
    apply roundQuotient_le
    have hexp : (2 * k + 1) * (den * 2 ^ e) = 2 * (u * den) + den * 2 ^ e := by
      rw [hk]
      ring
    omega
  calc roundQuotient num (den * 2 ^ e) * 2 ^ e ≤ k * 2 ^ e := Nat.mul_le_mul_right _ hround
    _ = u := by rw [hk, Nat.mul_comm]

theorem le_nearestUnits {num den u : Nat} (hd : 0 < den) (hu : Precise u) (h : u * den ≤ num) :
    u ≤ nearestUnits num den := by
  have hq : u ≤ num / den := (Nat.le_div_iff_mul_le hd).2 h
  have hplace := lastPlace_mono hq
  have key : ∀ k, k * 2 ^ lastPlace (num / den) ≤ num / den →
      k * 2 ^ lastPlace (num / den) ≤ nearestUnits num den := by
    intro k hk
    simp only [nearestUnits]
    generalize lastPlace (num / den) = e at hk ⊢
    apply Nat.mul_le_mul_right
    apply le_roundQuotient (Nat.mul_pos hd (Nat.two_pow_pos _))
    have hmul := Nat.mul_le_mul_right den hk
    have hdiv := Nat.div_mul_le_self num den
    calc k * (den * 2 ^ e) = k * 2 ^ e * den := by ring
      _ ≤ num := hmul.trans hdiv
  by_cases heq : lastPlace u = lastPlace (num / den)
  · obtain ⟨k, hk⟩ := hu
    rw [heq, Nat.mul_comm] at hk
    have hb := key k (by rw [← hk]; exact hq)
    rwa [← hk] at hb
  · -- A coarser last place belongs to a quotient beyond the next power of two.
    have hfar := two_pow_le_of_lastPlace (n := num / den) rfl (Or.inr (by omega))
    have hpow : u < 2 ^ (52 + lastPlace (num / den)) :=
      (lt_two_pow_lastPlace u).trans_le (Nat.pow_le_pow_right (by omega) (by omega))
    have hb := key (2 ^ 52) (by rw [← Nat.pow_add]; exact hfar)
    rw [← Nat.pow_add] at hb
    omega

theorem nearestUnits_exact {u den : Nat} (hd : 0 < den) (hu : Precise u) :
    nearestUnits (u * den) den = u :=
  Nat.le_antisymm (nearestUnits_le hd hu le_rfl) (le_nearestUnits hd hu le_rfl)

theorem nearestUnits_scale (num den : Nat) {c : Nat} (hc : 0 < c) :
    nearestUnits (num * c) (den * c) = nearestUnits num den := by
  simp only [nearestUnits, Nat.mul_div_mul_right _ _ hc]
  generalize lastPlace (num / den) = e
  rw [Nat.mul_right_comm den c, roundQuotient_scale _ _ hc]

theorem nearestUnits_relative {num den : Nat} (hn : 2 ^ 52 ≤ num / den) :
    2 ^ 53 * (nearestUnits num den * den) ≤ (2 ^ 53 + 1) * num := by
  have hfar := two_pow_le_of_lastPlace (n := num / den) rfl (Or.inl hn)
  simp only [nearestUnits]
  generalize lastPlace (num / den) = e at hfar ⊢
  have hhalf := roundQuotient_half num (den * 2 ^ e)
  generalize roundQuotient num (den * 2 ^ e) = q at hhalf ⊢
  have hstep : 2 ^ 52 * (den * 2 ^ e) ≤ num := by
    calc 2 ^ 52 * (den * 2 ^ e) = 2 ^ (52 + e) * den := by
          rw [Nat.pow_add]
          ring
      _ ≤ num / den * den := Nat.mul_le_mul_right _ hfar
      _ ≤ num := Nat.div_mul_le_self num den
  have hmul : q * 2 ^ e * den = q * (den * 2 ^ e) := by ring
  rw [hmul]
  omega

namespace Binary64

/-! ### Values nearest to a quotient -/

theorem nearest_finite (negative : Bool) {num den : Nat}
    (h : nearestUnits num den < overflowUnits) :
    ∃ m, nearest negative num den = finite negative m ∧ m.units = nearestUnits num den :=
  ⟨⟨_, nearestUnits_precise num den, h⟩, dif_pos h, rfl⟩

theorem nearest_exact (negative : Bool) {u den : Nat} (hd : 0 < den) (hu : Precise u)
    (hb : u < overflowUnits) :
    ∃ m, nearest negative (u * den) den = finite negative m ∧ m.units = u := by
  have heq := nearestUnits_exact hd hu
  have hlt : nearestUnits (u * den) den < overflowUnits := by rwa [heq]
  obtain ⟨m, hm, hunits⟩ := nearest_finite negative hlt
  exact ⟨m, hm, hunits.trans heq⟩

end Binary64

end VirtualPrinter
