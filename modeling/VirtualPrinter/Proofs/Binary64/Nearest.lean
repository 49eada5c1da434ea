import Mathlib.Algebra.Order.Field.Basic
import Mathlib.Data.Nat.Dist
import VirtualPrinter.Proofs.Binary64.Whole

/-!
# Rounding is to the nearest

A rounded quotient is nearer to the exact one than every other count of at most 53 significant bits,
or as near as another one and even in its last place. The value of a fraction is therefore the
nearest of all finite values, and it is infinite from halfway beyond the greatest of them on.
-/

namespace VirtualPrinter

/-! ### Neighbours of a quotient -/

theorem lastPlace_two_pow (e : Nat) : lastPlace (2 ^ (52 + e)) = e := by
  simp only [lastPlace, Nat.log2_two_pow]
  omega

theorem lastPlace_scaled_le {k e : Nat} (h : k < 2 ^ 53) : lastPlace (k * 2 ^ e) ≤ e := by
  by_cases hzero : k * 2 ^ e = 0
  · rw [hzero]
    exact Nat.zero_le _
  · have hlt : k * 2 ^ e < 2 ^ (53 + e) := by
      rw [Nat.pow_add]
      exact Nat.mul_lt_mul_of_pos_right h (Nat.two_pow_pos e)
    have hlog := (Nat.log2_lt hzero).2 hlt
    simp only [lastPlace]
    omega

/-- The last of 53 significant bits is zero. -/
def EvenPlace (u : Nat) : Prop := 2 ^ (lastPlace u + 1) ∣ u

theorem evenPlace_scaled {k e : Nat} (h : k ≤ 2 ^ 53) (heven : k % 2 = 0) :
    EvenPlace (k * 2 ^ e) := by
  unfold EvenPlace
  by_cases htop : k = 2 ^ 53
  · have hplace := lastPlace_two_pow (e + 1)
    rw [htop, ← Nat.pow_add, show 53 + e = 52 + (e + 1) by omega, hplace]
    exact Nat.pow_dvd_pow 2 (by omega)
  · have hplace := lastPlace_scaled_le (k := k) (e := e) (by omega)
    have hdvd : 2 ^ (e + 1) ∣ k * 2 ^ e := by
      rw [Nat.pow_add, Nat.pow_one, Nat.mul_comm]
      exact Nat.mul_dvd_mul_right (Nat.dvd_of_mod_eq_zero heven) _
    exact (Nat.pow_dvd_pow 2 (by omega)).trans hdvd

theorem not_evenPlace_scaled {k e : Nat} (h : 2 ^ 52 ≤ k) (hodd : k % 2 = 1) :
    ¬ EvenPlace (k * 2 ^ e) := by
  have hplace := lastPlace_mono (Nat.mul_le_mul_right (2 ^ e) h)
  rw [← Nat.pow_add, lastPlace_two_pow] at hplace
  intro heven
  have hdvd := (Nat.pow_dvd_pow 2 (Nat.succ_le_succ hplace)).trans heven
  rw [Nat.pow_succ, Nat.mul_comm] at hdvd
  have htwo := Nat.dvd_of_mul_dvd_mul_right (Nat.two_pow_pos e) hdvd
  omega

/- Between two neighbouring multiples of its last place around a number there is no precise count: a
count beyond the lower one is a multiple of that place as well. -/
theorem precise_outside {u : Nat} (hu : Precise u) (n : Nat) :
    u ≤ n / 2 ^ lastPlace n * 2 ^ lastPlace n ∨
      (n / 2 ^ lastPlace n + 1) * 2 ^ lastPlace n ≤ u := by
  by_cases hle : u ≤ n / 2 ^ lastPlace n * 2 ^ lastPlace n
  · exact Or.inl hle
  · have hplace : lastPlace n ≤ lastPlace (n / 2 ^ lastPlace n * 2 ^ lastPlace n) := by
      by_cases hzero : lastPlace n = 0
      · omega
      · have hfar := two_pow_le_of_lastPlace (n := n) rfl (Or.inr (by omega))
        rw [Nat.pow_add] at hfar
        have hdiv := (Nat.le_div_iff_mul_le (Nat.two_pow_pos _)).2 hfar
        have hmono := lastPlace_mono (Nat.mul_le_mul_right (2 ^ lastPlace n) hdiv)
        rwa [← Nat.pow_add, lastPlace_two_pow] at hmono
    obtain ⟨j, hj⟩ :=
      (Nat.pow_dvd_pow 2 hplace).trans (precise_dvd hu (Nat.le_of_lt (Nat.lt_of_not_le hle)))
    generalize 2 ^ lastPlace n = step at hle hj ⊢
    rw [hj, Nat.mul_comm step j] at hle ⊢
    have hlt := Nat.lt_of_mul_lt_mul_right (Nat.lt_of_not_le hle)
    exact Or.inr (Nat.mul_le_mul_right step hlt)

/-! ### The nearest count -/

/- The rounded quotient is compared with what lies outside of the two whole numbers around. -/
theorem roundQuotient_nearest {num den b : Nat} (hd : 0 < den)
    (houtside : b ≤ num / den * den ∨ (num / den + 1) * den ≤ b)
    (hne : b ≠ roundQuotient num den * den) :
    (roundQuotient num den * den).dist num < b.dist num ∨
      (roundQuotient num den * den).dist num = b.dist num ∧ roundQuotient num den % 2 = 0 := by
  have hdiv := Nat.div_add_mod num den
  have hmod := Nat.mod_lt num hd
  rw [Nat.mul_comm] at hdiv
  simp only [roundQuotient, Nat.dist] at hne ⊢
  split
  · rename_i hkeep
    rw [if_pos hkeep] at hne
    rw [Nat.add_mul] at houtside
    generalize num / den * den = low at *
    omega
  · rename_i hup
    rw [if_neg hup] at hne
    rw [Nat.add_mul] at houtside hne ⊢
    generalize num / den * den = low at *
    omega

theorem nearestUnits_nearest (num : Nat) {den u : Nat} (hd : 0 < den) (hu : Precise u)
    (hne : u ≠ nearestUnits num den) :
    (nearestUnits num den * den).dist num < (u * den).dist num ∨
      (nearestUnits num den * den).dist num = (u * den).dist num ∧
        EvenPlace (nearestUnits num den) := by
  have houtside := precise_outside hu (num / den)
  have hround := roundQuotient_lastPlace_le num den
  simp only [nearestUnits] at hne ⊢
  generalize lastPlace (num / den) = e at houtside hround hne ⊢
  have hscale : ∀ k, k * 2 ^ e * den = k * (den * 2 ^ e) := fun k => by ring
  have hmul : u * den ≤ num / (den * 2 ^ e) * (den * 2 ^ e) ∨
      (num / (den * 2 ^ e) + 1) * (den * 2 ^ e) ≤ u * den := by
    rw [Nat.div_div_eq_div_mul] at houtside
    rw [← hscale, ← hscale]
    exact houtside.imp (Nat.mul_le_mul_right den) (Nat.mul_le_mul_right den)
  rw [hscale]
  rcases roundQuotient_nearest (Nat.mul_pos hd (Nat.two_pow_pos e)) hmul (by
    rw [← hscale]
    intro heq
    exact hne (Nat.eq_of_mul_eq_mul_right hd heq)) with hlt | ⟨heq, heven⟩
  · exact Or.inl hlt
  · exact Or.inr ⟨heq, evenPlace_scaled hround heven⟩

/-! ### Overflow -/

theorem overflowUnits_split : overflowUnits = 2 ^ 53 * 2 ^ (971 + oneExponent) := by
  rw [overflowUnits, ← Nat.pow_add]
  congr 1

theorem precise_overflowUnits : Precise overflowUnits := by
  rw [overflowUnits_split]
  exact precise_scaled le_rfl

/-- The units of the greatest finite value. -/
def greatestUnits : Nat := (2 ^ 53 - 1) * 2 ^ (971 + oneExponent)

theorem precise_greatestUnits : Precise greatestUnits := by
  unfold greatestUnits
  exact precise_scaled (by omega)

theorem greatestUnits_add : greatestUnits + 2 ^ (971 + oneExponent) = overflowUnits := by
  rw [overflowUnits_split, greatestUnits]
  omega

theorem greatestUnits_lt : greatestUnits < overflowUnits := by
  rw [← greatestUnits_add]
  exact Nat.lt_add_of_pos_right (Nat.two_pow_pos _)

theorem Precise.le_greatestUnits {u : Nat} (hu : Precise u) (h : u < overflowUnits) :
    u ≤ greatestUnits := by
  have hgap := precise_gap hu precise_overflowUnits h
  rw [overflowUnits_split] at hgap
  rw [greatestUnits]
  generalize 2 ^ (971 + oneExponent) = step at hgap ⊢
  omega

theorem not_evenPlace_greatestUnits : ¬ EvenPlace greatestUnits := by
  unfold greatestUnits
  exact not_evenPlace_scaled (by omega) (by omega)

/-- The number from which on values overflow, halfway between the greatest finite value and
`2^1024`. -/
def overflowBound : Nat := (2 ^ 54 - 1) * 2 ^ 970

theorem two_mul_overflowBound :
    2 * (overflowBound * unitsPerOne) = greatestUnits + overflowUnits := by
  have hstep : 2 ^ (971 + oneExponent) = 2 * (2 ^ 970 * unitsPerOne) := by
    rw [unitsPerOne, ← Nat.pow_add 2 970, show 971 + oneExponent = 970 + oneExponent + 1 by omega,
      Nat.pow_succ, Nat.mul_comm]
  rw [overflowUnits_split, greatestUnits, overflowBound, hstep, Nat.mul_assoc]
  generalize 2 ^ 970 * unitsPerOne = half
  omega

theorem overflowBound_pos : 0 < overflowBound := by
  apply Nat.pos_of_ne_zero
  intro hzero
  have hdouble := two_mul_overflowBound
  have hover := overflowUnits_pos
  rw [hzero, Nat.zero_mul] at hdouble
  omega

/- Halfway the greatest finite value is as near as the threshold, but its last place is odd. -/
theorem nearestUnits_overflow_iff {num den : Nat} (hd : 0 < den) :
    overflowUnits ≤ nearestUnits num den ↔ overflowBound * unitsPerOne * den ≤ num := by
  have hhalf : 2 * (overflowBound * unitsPerOne * den) =
      greatestUnits * den + overflowUnits * den := by
    rw [← Nat.add_mul, ← two_mul_overflowBound, Nat.mul_assoc 2]
  have hlt := Nat.mul_lt_mul_of_pos_right greatestUnits_lt hd
  constructor
  · intro hover
    have hne : greatestUnits ≠ nearestUnits num den := by
      have hgreatest := greatestUnits_lt
      omega
    have hfar := Nat.mul_le_mul_right den hover
    have hnear := nearestUnits_nearest num hd precise_greatestUnits hne
    simp only [Nat.dist] at hnear
    omega
  · intro hnum
    by_contra hover
    have hprecise : Precise (nearestUnits num den) := nearestUnits_precise num den
    have hle := hprecise.le_greatestUnits (by omega)
    have hbelow := Nat.mul_le_mul_right den hle
    have hnear := nearestUnits_nearest num hd precise_overflowUnits (by omega)
    simp only [Nat.dist] at hnear
    rcases hnear with hless | ⟨hsame, heven⟩
    · omega
    · have hgreatest : nearestUnits num den * den = greatestUnits * den := by omega
      rw [Nat.eq_of_mul_eq_mul_right hd hgreatest] at heven
      exact not_evenPlace_greatestUnits heven

/- Numbers of the other sign lie beyond zero. -/
theorem nearestUnits_nearest_int {num den : Nat} {a : Int} (hd : 0 < den)
    (ha : Precise a.natAbs) (hne : a ≠ nearestUnits num den) :
    ((nearestUnits num den : Int) * den - num).natAbs < (a * den - num).natAbs ∨
      ((nearestUnits num den : Int) * den - num).natAbs = (a * den - num).natAbs ∧
        EvenPlace (nearestUnits num den) := by
  have hdist : ∀ u : Nat, ((u : Int) * den - num).natAbs = (u * den).dist num := by
    intro u
    rw [← Int.natCast_mul]
    simp only [Nat.dist]
    omega
  rw [hdist]
  by_cases hneg : a < 0
  · have hbeyond : a * den < 0 := Int.mul_neg_of_neg_of_pos hneg (Int.natCast_pos.2 hd)
    have hzero : (nearestUnits num den * den).dist num ≤ num := by
      by_cases hr : nearestUnits num den = 0
      · simp [hr, Nat.dist]
      · have hnear := nearestUnits_nearest num (u := 0) hd (precise_of_le (Nat.zero_le _))
          (Ne.symm hr)
        simp only [Nat.dist] at hnear ⊢
        omega
    omega
  · obtain ⟨u, rfl⟩ := Int.eq_ofNat_of_zero_le (Int.not_lt.1 hneg)
    rw [hdist]
    exact nearestUnits_nearest num hd ha fun h => hne (congrArg _ h)

namespace Binary64

/-! ### The nearest value -/

/-- The values nearest to a number: no finite value is nearer, and one that is as near is there only
when the last place is even. From halfway between the greatest finite value and `2^1024` on they are
infinite. -/
inductive IsNearest : Binary64 → ℚ → Prop
  | finite {s : Bool} {m : Magnitude} {q : ℚ} (hrange : |q| < overflowBound)
      (hnear : ∀ t n, signedUnits t n ≠ signedUnits s m →
        |(finite s m).toRat - q| < |(finite t n).toRat - q| ∨
          |(finite s m).toRat - q| = |(finite t n).toRat - q| ∧ EvenPlace m.units) :
      IsNearest (finite s m) q
  | infinite {q : ℚ} (hrange : overflowBound ≤ |q|) : IsNearest (infinity (q < 0)) q

theorem abs_signed {q : ℚ} (negative : Bool) (h : 0 ≤ q) :
    |if negative then -q else q| = q := by
  cases negative with
  | false => exact abs_of_nonneg h
  | true => exact (abs_neg q).trans (abs_of_nonneg h)

theorem abs_sub_fraction (a : Int) {num den : Nat} (hd : 0 < den) :
    |(a : ℚ) / unitsPerOne - num / den| =
      (a * den - (num * unitsPerOne : Nat) : Int).natAbs / (unitsPerOne * den) := by
  have hunits := units_cast_pos
  have hden : (0 : ℚ) < den := Nat.cast_pos.2 hd
  have hdiff : (a : ℚ) / unitsPerOne - num / den =
      (a * den - (num * unitsPerOne : Nat) : Int) / (unitsPerOne * den) := by
    rw [div_sub_div _ _ hunits.ne' hden.ne']
    push_cast
    ring
  rw [hdiff, abs_div, abs_of_pos (mul_pos hunits hden), Nat.cast_natAbs, Int.cast_abs]

/- Both signs are taken off at once, so that distances are distances of counts. -/
theorem abs_sub_signed (negative : Bool) (a : Int) {num den : Nat} (hd : 0 < den) :
    |(a : ℚ) / unitsPerOne - (if negative then -(num / den) else num / den : ℚ)| =
      ((if negative then -a else a) * den - (num * unitsPerOne : Nat) : Int).natAbs /
        (unitsPerOne * den) := by
  cases negative with
  | false => exact abs_sub_fraction a hd
  | true =>
    rw [if_pos rfl, if_pos rfl, ← abs_sub_fraction (-a) hd, ← abs_neg]
    push_cast
    congr 1
    ring

theorem natAbs_signedUnits (negative : Bool) (m : Magnitude) :
    (signedUnits negative m).natAbs = m.units := by
  cases negative <;> simp [signedUnits]

theorem signedUnits_unsigned (negative : Bool) (m : Magnitude) :
    (if negative then -signedUnits negative m else signedUnits negative m) = m.units := by
  cases negative <;> simp [signedUnits]

theorem ofRatio_isNearest (negative : Bool) (num : Nat) {den : Nat} (hd : 0 < den) :
    (ofRatio negative num den).IsNearest (if negative then -(num / den) else num / den) := by
  have hden : (0 : ℚ) < den := Nat.cast_pos.2 hd
  have hscale : (0 : ℚ) < unitsPerOne * den := mul_pos units_cast_pos hden
  have hnonneg : (0 : ℚ) ≤ num / den := div_nonneg (Nat.cast_nonneg _) hden.le
  have habs := abs_signed negative hnonneg
  have hover : overflowUnits ≤ nearestUnits (num * unitsPerOne) den ↔
      (overflowBound : ℚ) ≤ num / den := by
    rw [nearestUnits_overflow_iff hd, Nat.mul_right_comm, Nat.mul_le_mul_right_iff unitsPerOne_pos,
      le_div_iff₀ hden, ← Nat.cast_mul, Nat.cast_le]
  unfold ofRatio
  by_cases hfinite : nearestUnits (num * unitsPerOne) den < overflowUnits
  · obtain ⟨m, hm, hunits⟩ := nearest_finite negative hfinite
    rw [hm]
    refine .finite ?_ ?_
    · rw [habs]
      exact not_le.1 fun h => Nat.not_le_of_lt hfinite (hover.2 h)
    · intro t n hne
      have hne' : (if negative then -signedUnits t n else signedUnits t n) ≠ m.units := by
        rw [← signedUnits_unsigned negative m]
        cases negative with
        | false => exact hne
        | true => exact fun h => hne (Int.neg_inj.1 h)
      have hprecise : Precise (if negative then -signedUnits t n else signedUnits t n).natAbs := by
        cases negative <;> simp [natAbs_signedUnits, n.isPrecise]
      rw [hunits] at hne'
      simp only [toRat, abs_sub_signed negative _ hd, signedUnits_unsigned, hunits,
        div_lt_div_iff_of_pos_right hscale, div_left_inj' hscale.ne', Nat.cast_lt, Nat.cast_inj]
      exact nearestUnits_nearest_int hd hprecise hne'
  · have hlarge := hover.1 (Nat.le_of_not_lt hfinite)
    have hpos : (0 : ℚ) < num / den := (Nat.cast_pos.2 overflowBound_pos).trans_le hlarge
    have hsign : negative = decide ((if negative then -(num / den) else num / den : ℚ) < 0) := by
      cases negative <;> simp [hpos, hnonneg]
    rw [nearest, dif_neg hfinite]
    nth_rewrite 1 [hsign]
    exact .infinite (by rwa [habs])

end Binary64

end VirtualPrinter
