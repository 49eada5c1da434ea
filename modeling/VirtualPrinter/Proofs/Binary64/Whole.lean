import Mathlib.Algebra.Order.Field.Rat
import VirtualPrinter.Proofs.Binary64.Fraction

/-!
# Whole numbers as values

Whole numbers up to `2^53` are values, and their sums and differences in that range are not rounded.
Between finite values comparison is comparison of the exact values, which are fractions.
-/

namespace VirtualPrinter.Binary64

attribute [local irreducible] ofNat ofRatio

/-! ### Exact values -/

/-- The exact value of a finite value; what is not finite counts as zero. -/
def toRat : Binary64 → ℚ
  | finite negative m => signedUnits negative m / unitsPerOne
  | _ => 0

/-- A finite value that is the given whole number; zero has either sign. -/
def IsWhole (x : Binary64) (n : Int) : Prop := x.units? = .ok (n * unitsPerOne)

/-- The whole part of a finite value. -/
def wholeValue (x : Binary64) : Int :=
  match x.units? with
  | .ok units => units / unitsPerOne
  | .error _ => 0

variable {x y : Binary64} {a b : Int}

theorem units_cast_pos : (0 : ℚ) < unitsPerOne := Nat.cast_pos.2 unitsPerOne_pos

theorem units_int_pos : (0 : Int) < unitsPerOne := Int.natCast_pos.2 unitsPerOne_pos

theorem IsWhole.exists_finite (h : x.IsWhole a) :
    ∃ negative m, x = finite negative m ∧ signedUnits negative m = a * unitsPerOne := by
  unfold IsWhole at h
  cases x with
  | nan => contradiction
  | infinity negative => contradiction
  | finite negative m =>
    simp only [units?, Except.ok.injEq] at h
    exact ⟨negative, m, rfl, h⟩

theorem IsWhole.isFinite (h : x.IsWhole a) : x.isFinite = true := by
  obtain ⟨negative, m, rfl, _⟩ := h.exists_finite
  rfl

theorem IsWhole.wholeValue_eq (h : x.IsWhole a) : x.wholeValue = a := by
  unfold IsWhole at h
  simp only [wholeValue, h]
  exact Int.mul_ediv_cancel a units_int_pos.ne'

theorem IsWhole.toRat_eq (h : x.IsWhole a) : x.toRat = a := by
  obtain ⟨negative, m, rfl, hunits⟩ := h.exists_finite
  simp only [toRat, hunits, Int.cast_mul, Int.cast_natCast]
  exact mul_div_cancel_right₀ _ units_cast_pos.ne'

theorem lt_iff_toRat (hx : x.isFinite = true) (hy : y.isFinite = true) :
    x.lt y = true ↔ x.toRat < y.toRat := by
  cases x with
  | nan => contradiction
  | infinity negative => contradiction
  | finite negative m =>
    cases y with
    | nan => contradiction
    | infinity negative => contradiction
    | finite sign n =>
      simp only [lt, place?, toRat, decide_eq_true_eq, div_lt_div_iff_of_pos_right units_cast_pos,
        Int.cast_lt]

theorem IsWhole.place?_eq (h : x.IsWhole a) : x.place? = some (a * unitsPerOne) := by
  obtain ⟨negative, m, rfl, hunits⟩ := h.exists_finite
  rw [place?, hunits]

/- A whole number other than zero is one value only. -/
theorem IsWhole.eq_of_ne_zero (hx : x.IsWhole a) (hy : y.IsWhole a) (ha : a ≠ 0) : x = y := by
  obtain ⟨s, m, rfl, hm⟩ := hx.exists_finite
  obtain ⟨t, n, rfl, hn⟩ := hy.exists_finite
  have hne : a * (unitsPerOne : Int) ≠ 0 := Int.mul_ne_zero ha units_int_pos.ne'
  have hst : s = t ∧ m.units = n.units := by
    cases s <;> cases t <;> simp only [signedUnits, Bool.false_eq_true, if_true, if_false] at hm hn
    · exact ⟨rfl, by omega⟩
    · omega
    · omega
    · exact ⟨rfl, by omega⟩
  obtain ⟨rfl, hunits⟩ := hst
  cases m
  cases n
  cases hunits
  rfl

theorem isWhole_ofNat {n : Nat} (h : n ≤ 2 ^ 53) : (ofNat n).IsWhole n := by
  obtain ⟨m, hm, hunits⟩ := exists_ofNat h
  rw [IsWhole, hm]
  simp only [units?, signedUnits, hunits, Bool.false_eq_true, if_false, Nat.cast_mul]

theorem toRat_pos (hx : x.isFinite = true) (h : lt 0 x = true) : 0 < x.toRat := by
  obtain ⟨m, rfl, hpos⟩ := exists_of_pos hx h
  simp only [toRat, signedUnits, Bool.false_eq_true, if_false, Int.cast_natCast]
  exact div_pos (Nat.cast_pos.2 hpos) units_cast_pos

/-! ### Sums and differences -/

theorem nearest_whole {n : Int} (h : n.natAbs ≤ 2 ^ 53) :
    (nearest (n * unitsPerOne < 0) (n * unitsPerOne).natAbs 1).IsWhole n := by
  have hpos := units_int_pos
  rw [Int.natAbs_mul, Int.natAbs_natCast]
  obtain ⟨m, hm, hunits⟩ := nearest_exact (decide (n * (unitsPerOne : Int) < 0)) Nat.one_pos
    (precise_whole h) (whole_lt_overflowUnits h)
  rw [Nat.mul_one] at hm
  unfold IsWhole
  rw [hm]
  simp only [units?, signedUnits, hunits, Nat.cast_mul, Except.ok.injEq, decide_eq_true_eq]
  by_cases hn : n < 0
  · have habs : (n.natAbs : Int) = -n := by omega
    rw [if_pos (Int.mul_neg_of_neg_of_pos hn hpos), habs, Int.neg_mul, Int.neg_neg]
  · have hnot : ¬ n * (unitsPerOne : Int) < 0 :=
      Int.not_lt.2 (Int.mul_nonneg (by omega) hpos.le)
    have habs : (n.natAbs : Int) = n := by omega
    rw [if_neg hnot, habs]

theorem isWhole_signedZero (negative : Bool) : (signedZero negative).IsWhole 0 := by
  rw [IsWhole, Int.zero_mul]
  cases negative <;> rfl

theorem IsWhole.add (hx : x.IsWhole a) (hy : y.IsWhole b) (h : (a + b).natAbs ≤ 2 ^ 53) :
    (x + y).IsWhole (a + b) := by
  obtain ⟨s, m, rfl, hm⟩ := hx.exists_finite
  obtain ⟨t, n, rfl, hn⟩ := hy.exists_finite
  have hsum : signedUnits s m + signedUnits t n = (a + b) * unitsPerOne := by
    rw [hm, hn, Int.add_mul]
  change (add (finite s m) (finite t n)).IsWhole (a + b)
  simp only [Binary64.add, hsum]
  split
  · rename_i hzero
    have hab : a + b = 0 := (Int.mul_eq_zero.1 hzero).resolve_right units_int_pos.ne'
    rw [hab]
    exact isWhole_signedZero _
  · exact nearest_whole h

theorem IsWhole.neg (hx : x.IsWhole a) : (neg x).IsWhole (-a) := by
  obtain ⟨s, m, rfl, hm⟩ := hx.exists_finite
  simp only [IsWhole, Binary64.neg, units?, signedUnits_not, hm, Int.neg_mul]

theorem IsWhole.sub (hx : x.IsWhole a) (hy : y.IsWhole b) (h : (a - b).natAbs ≤ 2 ^ 53) :
    (x - y).IsWhole (a - b) :=
  hx.add hy.neg h

theorem isWhole_ofInt {n : Int} (h : n.natAbs ≤ 2 ^ 53) : (ofInt n).IsWhole n := by
  have hnearest := nearest_whole h
  have hpos := units_int_pos
  have hsign : decide (n < 0) = decide (n * (unitsPerOne : Int) < 0) := by
    rw [decide_eq_decide]
    constructor
    · intro hn
      exact Int.mul_neg_of_neg_of_pos hn hpos
    · intro hn
      exact neg_of_mul_neg_left hn hpos.le
  unfold ofInt ofRatio
  rw [Int.natAbs_mul, Int.natAbs_natCast, ← hsign] at hnearest
  exact hnearest

theorem exists_ofInt {n : Int} (h : n.natAbs ≤ 2 ^ 53) :
    ∃ m, ofInt n = finite (decide (n < 0)) m ∧
      signedUnits (decide (n < 0)) m = n * unitsPerOne := by
  obtain ⟨m, hm, -⟩ := nearest_exact (decide (n < 0)) Nat.one_pos (precise_whole h)
    (whole_lt_overflowUnits h)
  rw [Nat.mul_one] at hm
  have heq : ofInt n = finite (decide (n < 0)) m := by
    unfold ofInt ofRatio
    exact hm
  have hwhole := isWhole_ofInt h
  rw [heq, IsWhole, units?, Except.ok.injEq] at hwhole
  exact ⟨m, heq, hwhole⟩

theorem ofInt_zero : ofInt 0 = signedZero false := by decide +kernel

/- Where the sum is zero one part is not negative, so that no sum is the negative zero. -/
theorem ofInt_add (ha : a.natAbs ≤ 2 ^ 53) (hb : b.natAbs ≤ 2 ^ 53)
    (h : (a + b).natAbs ≤ 2 ^ 53) : ofInt a + ofInt b = ofInt (a + b) := by
  by_cases hzero : a + b = 0
  · obtain ⟨m, hm, hmunits⟩ := exists_ofInt ha
    obtain ⟨n, hn, hnunits⟩ := exists_ofInt hb
    have hunits : signedUnits (decide (a < 0)) m + signedUnits (decide (b < 0)) n = 0 := by
      rw [hmunits, hnunits, ← Int.add_mul, hzero, Int.zero_mul]
    have hsign : (decide (a < 0) && decide (b < 0)) = false := by
      rw [Bool.and_eq_false_iff, decide_eq_false_iff_not, decide_eq_false_iff_not]
      omega
    rw [hzero, ofInt_zero, hm, hn]
    change add (finite _ m) (finite _ n) = signedZero false
    simp only [Binary64.add, if_pos hunits, hsign]
  · exact ((isWhole_ofInt ha).add (isWhole_ofInt hb) h).eq_of_ne_zero (isWhole_ofInt h) hzero

/-! ### Comparisons -/

theorem IsWhole.lt_eq (hx : x.IsWhole a) (hy : y.IsWhole b) : x.lt y = decide (a < b) := by
  simp only [lt, hx.place?_eq, hy.place?_eq, Int.mul_lt_mul_right units_int_pos]

theorem IsWhole.sameNumber_eq (hx : x.IsWhole a) (hy : y.IsWhole b) :
    x.sameNumber y = decide (a = b) := by
  simp only [sameNumber, hx.place?_eq, hy.place?_eq, Int.mul_eq_mul_right_iff units_int_pos.ne']

theorem IsWhole.of_sameNumber (hy : y.IsWhole a) (hx : x.isFinite = true)
    (h : x.sameNumber y = true) : x.IsWhole a := by
  unfold sameNumber at h
  rw [hy.place?_eq] at h
  cases x with
  | nan => contradiction
  | infinity negative => contradiction
  | finite negative m =>
    have hunits : signedUnits negative m = a * unitsPerOne := of_decide_eq_true h
    rw [IsWhole, units?, hunits]

end VirtualPrinter.Binary64
