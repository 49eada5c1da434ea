import Mathlib.Data.Nat.Log
import Mathlib.Tactic.Linarith
import Mathlib.Tactic.NormNum
import Mathlib.Tactic.Positivity
import VirtualPrinter.Proofs.Binary64.Digits
import VirtualPrinter.Proofs.Binary64.Nearest

/-!
# Six significant digits

The six digits of a value are those of the nearest number with six digits. The text of a value is
therefore that of a whole number exactly if the value is within half a unit of its sixth digit.
-/

namespace VirtualPrinter

/-! ### The leading power of ten -/

theorem ten_zpow (p : Int) : (10 : ℚ) ^ p = 10 ^ p.toNat / 10 ^ (-p).toNat := by
  obtain ⟨n, rfl | rfl⟩ := p.eq_nat_or_neg
  · simp
  · simp [zpow_neg]

theorem reachesPower_iff {units : Nat} {p : Int} :
    reachesPower units p = true ↔ (10 : ℚ) ^ p ≤ units / unitsPerOne := by
  have hten : (0 : ℚ) < 10 ^ (-p).toNat := by positivity
  rw [ten_zpow, div_le_div_iff₀ hten Binary64.units_cast_pos]
  simp only [reachesPower, decide_eq_true_eq]
  rw [← Nat.cast_le (α := ℚ)]
  push_cast
  rw [mul_comm]

/- One check for each binary exponent of the format. -/
theorem leadingGuess_bounds : ∀ n : Nat, n < 1024 + oneExponent →
    reachesPower (2 ^ n) (((n : Int) - oneExponent) * 30103 / 100000) = true ∧
      reachesPower (2 ^ (n + 1)) (((n : Int) - oneExponent) * 30103 / 100000 + 2) = false := by
  decide +kernel

theorem leadingPower_bounds {units : Nat} (hpos : units ≠ 0) (h : units < overflowUnits) :
    (10 : ℚ) ^ leadingPower units ≤ units / unitsPerOne ∧
      (units / unitsPerOne : ℚ) < 10 ^ (leadingPower units + 1) := by
  have hone := Binary64.units_cast_pos
  have hlow := Nat.log2_self_le hpos
  have hhigh := Nat.lt_log2_self (n := units)
  obtain ⟨hreach, hbeyond⟩ := leadingGuess_bounds units.log2 ((Nat.log2_lt hpos).2 h)
  simp only [leadingPower]
  generalize ((units.log2 : Int) - oneExponent) * 30103 / 100000 = guess at hreach hbeyond ⊢
  rw [reachesPower_iff] at hreach
  rw [← Bool.not_eq_true, reachesPower_iff, not_le] at hbeyond
  have hguess : (10 : ℚ) ^ guess ≤ units / unitsPerOne :=
    hreach.trans ((div_le_div_iff_of_pos_right hone).2 (Nat.cast_le.2 hlow))
  have hlimit : (units / unitsPerOne : ℚ) < 10 ^ (guess + 2) :=
    ((div_lt_div_iff_of_pos_right hone).2 (Nat.cast_lt.2 hhigh)).trans hbeyond
  split
  · rename_i hnext
    rw [show guess + 2 = guess + 1 + 1 by omega] at hlimit
    exact ⟨reachesPower_iff.1 hnext, hlimit⟩
  · rename_i hnext
    rw [reachesPower_iff, not_le] at hnext
    exact ⟨hguess, hnext⟩

theorem leadingPower_eq {units : Nat} {p : Int} (hpos : units ≠ 0) (h : units < overflowUnits)
    (hlow : (10 : ℚ) ^ p ≤ units / unitsPerOne) (hhigh : (units / unitsPerOne : ℚ) < 10 ^ (p + 1)) :
    leadingPower units = p := by
  obtain ⟨hlow', hhigh'⟩ := leadingPower_bounds hpos h
  have hle := (zpow_lt_zpow_iff_right₀ (by norm_num)).1 (hlow'.trans_lt hhigh)
  have hge := (zpow_lt_zpow_iff_right₀ (by norm_num)).1 (hlow.trans_lt hhigh')
  omega

/-! ### Rounding -/

theorem roundQuotient_low {num den : Nat} (hd : 0 < den) :
    2 * num ≤ 2 * (roundQuotient num den * den) + den := by
  have hdiv := Nat.div_add_mod num den
  have hmod := Nat.mod_lt num hd
  rw [Nat.mul_comm] at hdiv
  simp only [roundQuotient]
  split
  · omega
  · rw [Nat.add_mul, Nat.one_mul]
    omega

theorem roundQuotient_near {num den : Nat} (hd : 0 < den) :
    |(num / den : ℚ) - roundQuotient num den| ≤ 1 / 2 := by
  have hden : (0 : ℚ) < den := Nat.cast_pos.2 hd
  have hlow : (2 * num : ℚ) ≤ 2 * (roundQuotient num den * den) + den := by
    exact_mod_cast roundQuotient_low hd
  have hhigh : (2 * (roundQuotient num den * den) : ℚ) ≤ 2 * num + den := by
    exact_mod_cast roundQuotient_half num den
  rw [abs_le, sub_le_iff_le_add, le_sub_iff_add_le, div_le_iff₀ hden, le_div_iff₀ hden]
  constructor
  · linarith
  · linarith

/- A neighbour is nearer by a whole number, or a tie between an even number and an odd one. -/
theorem roundQuotient_eq_of_even {num den n : Nat} (hd : 0 < den) (heven : n % 2 = 0)
    (hnear : |(num / den : ℚ) - n| ≤ 1 / 2) : roundQuotient num den = n := by
  have hden : (0 : ℚ) < den := Nat.cast_pos.2 hd
  rw [abs_le, sub_le_iff_le_add, le_sub_iff_add_le, div_le_iff₀ hden, le_div_iff₀ hden] at hnear
  have hlow : 2 * (n * den) ≤ 2 * num + den := by
    have h : (2 * (n * den) : ℚ) ≤ 2 * num + den := by linarith [hnear.1]
    exact_mod_cast h
  have hhigh : 2 * num ≤ 2 * (n * den) + den := by
    have h : (2 * num : ℚ) ≤ 2 * (n * den) + den := by linarith [hnear.2]
    exact_mod_cast h
  have hdiv := Nat.div_add_mod num den
  have hmod := Nat.mod_lt num hd
  rw [Nat.mul_comm] at hdiv
  have hbelow : num / den ≤ n := by
    by_contra hless
    have hmul := Nat.mul_le_mul_right den (Nat.lt_of_not_le hless)
    rw [Nat.succ_mul] at hmul
    omega
  have habove : n ≤ num / den + 1 := by
    by_contra hmore
    have hmul := Nat.mul_le_mul_right den (Nat.lt_of_not_le hmore)
    rw [Nat.succ_mul, Nat.succ_mul] at hmul
    omega
  simp only [roundQuotient]
  rcases Nat.eq_or_lt_of_le hbelow with heq | hlt
  · rw [← heq] at heven hhigh ⊢
    rw [if_pos (by omega)]
  · obtain rfl : n = num / den + 1 := by omega
    rw [Nat.add_mul, Nat.one_mul] at hlow
    rw [if_neg (by omega)]

/-! ### The six digits of a value -/

/-- The value scaled to six digits before the point, rounded. -/
def Magnitude.scaled (m : Magnitude) : Nat :=
  roundQuotient (m.units * 10 ^ (5 - leadingPower m.units).toNat)
    (unitsPerOne * 10 ^ (leadingPower m.units - 5).toNat)

theorem Magnitude.sixDigits_eq (m : Magnitude) :
    m.sixDigits =
      if m.scaled = 10 ^ 6 then (decimalDigits (10 ^ 5), leadingPower m.units + 1)
      else (decimalDigits m.scaled, leadingPower m.units) :=
  rfl

variable {m : Magnitude} {n k : Nat} {p : Int}

theorem scaled_quotient (m : Magnitude) :
    ((m.units * 10 ^ (5 - leadingPower m.units).toNat : Nat) /
      (unitsPerOne * 10 ^ (leadingPower m.units - 5).toNat : Nat) : ℚ) =
      m.units / unitsPerOne * 10 ^ (5 - leadingPower m.units) := by
  rw [ten_zpow (5 - leadingPower m.units), neg_sub]
  push_cast
  rw [mul_div_mul_comm]

theorem scaled_den_pos (m : Magnitude) :
    0 < unitsPerOne * 10 ^ (leadingPower m.units - 5).toNat :=
  Nat.mul_pos unitsPerOne_pos (Nat.pow_pos (by omega))

theorem scaled_near (m : Magnitude) :
    |(m.units / unitsPerOne * 10 ^ (5 - leadingPower m.units) : ℚ) - m.scaled| ≤ 1 / 2 := by
  rw [← scaled_quotient]
  exact roundQuotient_near (scaled_den_pos m)

theorem scaled_eq_of_even (heven : n % 2 = 0)
    (hnear : |(m.units / unitsPerOne * 10 ^ (5 - leadingPower m.units) : ℚ) - n| ≤ 1 / 2) :
    m.scaled = n := by
  rw [← scaled_quotient] at hnear
  exact roundQuotient_eq_of_even (scaled_den_pos m) heven hnear

theorem scaled_bounds (hpos : m.units ≠ 0) : 10 ^ 5 ≤ m.scaled ∧ m.scaled ≤ 10 ^ 6 := by
  obtain ⟨hlow, hhigh⟩ := leadingPower_bounds hpos m.bounded
  have hnear := abs_le.1 (scaled_near m)
  generalize leadingPower m.units = p at hlow hhigh hnear
  generalize (m.units / unitsPerOne : ℚ) = q at hlow hhigh hnear
  have hten : (0 : ℚ) < 10 ^ (5 - p) := zpow_pos (by norm_num) _
  have hlow' := mul_le_mul_of_nonneg_right hlow hten.le
  have hhigh' := mul_lt_mul_of_pos_right hhigh hten
  rw [← zpow_add₀ (by norm_num), show p + (5 - p) = 5 by omega] at hlow'
  rw [← zpow_add₀ (by norm_num), show p + 1 + (5 - p) = 6 by omega] at hhigh'
  norm_num at hlow' hhigh'
  constructor
  · have h : (99999 : ℚ) < m.scaled := by linarith [hnear.2]
    exact_mod_cast h
  · have h : (m.scaled : ℚ) < 1000001 := by linarith [hnear.1]
    exact Nat.lt_succ_iff.1 (by exact_mod_cast h)

/-! ### Layout -/

open Binary64 (sixDigitStyle)

theorem layout_whole {digits : List Char} (hlow : 0 ≤ p) (hhigh : p < 6)
    (hlength : digits.length ≤ p.toNat + 1) :
    (sixDigitStyle.layout digits p).toList =
      digits ++ List.replicate (p.toNat + 1 - digits.length) '0' := by
  have hrange : sixDigitStyle.least ≤ p ∧ p < sixDigitStyle.limit := by
    simp only [sixDigitStyle]
    omega
  rw [DecimalStyle.layout, if_pos hrange, DecimalStyle.positional, if_neg hlow.not_gt,
    if_pos hlength]
  simp [sixDigitStyle]

/- Every other text has a point or a power of ten in it. -/
theorem of_layout_digits {digits : List Char}
    (h : ∀ c ∈ (sixDigitStyle.layout digits p).toList, c.isDigit = true) :
    0 ≤ p ∧ p < 6 ∧ digits.length ≤ p.toNat + 1 := by
  have hpoint : '.'.isDigit = false := by decide
  have hpower : 'e'.isDigit = false := by decide
  unfold DecimalStyle.layout at h
  split at h
  · rename_i hrange
    unfold DecimalStyle.positional at h
    split at h
    · have hmem := h '.' (by simp)
      rw [hpoint] at hmem
      contradiction
    · rename_i hlow
      dsimp only at h
      split at h
      · rename_i hlength
        exact ⟨Int.not_lt.1 hlow, hrange.2, hlength⟩
      · have hmem := h '.' (by simp)
        rw [hpoint] at hmem
        contradiction
  · have hmem := h 'e' (by simp [DecimalStyle.scientific])
    rw [hpower] at hmem
    contradiction

/- Behind the digits of the whole number there are only zeros among the six. -/
theorem layout_eq_iff (hn : 10 ^ 5 ≤ n ∧ n < 10 ^ 6) (hk : 0 < k) :
    (sixDigitStyle.layout (dropTrailingZeros (decimalDigits n)) p).toList = decimalDigits k ↔
      0 ≤ p ∧ p < 6 ∧ n = k * 10 ^ (5 - p).toNat := by
  have hlength : (decimalDigits n).length = 6 := length_decimalDigits hn.1 hn.2
  obtain ⟨z, hz⟩ := exists_zeros (decimalDigits n)
  constructor
  · intro htext
    obtain ⟨hlow, hhigh, hshort⟩ := of_layout_digits (fun c hc => by
      rw [htext] at hc
      exact isDigit_of_mem_decimalDigits hc)
    refine ⟨hlow, hhigh, ?_⟩
    rw [layout_whole hlow hhigh hshort] at htext
    rw [hz, List.length_append, List.length_replicate] at hlength
    generalize dropTrailingZeros (decimalDigits n) = digits at hz htext hshort hlength
    apply decimalDigits_inj.1
    rw [decimalDigits_shift hk, ← htext, List.append_assoc, List.replicate_append_replicate, hz]
    congr 2
    omega
  · rintro ⟨hlow, hhigh, rfl⟩
    rw [decimalDigits_shift hk, List.length_append, List.length_replicate] at hlength
    rw [decimalDigits_shift hk, dropTrailingZeros_append]
    obtain ⟨y, hy⟩ := exists_zeros (decimalDigits k)
    have hsize := congrArg List.length hy
    rw [List.length_append, List.length_replicate] at hsize
    rw [layout_whole hlow hhigh (by omega)]
    nth_rewrite 3 [hy]
    congr 2
    omega

/-! ### Values written as whole numbers -/

theorem whole_digits_iff (hn : 10 ^ 5 ≤ n ∧ n < 10 ^ 6) (hk : 0 < k) (hk' : k < 10 ^ 6) :
    (0 ≤ p ∧ p < 6 ∧ n = k * 10 ^ (5 - p).toNat) ↔ (n : ℚ) = k * 10 ^ (5 - p) := by
  constructor
  · rintro ⟨hlow, hhigh, rfl⟩
    have hnone : (-(5 - p)).toNat = 0 := by omega
    rw [ten_zpow, hnone]
    simp
  · intro heq
    have hlow' : (100000 : ℚ) ≤ n := by exact_mod_cast hn.1
    have hhigh' : (n : ℚ) < 1000000 := by exact_mod_cast hn.2
    have hone : (1 : ℚ) ≤ k := by exact_mod_cast hk
    have hsmall : (k : ℚ) < 1000000 := by exact_mod_cast hk'
    have hlow : 0 ≤ p := by
      by_contra hneg
      have hlarge : (10 : ℚ) ^ (6 : Int) ≤ 10 ^ (5 - p) :=
        zpow_le_zpow_right₀ (by norm_num) (by omega)
      norm_num at hlarge
      nlinarith
    have hhigh : p < 6 := by
      by_contra hmore
      have htiny : (10 : ℚ) ^ (5 - p) ≤ 10 ^ (-1 : Int) :=
        zpow_le_zpow_right₀ (by norm_num) (by omega)
      norm_num at htiny
      nlinarith
    have hnone : (-(5 - p)).toNat = 0 := by omega
    rw [ten_zpow, hnone, pow_zero, div_one] at heq
    exact ⟨hlow, hhigh, by exact_mod_cast heq⟩

/- Digits that were rounded up to the next power of ten stand for the same number. -/
theorem exists_sixDigits (hpos : m.units ≠ 0) : ∃ n p, m.sixDigits = (decimalDigits n, p) ∧
    (10 ^ 5 ≤ n ∧ n < 10 ^ 6) ∧
      ∀ k : Nat, (n : ℚ) = k * 10 ^ (5 - p) ↔
        (m.scaled : ℚ) = k * 10 ^ (5 - leadingPower m.units) := by
  obtain ⟨hlow, hhigh⟩ := scaled_bounds hpos
  rw [Magnitude.sixDigits_eq]
  generalize leadingPower m.units = p
  split
  · rename_i htop
    refine ⟨10 ^ 5, p + 1, rfl, by omega, fun k => ?_⟩
    have hstep : (10 : ℚ) ^ (5 - p) = 10 * 10 ^ (5 - (p + 1)) := by
      rw [← zpow_one_add₀ (by norm_num), show 1 + (5 - (p + 1)) = 5 - p by omega]
    rw [htop, hstep]
    push_cast
    constructor
    · intro h
      linarith
    · intro h
      linarith
  · rename_i htop
    exact ⟨m.scaled, p, rfl, by omega, fun k => Iff.rfl⟩

/-- The numbers whose six significant digits are those of a whole number: they are within half a
unit of the sixth digit, and the unit below a power of ten is a tenth of that above. -/
structure SameSixDigits (k : Nat) (q : ℚ) : Prop where
  below : k - (if k = 10 ^ Nat.log 10 k then 1 / 20 else 1 / 2) / 10 ^ (5 - Nat.log 10 k) ≤ q
  above : q ≤ k + 1 / 2 / 10 ^ (5 - Nat.log 10 k)

variable {q : ℚ} {s : Nat}

theorem sameSixDigits_iff : SameSixDigits k q ↔
    k * 10 ^ (5 - Nat.log 10 k) - (if k = 10 ^ Nat.log 10 k then 1 / 20 else 1 / 2) ≤
        q * 10 ^ (5 - Nat.log 10 k) ∧
      q * 10 ^ (5 - Nat.log 10 k) ≤ k * 10 ^ (5 - Nat.log 10 k) + 1 / 2 := by
  have hten : (0 : ℚ) < 10 ^ (5 - Nat.log 10 k) := by positivity
  rw [← div_le_iff₀ hten, ← le_div_iff₀ hten, sub_div, add_div, mul_div_cancel_right₀ _ hten.ne']
  exact ⟨fun h => ⟨h.below, h.above⟩, fun h => ⟨h.1, h.2⟩⟩

theorem zpow_five_sub {d : Nat} (h : d ≤ 5) : (10 : ℚ) ^ (5 - (d : Int)) = 10 ^ (5 - d) := by
  rw [← zpow_natCast, Nat.cast_sub h]
  rfl

/- A number that rounds up to a power of ten may have its first digit one place below. -/
theorem leading_of_scaled (hk : 0 < k) (hs : 10 ^ 5 ≤ s ∧ s ≤ 10 ^ 6)
    (h : (s : ℚ) = k * 10 ^ (5 - p)) :
    p = Nat.log 10 k ∨ p + 1 = Nat.log 10 k ∧ (k : ℚ) = 10 ^ Nat.log 10 k := by
  have hlow : (10 ^ (5 : Int) : ℚ) ≤ s := by exact_mod_cast hs.1
  have hhigh : (s : ℚ) ≤ 10 ^ (6 : Int) := by exact_mod_cast hs.2
  have hself : (10 ^ (Nat.log 10 k : Int) : ℚ) ≤ k := by
    exact_mod_cast Nat.pow_log_le_self 10 hk.ne'
  have hsucc : (k : ℚ) < 10 ^ (Nat.log 10 k + 1 : Int) := by
    exact_mod_cast Nat.lt_pow_succ_log_self (by omega) k
  have hten : (0 : ℚ) < 10 ^ (5 - p) := zpow_pos (by norm_num) _
  have hk_low : (10 : ℚ) ^ p ≤ k := by
    apply le_of_mul_le_mul_right _ hten
    rwa [← zpow_add₀ (by norm_num), ← h, show p + (5 - p) = 5 by omega]
  have hk_high : (k : ℚ) ≤ 10 ^ (p + 1) := by
    apply le_of_mul_le_mul_right _ hten
    rwa [← zpow_add₀ (by norm_num), ← h, show p + 1 + (5 - p) = 6 by omega]
  have hle := (zpow_lt_zpow_iff_right₀ (by norm_num)).1 (hk_low.trans_lt hsucc)
  have hge := (zpow_le_zpow_iff_right₀ (by norm_num)).1 (hself.trans hk_high)
  by_cases heq : p = Nat.log 10 k
  · exact Or.inl heq
  · have hnext : p + 1 = Nat.log 10 k := by omega
    rw [hnext] at hk_high
    have hpower := le_antisymm hk_high hself
    rw [zpow_natCast] at hpower
    exact Or.inr ⟨hnext, hpower⟩

theorem sameSixDigits_of_near (hk : 0 < k) (hlog : Nat.log 10 k ≤ 5) (hlow : (10 : ℚ) ^ p ≤ q)
    (hhigh : q < 10 ^ (p + 1)) (hs : 10 ^ 5 ≤ s ∧ s ≤ 10 ^ 6)
    (hnear : |q * 10 ^ (5 - p) - s| ≤ 1 / 2) (h : (s : ℚ) = k * 10 ^ (5 - p)) :
    SameSixDigits k q := by
  have hten : (0 : ℚ) < 10 ^ (5 - Nat.log 10 k) := by positivity
  rw [h, abs_le] at hnear
  rw [sameSixDigits_iff]
  rcases leading_of_scaled hk hs h with rfl | ⟨hnext, hpower⟩
  · rw [zpow_five_sub hlog] at hnear
    rw [zpow_natCast] at hlow
    refine ⟨?_, by linarith⟩
    split
    · rename_i hpower
      have hself : (k : ℚ) = 10 ^ Nat.log 10 k := by exact_mod_cast hpower
      have hmul := mul_le_mul_of_nonneg_right (hself.trans_le hlow) hten.le
      linarith
    · linarith
  · have hstep : (10 : ℚ) ^ (5 - p) = 10 * 10 ^ (5 - Nat.log 10 k) := by
      rw [← zpow_five_sub hlog, ← zpow_one_add₀ (by norm_num), ← hnext]
      congr 1
      omega
    rw [hstep] at hnear
    rw [hnext, zpow_natCast, ← hpower] at hhigh
    have hmul := mul_lt_mul_of_pos_right hhigh hten
    rw [if_pos (by exact_mod_cast hpower)]
    constructor
    · linarith
    · linarith

theorem SameSixDigits.close (h : SameSixDigits k q) (hlog : Nat.log 10 k ≤ 4) :
    |q - k| ≤ 1 / 20 := by
  have hten : (10 : ℚ) ≤ 10 ^ (5 - Nat.log 10 k) :=
    le_self_pow₀ (by norm_num) (by omega)
  obtain ⟨hbelow, habove⟩ := sameSixDigits_iff.1 h
  have hhalf : (if k = 10 ^ Nat.log 10 k then 1 / 20 else 1 / 2 : ℚ) ≤ 1 / 2 := by
    split <;> norm_num
  rw [abs_le]
  constructor
  · nlinarith
  · nlinarith

theorem SameSixDigits.leading (h : SameSixDigits k q) (hk : 0 < k) (hlog : Nat.log 10 k ≤ 4) :
    ((10 : ℚ) ^ Nat.log 10 k ≤ q ∧ q < 10 ^ (Nat.log 10 k + 1)) ∨
      k = 10 ^ Nat.log 10 k ∧ (10 : ℚ) ^ Nat.log 10 k ≤ 10 * q ∧ q < 10 ^ Nat.log 10 k := by
  have hclose := abs_le.1 (h.close hlog)
  have hpow := Nat.pow_log_le_self 10 hk.ne'
  have hself : (10 ^ Nat.log 10 k : ℚ) ≤ k := by exact_mod_cast hpow
  have hsucc : (k + 1 : ℚ) ≤ 10 ^ (Nat.log 10 k + 1) := by
    exact_mod_cast Nat.lt_pow_succ_log_self (by omega) k
  have hone : (1 : ℚ) ≤ 10 ^ Nat.log 10 k := one_le_pow₀ (by norm_num)
  by_cases hlow : (10 : ℚ) ^ Nat.log 10 k ≤ q
  · exact Or.inl ⟨hlow, by linarith⟩
  · refine Or.inr ⟨?_, by linarith, not_le.1 hlow⟩
    by_contra hne
    have hmore : (10 ^ Nat.log 10 k + 1 : ℚ) ≤ k := by
      exact_mod_cast Nat.lt_of_le_of_ne hpow (Ne.symm hne)
    linarith

theorem SameSixDigits.pos (h : SameSixDigits k q) (hk : 0 < k)
    (hlog : Nat.log 10 k ≤ 4) : 0 < q := by
  have hone : (1 : ℚ) ≤ k := by exact_mod_cast hk
  have hclose := abs_le.1 (h.close hlog)
  linarith [hclose.1]

/-! ### The text of a value -/

theorem scaled_of_near {j : Nat} (hleading : 5 - leadingPower m.units = (j + 1 : Nat))
    (hnear : |(m.units / unitsPerOne * 10 ^ (j + 1) : ℚ) - k * 10 ^ (j + 1)| ≤ 1 / 2) :
    (m.scaled : ℚ) = k * 10 ^ (5 - leadingPower m.units) := by
  have hscaled : m.scaled = k * 10 ^ (j + 1) := by
    apply scaled_eq_of_even
    · rw [Nat.pow_succ, ← Nat.mul_assoc]
      omega
    · rw [hleading, zpow_natCast]
      push_cast
      exact hnear
  rw [hscaled, hleading, zpow_natCast]
  push_cast
  rfl

theorem scaled_of_sameSixDigits (hpos : m.units ≠ 0) (hk : 0 < k) (hlog : Nat.log 10 k ≤ 4)
    (h : SameSixDigits k (m.units / unitsPerOne)) :
    (m.scaled : ℚ) = k * 10 ^ (5 - leadingPower m.units) := by
  obtain ⟨hbelow, habove⟩ := sameSixDigits_iff.1 h
  have hten : (0 : ℚ) < 10 ^ (5 - Nat.log 10 k) := by positivity
  rcases h.leading hk hlog with ⟨hlow, hhigh⟩ | ⟨hpower, hlow, hhigh⟩
  · have hleading : leadingPower m.units = Nat.log 10 k :=
      leadingPower_eq hpos m.bounded (by exact_mod_cast hlow) (by exact_mod_cast hhigh)
    have hhalf : (if k = 10 ^ Nat.log 10 k then 1 / 20 else 1 / 2 : ℚ) ≤ 1 / 2 := by
      split <;> norm_num
    apply scaled_of_near (j := 4 - Nat.log 10 k) (by omega)
    rw [show 4 - Nat.log 10 k + 1 = 5 - Nat.log 10 k by omega, abs_le]
    constructor
    · linarith
    · linarith
  · have hself : (k : ℚ) = 10 ^ Nat.log 10 k := by exact_mod_cast hpower
    have hleading : leadingPower m.units = Nat.log 10 k - 1 := by
      apply leadingPower_eq hpos m.bounded
      · rw [zpow_sub_one₀ (by norm_num), zpow_natCast]
        linarith
      · rw [sub_add_cancel, zpow_natCast]
        exact hhigh
    rw [if_pos hpower] at hbelow
    have hmul := mul_lt_mul_of_pos_right (hhigh.trans_eq hself.symm) hten
    apply scaled_of_near (j := 5 - Nat.log 10 k) (by omega)
    rw [pow_succ, abs_le]
    constructor
    · linarith
    · linarith

theorem scaled_eq_iff (hpos : m.units ≠ 0) (hk : 0 < k) (hlog : Nat.log 10 k ≤ 4) :
    (m.scaled : ℚ) = k * 10 ^ (5 - leadingPower m.units) ↔
      SameSixDigits k (m.units / unitsPerOne) := by
  constructor
  · obtain ⟨hlow, hhigh⟩ := leadingPower_bounds hpos m.bounded
    exact sameSixDigits_of_near hk (by omega) hlow hhigh (scaled_bounds hpos) (scaled_near m)
  · exact scaled_of_sameSixDigits hpos hk hlog

namespace Binary64

theorem toRat_unsigned (m : Magnitude) : (finite false m).toRat = m.units / unitsPerOne := by
  simp only [toRat, signedUnits, Bool.false_eq_true, if_false, Int.cast_natCast]

theorem toRat_negative (m : Magnitude) : (finite true m).toRat ≤ 0 := by
  have hnonneg : (0 : ℚ) ≤ m.units / unitsPerOne :=
    div_nonneg (Nat.cast_nonneg _) units_cast_pos.le
  simp only [toRat, signedUnits, if_true, Int.cast_neg, Int.cast_natCast, neg_div]
  exact neg_nonpos.2 hnonneg

theorem toList_toString (k : Nat) : (toString k).toList = decimalDigits k := by
  rw [Nat.toString_eq_ofList_toDigits, String.toList_ofList]
  rfl

theorem sixDigitText_negative (m : Magnitude) :
    ∃ text, (finite true m).sixDigitText = "-" ++ text := by
  simp only [sixDigitText, if_true]
  split
  · exact ⟨_, rfl⟩
  · exact ⟨_, rfl⟩

theorem sixDigitText_zero (h : m.units = 0) : (finite false m).sixDigitText = toString 0 := by
  simp only [sixDigitText, h, Bool.false_eq_true, if_false, if_true]
  rfl

theorem sixDigitText_unsigned {digits : List Char} (hpos : m.units ≠ 0)
    (h : m.sixDigits = (digits, p)) :
    (finite false m).sixDigitText = sixDigitStyle.layout (dropTrailingZeros digits) p := by
  simp [sixDigitText, hpos, h]

/- A sign is not a digit, and zero is not written as any other number. -/
theorem sixDigitText_eq_iff {x : Binary64} (hx : x.isFinite = true) (hk : 0 < k)
    (hlog : Nat.log 10 k ≤ 4) : x.sixDigitText = toString k ↔ SameSixDigits k x.toRat := by
  cases x with
  | nan => contradiction
  | infinity negative => contradiction
  | finite negative m =>
    cases negative with
    | true =>
      constructor
      · intro h
        obtain ⟨text, htext⟩ := sixDigitText_negative m
        have hsign : '-' ∈ (toString k).toList := by simp [← h, htext]
        rw [toList_toString] at hsign
        exact absurd (isDigit_of_mem_decimalDigits hsign) (by decide)
      · intro h
        exact absurd (h.pos hk hlog) (toRat_negative m).not_gt
    | false =>
      rw [toRat_unsigned, ← String.toList_inj, toList_toString]
      by_cases hpos : m.units = 0
      · rw [sixDigitText_zero hpos, toList_toString, decimalDigits_inj, hpos]
        constructor
        · intro h
          omega
        · intro h
          have hzero := h.pos hk hlog
          rw [Nat.cast_zero, zero_div] at hzero
          exact absurd rfl hzero.ne
      · obtain ⟨n, p, hdigits, hn, hsame⟩ := exists_sixDigits hpos
        have hk' : k < 10 ^ 6 := Nat.lt_pow_of_log_lt (by omega) (by omega)
        rw [sixDigitText_unsigned hpos hdigits, layout_eq_iff hn hk, whole_digits_iff hn hk hk',
          hsame, scaled_eq_iff hpos hk hlog]

end Binary64

end VirtualPrinter
