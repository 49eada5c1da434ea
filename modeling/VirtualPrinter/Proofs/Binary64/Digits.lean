import Mathlib.Data.List.TakeWhile
import VirtualPrinter.Binary64.SixDigits

/-!
# Decimal digits

Digits and numbers determine each other, a number times a power of ten has zeros behind its digits,
and the zeros that are dropped from the end of digits can be put back.
-/

namespace VirtualPrinter

variable {digits : List Char} {n k : Nat}

/-! ### Digits of a number -/

theorem digitsValue_eq (digits : List Char) : digitsValue digits = Nat.ofDigitChars 10 digits 0 :=
  rfl

theorem digitsValue_append (whole fraction : List Char) :
    digitsValue (whole ++ fraction) =
      digitsValue whole * 10 ^ fraction.length + digitsValue fraction := by
  simp only [digitsValue_eq, Nat.ofDigitChars_append]
  rw [Nat.ofDigitChars_eq_ofDigitChars_zero, Nat.mul_comm]

theorem digitsValue_decimalDigits (n : Nat) : digitsValue (decimalDigits n) = n :=
  Nat.ofDigitChars_ten_toDigits

theorem decimalDigits_inj : decimalDigits n = decimalDigits k ↔ n = k := by
  constructor
  · intro h
    rw [← digitsValue_decimalDigits n, h, digitsValue_decimalDigits]
  · rintro rfl
    rfl

theorem isDigit_of_mem_decimalDigits {c : Char} (h : c ∈ decimalDigits n) : c.isDigit = true :=
  Nat.isDigit_of_mem_toDigits (by omega) (by omega) h

theorem length_decimalDigits {z : Nat} (hlow : 10 ^ z ≤ n) (hhigh : n < 10 ^ (z + 1)) :
    (decimalDigits n).length = z + 1 := by
  have hle := (Nat.length_toDigits_le_iff (b := 10) (k := z + 1) (by omega) (by omega)).2 hhigh
  unfold decimalDigits
  cases z with
  | zero =>
    have hpos := Nat.length_toDigits_pos (b := 10) (n := n)
    omega
  | succ z =>
    have hgt := mt (Nat.length_toDigits_le_iff (b := 10) (by omega) (Nat.succ_pos z)).1
      (Nat.not_lt.2 hlow)
    omega

theorem decimalDigits_shift (hk : 0 < k) (z : Nat) :
    decimalDigits (k * 10 ^ z) = decimalDigits k ++ List.replicate z '0' := by
  unfold decimalDigits
  induction z with
  | zero => simp
  | succ z ih =>
    have hpos : 0 < k * 10 ^ z := Nat.mul_pos hk (Nat.pow_pos (by omega))
    have hstep := Nat.toDigits_append_toDigits (b := 10) (d := 0) (by omega) hpos (by omega)
    rw [Nat.add_zero, Nat.toDigits_zero, ih, List.append_assoc, ← List.replicate_succ'] at hstep
    rw [hstep, Nat.pow_succ, Nat.mul_comm 10, Nat.mul_assoc]

/-! ### Zeros at the end -/

theorem exists_zeros (digits : List Char) :
    ∃ z, digits = dropTrailingZeros digits ++ List.replicate z '0' := by
  have hzeros : ∀ c ∈ digits.reverse.takeWhile (· = '0'), c = '0' := by
    intro c hc
    simpa using List.mem_takeWhile_imp hc
  refine ⟨(digits.reverse.takeWhile (· = '0')).length, ?_⟩
  calc digits = (digits.reverse.takeWhile (· = '0') ++ digits.reverse.dropWhile (· = '0')).reverse := by
        rw [List.takeWhile_append_dropWhile, List.reverse_reverse]
    _ = _ := by
        rw [List.reverse_append, List.eq_replicate_of_mem hzeros, List.reverse_replicate,
          List.length_replicate]
        rfl

theorem dropTrailingZeros_append (digits : List Char) (z : Nat) :
    dropTrailingZeros (digits ++ List.replicate z '0') = dropTrailingZeros digits := by
  have hzeros : ∀ c ∈ List.replicate z '0', (decide (c = '0')) = true := by simp
  unfold dropTrailingZeros
  rw [List.reverse_append, List.reverse_replicate, List.dropWhile_append_of_pos hzeros]

end VirtualPrinter
