import VirtualPrinter.Binary64.Shortest
import VirtualPrinter.Proofs.Binary64.Digits
import VirtualPrinter.Proofs.Text.Grammar

/-!
# Shortest decimals as numbers of JSON

The shortest digits of a value other than zero do not begin with a zero, because zero is in no
rounding interval but its own. Both layouts of such digits are numbers by the grammar of JSON.
-/

namespace VirtualPrinter

open Grammar

variable {digits more : List Char} {n : Nat} {m : Magnitude} {interval : RoundingInterval}

/-! ### Digits -/

theorem digits_decimalDigits (n : Nat) : Digits (decimalDigits n) :=
  ⟨Nat.toDigits_ne_nil, fun _ => isDigit_of_mem_decimalDigits⟩

theorem isDigit_of_mem_zeros {c : Char} (h : c ∈ List.replicate n '0') : c.isDigit = true := by
  rw [List.eq_of_mem_replicate h]
  rfl

theorem digits_behind_zeros (n : Nat) (h : Digits digits) :
    Digits (List.replicate n '0' ++ digits) :=
  ⟨List.append_ne_nil_of_right_ne_nil _ h.1,
    List.forall_mem_append.2 ⟨fun _ => isDigit_of_mem_zeros, h.2⟩⟩

theorem digits_drop (h : Digits digits) (hn : n < digits.length) : Digits (digits.drop n) :=
  ⟨List.drop_eq_nil_iff.not.2 (Nat.not_le.2 hn), fun c hc => h.2 c (List.mem_of_mem_drop hc)⟩

/-- Digits that begin with another one than zero. -/
def Significant (digits : List Char) : Prop := Digits digits ∧ digits.head? ≠ some '0'

theorem Significant.whole (h : Significant digits) : Whole digits := by
  cases digits with
  | nil => exact absurd rfl h.1.1
  | cons first rest => exact .leading (fun hfirst => h.2 (congrArg some hfirst)) h.1

theorem Significant.take (h : Significant digits) (n : Nat) :
    Significant (digits.take (n + 1)) := by
  refine ⟨⟨?_, fun c hc => h.1.2 c (List.mem_of_mem_take hc)⟩, ?_⟩
  · rw [ne_eq, List.take_eq_nil_iff, not_or]
    exact ⟨Nat.succ_ne_zero n, h.1.1⟩
  · rw [List.head?_take, if_neg (Nat.succ_ne_zero n)]
    exact h.2

theorem Significant.append_zeros (h : Significant digits) (n : Nat) :
    Significant (digits ++ List.replicate n '0') := by
  refine ⟨⟨List.append_ne_nil_of_left_ne_nil h.1.1 _, ?_⟩, ?_⟩
  · exact List.forall_mem_append.2 ⟨h.1.2, fun _ => isDigit_of_mem_zeros⟩
  · rw [List.head?_append_of_ne_nil _ h.1.1]
    exact h.2

theorem significant_decimalDigits (hn : n ≠ 0) : Significant (decimalDigits n) := by
  refine ⟨digits_decimalDigits n, ?_⟩
  induction n using Nat.strong_induction_on with
  | _ n ih =>
    rw [decimalDigits, Nat.toDigits_eq_if (by omega)]
    split
    next hsmall =>
      rw [List.head?_cons, ne_eq, Option.some.injEq, Nat.digitChar_eq_zero]
      exact hn
    next hlarge =>
      rw [List.head?_append_of_ne_nil _ Nat.toDigits_ne_nil]
      exact ih (n / 10) (by omega) (by omega)

theorem whole_decimalDigits (n : Nat) : Whole (decimalDigits n) := by
  by_cases hn : n = 0
  · subst hn
    exact .zero
  · exact (significant_decimalDigits hn).whole

/-! ### The search -/

theorem Magnitude.zero_lt_low (m : Magnitude) (h : m.units ≠ 0) : 0 < m.interval.low := by
  have hstep : 2 ^ lastPlace m.units ≤ m.units :=
    (Nat.pow_le_pow_right (by omega) (Nat.sub_le _ _)).trans (Nat.log2_self_le h)
  simp only [Magnitude.interval]
  split <;> omega

theorem RoundingInterval.contains_zero (h : 0 < interval.low) {den : Nat} (hden : 0 < den) :
    interval.contains 0 den = false := by
  have hlow := Nat.mul_pos h hden
  unfold RoundingInterval.contains
  split
  · exact decide_eq_false fun hle => Nat.not_lt.2 hle.1 hlow
  · exact decide_eq_false fun hlt => Nat.not_lt_zero _ hlt.1

theorem Magnitude.factorOnGrid?_pos (hlow : 0 < interval.low) {k : Int} {factor : Nat}
    (h : m.factorOnGrid? interval k = some factor) : 0 < factor := by
  have hscale : 0 < 10 ^ (-k).toNat := Nat.pow_pos (by omega)
  unfold Magnitude.factorOnGrid? at h
  dsimp only at h
  generalize 4 * unitsPerOne * 10 ^ k.toNat = grid at h
  generalize 4 * m.units * 10 ^ (-k).toNat = value at h
  have hbelow : interval.contains (value / grid * grid) (10 ^ (-k).toNat) = true →
      0 < value / grid := by
    intro hcontains
    by_contra hzero
    rw [Nat.eq_zero_of_not_pos hzero, Nat.zero_mul,
      RoundingInterval.contains_zero hlow hscale] at hcontains
    contradiction
  split at h
  next hin _ =>
    rw [← Option.some.inj h]
    exact (hbelow hin).trans_le (div_le_roundQuotient value grid)
  next hin _ =>
    rw [← Option.some.inj h]
    exact hbelow hin
  next =>
    rw [← Option.some.inj h]
    exact Nat.succ_pos _
  next => contradiction

/- When no grid had a hit, the one digit would be a zero before the point. -/
theorem Magnitude.shortestDigits_cases (m : Magnitude) (h : m.units ≠ 0) :
    Significant m.shortestDigits.1 ∨ m.shortestDigits = (['0'], 0) := by
  unfold Magnitude.shortestDigits
  dsimp only
  cases hhit : (List.range 19).findSome? fun (i : Nat) =>
      (m.factorOnGrid? m.interval (leadingPower m.units + 1 - i)).map fun factor =>
        (factor, leadingPower m.units + 1 - (i : Int)) with
  | none => exact Or.inr rfl
  | some hit =>
    obtain ⟨i, -, hi⟩ := List.exists_of_findSome?_eq_some hhit
    obtain ⟨factor, hfactor, rfl⟩ := Option.map_eq_some_iff.1 hi
    have hpos := factorOnGrid?_pos (m.zero_lt_low h) hfactor
    exact Or.inl (significant_decimalDigits hpos.ne')

/-! ### Layouts -/

open Binary64 (shortestStyle)

theorem fraction_zero : Fraction ['.', '0'] := .point (digits_decimalDigits 0)

theorem unsigned_positional (h : Significant digits) (leading : Int) :
    Unsigned (shortestStyle.positional digits leading).toList := by
  unfold DecimalStyle.positional
  split
  next hneg =>
    have hfraction := digits_behind_zeros (-leading - 1).toNat h.1
    simpa using Unsigned.mk .zero (.point hfraction) .none
  next hneg =>
    dsimp only
    split
    next hshort =>
      have hwhole := (h.append_zeros (leading.toNat + 1 - digits.length)).whole
      simpa [shortestStyle] using Unsigned.mk hwhole fraction_zero .none
    next hlong =>
      have hwhole := (h.take leading.toNat).whole
      have hfraction := digits_drop h.1 (Nat.not_le.1 hlong)
      simpa using Unsigned.mk hwhole (.point hfraction) .none

theorem toList_scientific (digits : List Char) (leading : Int) :
    (DecimalStyle.scientific digits leading).toList =
      digits.take 1 ++ (if digits.length ≤ 1 then [] else '.' :: digits.drop 1) ++
        'e' :: ((if leading < 0 then ['-'] else ['+']) ++
          ((if (decimalDigits leading.natAbs).length < 2 then ['0'] else []) ++
            decimalDigits leading.natAbs)) := by
  simp only [DecimalStyle.scientific, String.toList_append, String.toList_ofList,
    apply_ite String.toList, List.append_assoc]
  rfl

theorem unsigned_scientific (h : Significant digits) (leading : Int) :
    Unsigned (DecimalStyle.scientific digits leading).toList := by
  have hpower : Power ('e' :: ((if leading < 0 then ['-'] else ['+']) ++
      ((if (decimalDigits leading.natAbs).length < 2 then ['0'] else []) ++
        decimalDigits leading.natAbs))) := by
    refine .mark (by simp) (by split <;> simp) ?_
    split
    next => exact digits_behind_zeros 1 (digits_decimalDigits _)
    next => exact digits_decimalDigits _
  have hfraction : Fraction (if digits.length ≤ 1 then [] else '.' :: digits.drop 1) := by
    split
    next => exact .none
    next hlong => exact .point (digits_drop h.1 (Nat.not_le.1 hlong))
  rw [toList_scientific]
  exact .mk (h.take 0).whole hfraction hpower

theorem unsigned_layout (h : Significant digits) (leading : Int) :
    Unsigned (shortestStyle.layout digits leading).toList := by
  unfold DecimalStyle.layout
  split
  next => exact unsigned_positional h leading
  next => exact unsigned_scientific h leading

theorem unsigned_zero : Unsigned "0.0".toList := .mk .zero fraction_zero .none

theorem unsigned_shortest (m : Magnitude) (h : m.units ≠ 0) :
    Unsigned (shortestStyle.layout m.shortestDigits.1 m.shortestDigits.2).toList := by
  rcases m.shortestDigits_cases h with hdigits | hzero
  · exact unsigned_layout hdigits _
  · rw [hzero]
    exact unsigned_zero

namespace Binary64

variable {x : Binary64}

theorem shortestText_finite (negative : Bool) (m : Magnitude) :
    (finite negative m).shortestText = (if negative then "-" else "") ++
      if m.units = 0 then "0.0"
      else shortestStyle.layout m.shortestDigits.1 m.shortestDigits.2 := by
  simp only [shortestText]
  split <;> rfl

theorem number_shortestText (hx : x.isFinite = true) : Number x.shortestText.toList := by
  cases x with
  | nan => contradiction
  | infinity negative => contradiction
  | finite negative m =>
    have hunsigned : Unsigned (if m.units = 0 then "0.0" else
        shortestStyle.layout m.shortestDigits.1 m.shortestDigits.2).toList := by
      split
      next => exact unsigned_zero
      next hpos => exact unsigned_shortest m hpos
    rw [shortestText_finite, String.toList_append]
    cases negative with
    | false => exact .unsigned hunsigned
    | true => exact .negative hunsigned

end Binary64

end VirtualPrinter
