import VirtualPrinter.Binary64.Basic

/-!
# Rounding a quotient to a value

Every arithmetic result is first an exact quotient of whole numbers of units and is then rounded
once, to the nearest value of 53 significant bits, a tie going to the even neighbour. The statements
beside the definitions say that the rounded count of units has the precision a magnitude needs.
-/

namespace VirtualPrinter

/-! ### Whole numbers nearest to a quotient -/

/-- The whole number nearest to `num / den`; a tie goes to the even one. -/
def roundQuotient (num den : Nat) : Nat :=
  let whole := num / den
  let twice := 2 * (num % den)
  if twice < den ∨ (twice = den ∧ whole % 2 = 0) then whole else whole + 1

theorem div_le_roundQuotient (num den : Nat) : num / den ≤ roundQuotient num den := by
  simp only [roundQuotient]
  split <;> omega

theorem roundQuotient_le_succ (num den : Nat) : roundQuotient num den ≤ num / den + 1 := by
  simp only [roundQuotient]
  split <;> omega

/-! ### Units nearest to a quotient -/

/-- The exponent of the last of 53 significant bits of a count of units; it does not go below the
unit itself. -/
def lastPlace (units : Nat) : Nat := units.log2 - 52

/-- The count of units with at most 53 significant bits that is nearest to `num / den`. -/
def nearestUnits (num den : Nat) : Nat :=
  let e := lastPlace (num / den)
  roundQuotient num (den * 2 ^ e) * 2 ^ e

theorem lt_two_pow_lastPlace (n : Nat) : n < 2 ^ (53 + lastPlace n) := by
  have h : n < 2 ^ (n.log2 + 1) := Nat.lt_log2_self
  have le : n.log2 + 1 ≤ 53 + lastPlace n := by
    simp only [lastPlace]
    omega
  exact Nat.lt_of_lt_of_le h (Nat.pow_le_pow_right (by decide) le)

theorem roundQuotient_lastPlace_le (num den : Nat) :
    roundQuotient num (den * 2 ^ lastPlace (num / den)) ≤ 2 ^ (53 : Nat) := by
  have step := roundQuotient_le_succ num (den * 2 ^ lastPlace (num / den))
  have small : num / (den * 2 ^ lastPlace (num / den)) < 2 ^ 53 := by
    rw [← Nat.div_div_eq_div_mul]
    apply Nat.div_lt_of_lt_mul
    rw [Nat.mul_comm, ← Nat.pow_add]
    exact lt_two_pow_lastPlace (num / den)
  omega

/-- A multiple of `2^e` that does not pass `2^(53+e)` has at most 53 significant bits. -/
theorem precise_mul_two_pow {k e : Nat} (h : k ≤ 2 ^ (53 : Nat)) :
    2 ^ ((k * 2 ^ e).log2 - 52) ∣ k * 2 ^ e := by
  by_cases top : k = 2 ^ 53
  · subst top
    rw [← Nat.pow_add, Nat.log2_two_pow]
    exact Nat.pow_dvd_pow 2 (by omega)
  · by_cases zero : k * 2 ^ e = 0
    · rw [zero]
      exact Nat.dvd_zero _
    · have below : k * 2 ^ e < 2 ^ (53 + e) := by
        rw [Nat.pow_add]
        exact Nat.mul_lt_mul_of_pos_right (by omega) (Nat.two_pow_pos e)
      have log := (Nat.log2_lt zero).2 below
      exact Nat.dvd_trans (Nat.pow_dvd_pow 2 (by omega)) (Nat.dvd_mul_left _ _)

theorem nearestUnits_precise (num den : Nat) :
    2 ^ ((nearestUnits num den).log2 - 52) ∣ nearestUnits num den :=
  precise_mul_two_pow (roundQuotient_lastPlace_le num den)

namespace Binary64

/-- The value nearest to `num / den` units, with the given sign; infinity from the overflow
threshold on. -/
def nearest (negative : Bool) (num den : Nat) : Binary64 :=
  if h : nearestUnits num den < overflowUnits then
    finite negative ⟨nearestUnits num den, nearestUnits_precise num den, h⟩
  else infinity negative

/-- The value nearest to the fraction `num / den`, with the given sign. -/
def ofRatio (negative : Bool) (num den : Nat) : Binary64 :=
  nearest negative (num * unitsPerOne) den

def ofNat (n : Nat) : Binary64 := ofRatio false n 1

def ofInt (i : Int) : Binary64 := ofRatio (i < 0) i.natAbs 1

instance (n : Nat) : OfNat Binary64 n := ⟨ofNat n⟩

end Binary64

end VirtualPrinter
