import VirtualPrinter.Binary64.Order

/-!
# Arithmetic

Each operation takes the exact result and rounds it once. A sum is exact in signed units, a product
or a quotient is a quotient of whole numbers, and a square root is the whole root of the scaled
units with a mark for what lies beyond it.
-/

namespace VirtualPrinter

/-! ### Whole square roots -/

/-- The whole square root of a number of `count` digits in base four, from the high digits down. -/
def wholeRootOfDigits : Nat → Nat → Nat
  | 0, _ => 0
  | count + 1, n =>
    let r := 2 * wholeRootOfDigits count (n / 4)
    if (r + 1) * (r + 1) ≤ n then r + 1 else r

/-- The greatest number whose square does not pass `n`. -/
def wholeRoot (n : Nat) : Nat := wholeRootOfDigits (n.log2 / 2 + 1) n

theorem wholeRootOfDigits_bounds (count n : Nat) (h : n < 4 ^ count) :
    wholeRootOfDigits count n * wholeRootOfDigits count n ≤ n ∧
      n < (wholeRootOfDigits count n + 1) * (wholeRootOfDigits count n + 1) := by
  induction count generalizing n with
  | zero =>
    simp only [Nat.pow_zero] at h
    simp only [wholeRootOfDigits]
    omega
  | succ count ih =>
    have quarter : n / 4 < 4 ^ count := by
      rw [Nat.pow_succ] at h
      omega
    obtain ⟨below, above⟩ := ih (n / 4) quarter
    simp only [wholeRootOfDigits]
    generalize wholeRootOfDigits count (n / 4) = s at below above ⊢
    have low : 4 * (s * s) ≤ n := by omega
    have high : n < 4 * ((s + 1) * (s + 1)) := by omega
    split
    · constructor <;> grind
    · constructor <;> grind

theorem wholeRoot_bounds (n : Nat) :
    wholeRoot n * wholeRoot n ≤ n ∧ n < (wholeRoot n + 1) * (wholeRoot n + 1) := by
  apply wholeRootOfDigits_bounds
  have log : n < 2 ^ (n.log2 + 1) := Nat.lt_log2_self
  have base : (4 : Nat) ^ (n.log2 / 2 + 1) = 2 ^ (2 * (n.log2 / 2 + 1)) := by
    rw [Nat.pow_mul]
  rw [base]
  exact Nat.lt_of_lt_of_le log (Nat.pow_le_pow_right (by decide) (by omega))

namespace Binary64

/-! ### The four operations and the square root -/

def neg : Binary64 → Binary64
  | nan => nan
  | infinity negative => infinity (!negative)
  | finite negative m => finite (!negative) m

/-- The exact sum, rounded; a sum of zero is negative only when both parts are. -/
def add : Binary64 → Binary64 → Binary64
  | nan, _ => nan
  | _, nan => nan
  | infinity a, infinity b => if a = b then infinity a else nan
  | infinity a, finite .. => infinity a
  | finite .., infinity b => infinity b
  | finite a m, finite b n =>
    let total := signedUnits a m + signedUnits b n
    if total = 0 then signedZero (a && b) else nearest (total < 0) total.natAbs 1

def sub (x y : Binary64) : Binary64 := add x (neg y)

/-- The exact product, rounded; an infinity times zero is not a number. -/
def mul : Binary64 → Binary64 → Binary64
  | nan, _ => nan
  | _, nan => nan
  | infinity a, infinity b => infinity (a != b)
  | infinity a, finite b n => if n.units = 0 then nan else infinity (a != b)
  | finite a m, infinity b => if m.units = 0 then nan else infinity (a != b)
  | finite a m, finite b n => nearest (a != b) (m.units * n.units) unitsPerOne

/-- The exact quotient, rounded; by zero it is an infinity, or not a number for zero itself. -/
def div : Binary64 → Binary64 → Binary64
  | nan, _ => nan
  | _, nan => nan
  | infinity _, infinity _ => nan
  | infinity a, finite b _ => infinity (a != b)
  | finite a _, infinity b => signedZero (a != b)
  | finite a m, finite b n =>
    if n.units = 0 then
      if m.units = 0 then nan else infinity (a != b)
    else nearest (a != b) (m.units * unitsPerOne) n.units

/-- The exact square root, rounded. Pairs of low bits are first cut off a long square: the root that
is left still has more digits than the result. Beyond that root only the fact that something remains
can matter to the rounding, and one half stands for it. -/
def sqrt : Binary64 → Binary64
  | nan => nan
  | infinity negative => if negative then nan else infinity false
  | finite negative m =>
    if m.units = 0 then finite negative m
    else if negative then nan
    else
      let square := m.units * unitsPerOne
      let cut := (square.log2 - 128) / 2
      let root := wholeRoot (square / 4 ^ cut)
      let rest := if root * root * 4 ^ cut < square then 1 else 0
      nearest false ((2 * root + rest) * 2 ^ cut) 2

instance : Neg Binary64 := ⟨neg⟩
instance : Add Binary64 := ⟨add⟩
instance : Sub Binary64 := ⟨sub⟩
instance : Mul Binary64 := ⟨mul⟩
instance : Div Binary64 := ⟨div⟩

/-- What is left of the first value after taking away the second as often as fits; it has the sign
of the first. -/
def remainder : Binary64 → Binary64 → Binary64
  | nan, _ => nan
  | _, nan => nan
  | infinity _, _ => nan
  | x, infinity _ => x
  | finite a m, finite _ n =>
    if n.units = 0 then nan else nearest a (m.units % n.units) 1

/-! ### Whole parts -/

inductive IntegerFault where
  | infinite
  | notANumber
deriving DecidableEq, Repr

def IntegerFault.message : IntegerFault → String
  | infinite => "cannot convert float infinity to integer"
  | notANumber => "cannot convert float NaN to integer"

/-- The signed units of a finite value. -/
def units? : Binary64 → Except IntegerFault Int
  | nan => .error .notANumber
  | infinity _ => .error .infinite
  | finite negative m => .ok (signedUnits negative m)

def floor (x : Binary64) : Except IntegerFault Int :=
  x.units?.map fun units => units / (unitsPerOne : Int)

/-- The integer part of the value, its fraction cut off. -/
def truncate (x : Binary64) : Except IntegerFault Int :=
  x.units?.map fun units => units.tdiv unitsPerOne

/-- How often a positive value fits into one that is not negative. The remainder is taken off
first, so that the quotient is whole but for rounding, and the rounding is undone when it fell short
by more than half. -/
def wholeQuotient (x y : Binary64) : Except IntegerFault Int := do
  let quotient := (x - remainder x y) / y
  let whole ← quotient.floor
  return if (ofRatio false 1 2).lt (quotient - ofInt whole) then whole + 1 else whole

end Binary64

end VirtualPrinter
