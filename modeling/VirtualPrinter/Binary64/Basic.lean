/-!
# Binary floating point of 64 bits

A value is not-a-number, an infinity, or a sign with a magnitude. Magnitudes are counted in units of
`2^-1074`, the smallest positive value of the format, so that every finite value is a whole number
of units and comparison is comparison of integers. Signed zeros are kept apart by the sign.
-/

namespace VirtualPrinter

/-- Powers of whole numbers are their own, whichever other powers are in scope. -/
scoped instance (priority := 2000) power {α : Type} [NatPow α] : Pow α Nat := instPowNat

/-! ### Magnitudes -/

/-- One is `2^1074` units. -/
def oneExponent : Nat := 1074

def unitsPerOne : Nat := 2 ^ oneExponent

/-- The number of units at which values overflow, which is `2^1024`. -/
def overflowUnits : Nat := 2 ^ (1024 + oneExponent)

/-- A count of units that has at most 53 significant bits and lies below the overflow threshold. -/
structure Magnitude where
  units : Nat
  precise : 2 ^ (units.log2 - 52) ∣ units
  bounded : units < overflowUnits
deriving DecidableEq

theorem overflowUnits_pos : 0 < overflowUnits := Nat.two_pow_pos _

theorem unitsPerOne_pos : 0 < unitsPerOne := Nat.two_pow_pos _

def Magnitude.zero : Magnitude := ⟨0, Nat.dvd_zero _, overflowUnits_pos⟩

/-! ### Values -/

/-- A binary floating-point value of 64 bits; all not-a-numbers are one. -/
inductive Binary64 where
  | nan
  | infinity (negative : Bool)
  | finite (negative : Bool) (magnitude : Magnitude)
deriving DecidableEq

namespace Binary64

def signedZero (negative : Bool) : Binary64 := finite negative Magnitude.zero

instance : Inhabited Binary64 := ⟨signedZero false⟩

/-- Units with a sign: the exact value of a finite number, times `2^1074`. -/
def signedUnits (negative : Bool) (m : Magnitude) : Int :=
  if negative then -(m.units : Int) else m.units

def isFinite : Binary64 → Bool
  | finite .. => true
  | _ => false

/-- The place of a number on the line of signed units. Finite values stand at their own units, the
infinities just outside all of them, and not-a-number has no place. -/
def place? : Binary64 → Option Int
  | nan => none
  | infinity negative => some (if negative then -(overflowUnits : Int) else overflowUnits)
  | finite negative m => some (signedUnits negative m)

theorem place?_eq_none_iff (x : Binary64) : x.place? = none ↔ x = nan := by
  cases x with
  | nan => exact ⟨fun _ => rfl, fun _ => rfl⟩
  | infinity negative => exact ⟨nofun, nofun⟩
  | finite negative m => exact ⟨nofun, nofun⟩

theorem signedUnits_lt (negative : Bool) (m : Magnitude) :
    signedUnits negative m < (overflowUnits : Int) := by
  have h := m.bounded
  cases negative <;> simp only [signedUnits, if_true, if_false, Bool.false_eq_true] <;> omega

theorem neg_lt_signedUnits (negative : Bool) (m : Magnitude) :
    -(overflowUnits : Int) < signedUnits negative m := by
  have h := m.bounded
  cases negative <;> simp only [signedUnits, if_true, if_false, Bool.false_eq_true] <;> omega

end Binary64

end VirtualPrinter
