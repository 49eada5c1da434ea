import VirtualPrinter.Binary64.Arithmetic

/-!
# Decimal numerals

Reading a decimal numeral rounds its exact value once. Writing one lays out significant digits
either with a decimal point in place or with a power of ten behind them; a `DecimalStyle` says where
the one form gives way to the other.
-/

namespace VirtualPrinter

/-! ### Digits -/

/-- The decimal digits of a number, most significant first. -/
def decimalDigits (n : Nat) : List Char := Nat.toDigits 10 n

def digitsValue (digits : List Char) : Nat :=
  digits.foldl (fun value c => 10 * value + (c.toNat - '0'.toNat)) 0

/-! ### Reading -/

namespace Binary64

/-- The value nearest to `digits * 10^exponent`. The number lies below ten to the count of its
digits plus the exponent, and at or above the power before; outside the powers from -330 to 310 that
alone decides for zero or for infinity. -/
def ofDecimal (negative : Bool) (digits : Nat) (exponent : Int) : Binary64 :=
  let leading : Int := (decimalDigits digits).length + exponent
  if digits = 0 ∨ leading < -330 then signedZero negative
  else if 310 < leading then infinity negative
  else ofRatio negative (digits * 10 ^ exponent.toNat) (10 ^ (-exponent).toNat)

end Binary64

/-! ### Writing -/

/-- How significant digits are laid out. Numbers whose leading digit stands for a power of ten from
`least` up to but not including `limit` are written with the point in place, and `wholeMark` follows
those without a fraction. -/
structure DecimalStyle where
  least : Int
  limit : Int
  wholeMark : String

namespace DecimalStyle

/-- Digits with the point in place, the first digit standing for `10^leading`. -/
def positional (style : DecimalStyle) (digits : List Char) (leading : Int) : String :=
  if leading < 0 then
    "0." ++ String.ofList (List.replicate (-leading - 1).toNat '0' ++ digits)
  else
    let places := leading.toNat + 1
    if digits.length ≤ places then
      String.ofList (digits ++ List.replicate (places - digits.length) '0') ++ style.wholeMark
    else
      String.ofList (digits.take places) ++ "." ++ String.ofList (digits.drop places)

/-- Digits with the point after the first and a signed power of ten of two digits or more. -/
def scientific (digits : List Char) (leading : Int) : String :=
  let fraction := if digits.length ≤ 1 then "" else "." ++ String.ofList (digits.drop 1)
  let sign := if leading < 0 then "-" else "+"
  let power := decimalDigits leading.natAbs
  let padding := if power.length < 2 then "0" else ""
  String.ofList (digits.take 1) ++ fraction ++ "e" ++ sign ++ padding ++ String.ofList power

/-- The text of significant digits, the first standing for `10^leading`. -/
def layout (style : DecimalStyle) (digits : List Char) (leading : Int) : String :=
  if style.least ≤ leading ∧ leading < style.limit then style.positional digits leading
  else scientific digits leading

end DecimalStyle

/-- Whether a count of units is at least `10^power`. -/
def reachesPower (units : Nat) (power : Int) : Bool :=
  unitsPerOne * 10 ^ power.toNat ≤ units * 10 ^ (-power).toNat

/-- The power of ten that the leading digit of a positive count of units stands for. The logarithm
of two to base ten, times the binary exponent, is that power or falls one short of it. -/
def leadingPower (units : Nat) : Int :=
  let guess := ((units.log2 : Int) - oneExponent) * 30103 / 100000
  if reachesPower units (guess + 1) then guess + 1 else guess

end VirtualPrinter
