import VirtualPrinter.Binary64.Decimal

/-!
# Six significant digits

The text of a value rounded to six significant digits, without the zeros at the end of its fraction.
-/

namespace VirtualPrinter

/-- The six digits nearest to a positive magnitude, ties to even, and the power of ten of the first.
Rounding up to the next power of ten moves that power. -/
def Magnitude.sixDigits (m : Magnitude) : List Char × Int :=
  let leading := leadingPower m.units
  let scaled := roundQuotient (m.units * 10 ^ (5 - leading).toNat)
    (unitsPerOne * 10 ^ (leading - 5).toNat)
  if scaled = 10 ^ (6 : Nat) then (decimalDigits (10 ^ (5 : Nat)), leading + 1)
  else (decimalDigits scaled, leading)

def dropTrailingZeros (digits : List Char) : List Char :=
  (digits.reverse.dropWhile (· = '0')).reverse

namespace Binary64

/-- Powers of ten from -4 to 5 have the point in place, and nothing follows a whole number. -/
def sixDigitStyle : DecimalStyle := ⟨-4, 6, ""⟩

/-- The text of a value rounded to six significant digits. -/
def sixDigitText : Binary64 → String
  | nan => "nan"
  | infinity negative => if negative then "-inf" else "inf"
  | finite negative m =>
    let sign := if negative then "-" else ""
    if m.units = 0 then sign ++ "0"
    else
      let (digits, leading) := m.sixDigits
      sign ++ sixDigitStyle.layout (dropTrailingZeros digits) leading

end Binary64

end VirtualPrinter
