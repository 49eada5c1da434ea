import VirtualPrinter.Binary64.Decimal

/-!
# The shortest decimal that reads back

Of all decimals that round to a value, the shortest one has the fewest significant digits, and among
those it is the nearest to the value. Decimals are searched grid by grid: on the grid of multiples
of `10^k` only the two neighbours of the value can be the nearest hit, and the coarsest grid with a
hit gives the fewest digits.
-/

namespace VirtualPrinter

/-- Where the reals lie that round to a magnitude, in quarters of a unit. The ends belong to it when
the last significant bit is even. -/
structure RoundingInterval where
  low : Nat
  high : Nat
  closed : Bool

/-- Half a step to either side; below a power of two the steps are half as wide. -/
def Magnitude.interval (m : Magnitude) : RoundingInterval :=
  let step := 2 ^ lastPlace m.units
  let narrow := m.units = 2 ^ m.units.log2 ∧ 0 < lastPlace m.units
  { low := 4 * m.units - (if narrow then step else 2 * step)
    high := 4 * m.units + 2 * step
    closed := m.units / step % 2 = 0 }

/-- Whether the quotient `num / den` of quarter units lies in the interval. -/
def RoundingInterval.contains (i : RoundingInterval) (num den : Nat) : Bool :=
  if i.closed then i.low * den ≤ num ∧ num ≤ i.high * den
  else i.low * den < num ∧ num < i.high * den

/-- The multiple of `10^k` nearest to a magnitude among those in its interval, as a factor; a tie
goes to the even factor. -/
def Magnitude.factorOnGrid? (m : Magnitude) (interval : RoundingInterval) (k : Int) : Option Nat :=
  let scale := 10 ^ (-k).toNat
  let grid := 4 * unitsPerOne * 10 ^ k.toNat
  let value := 4 * m.units * scale
  let below := value / grid
  match interval.contains (below * grid) scale, interval.contains ((below + 1) * grid) scale with
  | true, true => some (roundQuotient value grid)
  | true, false => some below
  | false, true => some (below + 1)
  | false, false => none

/-- The digits of the shortest decimal and the power of ten of its first digit. Nineteen grids reach
from the power above the leading digit to more than seventeen significant digits. -/
def Magnitude.shortestDigits (m : Magnitude) : List Char × Int :=
  let top := leadingPower m.units + 1
  let interval := m.interval
  let hit := (List.range 19).findSome? fun (i : Nat) =>
    (m.factorOnGrid? interval (top - i)).map fun factor => (factor, top - i)
  let (factor, k) := hit.getD (0, 0)
  let digits := decimalDigits factor
  (digits, k + digits.length - 1)

namespace Binary64

/-- Powers of ten from -4 to 15 have the point in place, and whole numbers end in `.0`. -/
def shortestStyle : DecimalStyle := ⟨-4, 16, ".0"⟩

/-- The shortest decimal text that reads back as the value. -/
def shortestText : Binary64 → String
  | nan => "nan"
  | infinity negative => if negative then "-inf" else "inf"
  | finite negative m =>
    let sign := if negative then "-" else ""
    if m.units = 0 then sign ++ "0.0"
    else
      let (digits, leading) := m.shortestDigits
      sign ++ shortestStyle.layout digits leading

end Binary64

end VirtualPrinter
