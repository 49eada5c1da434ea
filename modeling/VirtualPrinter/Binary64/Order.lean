import VirtualPrinter.Binary64.Rounding

/-!
# Comparing values

Numbers compare by their place on the line of units, so the two zeros are equal and not-a-number
compares false with everything, itself included. The smaller and the larger of two values keep the
first one unless the second is strictly beyond it; with not-a-number the order of the arguments
therefore matters.
-/

namespace VirtualPrinter.Binary64

def lt (x y : Binary64) : Bool :=
  match x.place?, y.place? with
  | some a, some b => decide (a < b)
  | _, _ => false

def le (x y : Binary64) : Bool :=
  match x.place?, y.place? with
  | some a, some b => decide (a ≤ b)
  | _, _ => false

def sameNumber (x y : Binary64) : Bool :=
  match x.place?, y.place? with
  | some a, some b => decide (a = b)
  | _, _ => false

theorem lt_irrefl (x : Binary64) : x.lt x = false := by
  unfold lt
  cases x.place? with
  | none => rfl
  | some a => exact decide_eq_false (Int.lt_irrefl a)

theorem nan_lt (x : Binary64) : nan.lt x = false := rfl

theorem lt_nan (x : Binary64) : x.lt nan = false := by
  cases x <;> rfl

/-- The first value, unless the second is strictly less. -/
def smaller (first second : Binary64) : Binary64 :=
  if second.lt first then second else first

/-- The first value, unless the second is strictly greater. -/
def larger (first second : Binary64) : Binary64 :=
  if first.lt second then second else first

/-- The value brought into the range from zero to one; not-a-number becomes one. -/
def clampToUnit (x : Binary64) : Binary64 := larger 0 (smaller 1 x)

end VirtualPrinter.Binary64
