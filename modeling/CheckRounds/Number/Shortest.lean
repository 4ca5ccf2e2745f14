import CheckRounds.Number.Scientific

namespace CheckRounds

/-! The decimal with the fewest digits that is nearer to a number than to both of its
neighbours.

Numbers are compared exactly, as multiples of the least positive one.  A decimal halfway
between two numbers belongs to the one with the even last bit.
-/

/-- The same decimal without zeros at the end; zero has the exponent zero. -/
def Scientific.dropZeros (decimal : Scientific) : Scientific :=
  if decimal.digits = 0 then ⟨0, 0⟩
  else if decimal.digits % 10 = 0 then Scientific.dropZeros ⟨decimal.digits / 10, decimal.exponent + 1⟩
  else decimal
termination_by decimal.digits

namespace Binary64

/-- Whether a decimal is nearest to a finite number. -/
def isNearest (number : Binary64) (decimal : Scientific) : Bool :=
  let above : Binary64 := ⟨number.bits + 1⟩
  let below : Binary64 := ⟨number.bits - 1⟩
  let scale := Nat.pow 10 (-decimal.exponent).toNat
  let twice := decimal.digits * Nat.pow 10 decimal.exponent.toNat * Nat.pow 2 1075
  let lower := (number.units + below.units) * scale
  let upper := (number.units + above.units) * scale
  if number.bits % 2 = 0 then lower ≤ twice && twice ≤ upper else lower < twice && twice < upper

/-- Every positive number has digits before the point when the point is moved so far. -/
def pointShift : Nat := 324

/-- The number of digits before the point; for a number below one the zeros behind the
point count as fewer than none. -/
def pointPlace (number : Binary64) : Int :=
  ((toString (number.units * Nat.pow 10 pointShift / Nat.pow 2 1074)).length : Int) - pointShift

/-- The nearest decimal with a given exponent, if a decimal with that exponent is nearest
to the number.  Of two decimals that are equally far, it is the one with the even last digit. -/
def atExponent? (number : Binary64) (exponent : Int) : Option Scientific :=
  let numerator := number.units * Nat.pow 10 (-exponent).toNat
  let denominator := Nat.pow 2 1074 * Nat.pow 10 exponent.toNat
  let floor : Scientific := ⟨numerator / denominator, exponent⟩
  let ceiling : Scientific := ⟨numerator / denominator + 1, exponent⟩
  let nearer : Scientific := ⟨roundDiv numerator denominator, exponent⟩
  match number.isNearest floor, number.isNearest ceiling with
  | true, true => some nearer
  | true, false => some floor
  | false, true => some ceiling
  | false, false => none

/-- Decimals of one digit are tried first, then those of two and so on; seventeen are
always enough. -/
def shortest (number : Binary64) : Scientific :=
  let exact : Scientific := ⟨number.units * Nat.pow 5 1074, -1074⟩
  if number.bits = 0 then exact.dropZeros
  else
    let place := number.pointPlace
    let found := (List.range 17).findSome? fun (count : Nat) => number.atExponent? (place - count - 1)
    (found.getD exact).dropZeros

end Binary64

end CheckRounds
