import CheckRounds.Number.Binary64

namespace CheckRounds

/-! Decimal numbers with an exponent, read into 64-bit binary floating point in two
steps.

The digits and the power of ten are rounded each by itself, and their product or
quotient is rounded once more.  With few digits and a small exponent the first two are
exact, so that the number is the nearest one; otherwise a neighbour of it may result.
-/

/-- The number `digits · 10 ^ exponent`. -/
structure Scientific where
  digits : Nat
  exponent : Int
deriving DecidableEq, Repr, Inhabited

namespace Binary64

/-- The exponent of the greatest power of ten that is finite. -/
def greatestTen : Nat := 308

def powerOfTen (exponent : Nat) : Binary64 := ofNat (Nat.pow 10 exponent)

/-- Divides by a power of ten, and by the greatest one first as often as that is too
great. -/
def overPowerOfTen (number : Binary64) (exponent : Nat) : Binary64 :=
  if exponent ≤ greatestTen then number.quotient (powerOfTen exponent)
  else if number.bits = 0 then number
  else (number.quotient (powerOfTen greatestTen)).overPowerOfTen (exponent - greatestTen)
termination_by exponent
decreasing_by simp only [greatestTen] at *; omega

def ofScientific (number : Scientific) : Binary64 :=
  let digits := ofNat number.digits
  if number.exponent < 0 then digits.overPowerOfTen number.exponent.natAbs
  else if number.exponent.natAbs ≤ greatestTen then digits.product (powerOfTen number.exponent.natAbs)
  else if number.digits = 0 then digits
  else infinity

end Binary64

end CheckRounds
