namespace CheckRounds

/-! 64-bit binary floating point, without the sign.

A value is kept as its bit pattern.  A quotient is rounded to the nearest number, of
two equally near ones to that with an even last bit, and to infinity from halfway past
the greatest finite number on; decimals, products and quotients are rounded that way.
-/

structure Binary64 where
  bits : UInt64
deriving DecidableEq, Repr, Inhabited

/-- The decimal number `digits · 10 ^ (-places)`. -/
structure Decimal where
  digits : Nat
  places : Nat
deriving DecidableEq, Repr, Inhabited

/-- The integer nearest to a quotient; a half goes to the even neighbour. -/
def roundDiv (numerator denominator : Nat) : Nat :=
  let quotient := numerator / denominator
  let twice := 2 * (numerator % denominator)
  if twice < denominator then quotient
  else if twice = denominator then quotient + quotient % 2
  else quotient + 1

namespace Binary64

def infinity : Binary64 := ⟨0x7FF0000000000000⟩

/-- The exponent, counted from that of the least positive number, at which the
quotient has at most 53 bits before the point; the least one for small quotients. -/
def scale (numerator denominator : Nat) : Nat :=
  let size := (numerator * Nat.pow 2 1074 / denominator).log2
  if size < 53 then 0 else size - 52

/-- The bit pattern nearest to a quotient.  Patterns count the positive numbers in
order, so a significand that rounds up to 54 bits carries into the exponent. -/
def ofQuotient (numerator denominator : Nat) : Binary64 :=
  let shift := scale numerator denominator
  let significand := roundDiv (numerator * Nat.pow 2 1074) (denominator * Nat.pow 2 shift)
  let pattern := shift * Nat.pow 2 52 + significand
  if pattern < infinity.bits.toNat then ⟨pattern.toUInt64⟩ else infinity

def ofDecimal (number : Decimal) : Binary64 := ofQuotient number.digits (Nat.pow 10 number.places)

def ofNat (value : Nat) : Binary64 := ofQuotient value 1

/-- How many times as large as the least positive number a finite number is. -/
def units (number : Binary64) : Nat :=
  let exponent := number.bits.toNat / Nat.pow 2 52
  let fraction := number.bits.toNat % Nat.pow 2 52
  if exponent = 0 then fraction else (Nat.pow 2 52 + fraction) * Nat.pow 2 (exponent - 1)

def product (first second : Binary64) : Binary64 :=
  ofQuotient (first.units * second.units) (Nat.pow 2 1074 * Nat.pow 2 1074)

def quotient (first second : Binary64) : Binary64 := ofQuotient first.units second.units

end Binary64

end CheckRounds
