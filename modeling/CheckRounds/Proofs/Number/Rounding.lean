import CheckRounds.Number.Shortest
import Mathlib.Tactic.Linarith
import Mathlib.Tactic.Ring

namespace CheckRounds

/-! Rounding finds every finite number again from the quotients that are nearest to it, and so
from the shortest decimal of it.

A number is a significand of at most 53 bits, shifted by its exponent.  The number above has the
next significand and the same exponent, also where the bit pattern carries; the number below is
nearer if the significand is the least one.
-/

theorem roundDiv_eq {numerator denominator nearest : Nat}
    (low : 2 * nearest * denominator ≤ 2 * numerator + denominator)
    (high : 2 * numerator ≤ (2 * nearest + 1) * denominator)
    (noTie : nearest % 2 = 1 → 2 * nearest * denominator < 2 * numerator + denominator ∧
      2 * numerator < (2 * nearest + 1) * denominator)
    (positive : 0 < denominator) : roundDiv numerator denominator = nearest := by
  have split := Nat.div_add_mod numerator denominator
  have small := Nat.mod_lt numerator positive
  rw [roundDiv]
  generalize numerator / denominator = quotient at *
  generalize numerator % denominator = rest at *
  subst split
  have notBelow : quotient ≤ nearest := by
    by_contra below
    have step : (nearest + 1) * denominator ≤ quotient * denominator :=
      Nat.mul_le_mul_right _ (Nat.lt_of_not_le below)
    nlinarith
  have notAbove : nearest ≤ quotient + 1 := by
    by_contra above
    have step : (quotient + 2) * denominator ≤ nearest * denominator :=
      Nat.mul_le_mul_right _ (Nat.lt_of_not_le above)
    nlinarith
  rcases Nat.eq_or_lt_of_le notBelow with rfl | further
  · have atMost : 2 * rest ≤ denominator := by nlinarith
    have odd : quotient % 2 = 1 → 2 * rest < denominator := fun odd => by
      have := (noTie odd).2
      nlinarith
    split_ifs <;> omega
  · obtain rfl : nearest = quotient + 1 := by omega
    have atLeast : denominator ≤ 2 * rest := by nlinarith
    have odd : (quotient + 1) % 2 = 1 → denominator < 2 * rest := fun odd => by
      have := (noTie odd).1
      nlinarith
    split_ifs <;> omega

/-! ### Significand and exponent -/

namespace Binary64

variable {number : Binary64} {shift significand : Nat}

/-- A significand of at most 53 bits that is shifted to the left; only the numbers without a shift
have fewer bits. -/
structure HasParts (pattern shift significand : Nat) : Prop where
  pattern_eq : pattern = shift * 2 ^ 52 + significand
  le_limit : significand ≤ 2 ^ 53
  normal : shift ≠ 0 → 2 ^ 52 ≤ significand

theorem exists_parts (pattern : Nat) :
    ∃ shift significand, HasParts pattern shift significand ∧ significand < 2 ^ 53 := by
  refine ⟨pattern / 2 ^ 52 - 1, pattern - (pattern / 2 ^ 52 - 1) * 2 ^ 52, ⟨?_, ?_, ?_⟩, ?_⟩ <;> omega

/-- The parts give the size of a number, also where the significand has just become too long. -/
theorem HasParts.units_eq (parts : HasParts number.bits.toNat shift significand) :
    number.units = significand * 2 ^ shift := by
  obtain ⟨pattern_eq, le_limit, normal⟩ := parts
  simp only [units, Nat.pow_eq, pattern_eq]
  rcases Nat.lt_or_ge significand (2 ^ 52) with small | large
  · obtain rfl : shift = 0 := by
      by_contra shifted
      exact absurd (normal shifted) (Nat.not_le_of_lt small)
    rw [if_pos (by omega), Nat.pow_zero]
    omega
  · rcases Nat.eq_or_lt_of_le le_limit with rfl | below
    · rw [if_neg (by omega), show (shift * 2 ^ 52 + 2 ^ 53) / 2 ^ 52 - 1 = shift + 1 by omega,
        show (shift * 2 ^ 52 + 2 ^ 53) % 2 ^ 52 = 0 by omega]
      ring
    · rw [if_neg (by omega), show (shift * 2 ^ 52 + significand) / 2 ^ 52 - 1 = shift by omega,
        show 2 ^ 52 + (shift * 2 ^ 52 + significand) % 2 ^ 52 = significand by omega]

def above (number : Binary64) : Binary64 := ⟨number.bits + 1⟩

def below (number : Binary64) : Binary64 := ⟨number.bits - 1⟩

/-- Neither infinity nor anything behind it. -/
def IsFinite (number : Binary64) : Prop := number.bits < infinity.bits

instance (number : Binary64) : Decidable number.IsFinite := inferInstanceAs (Decidable (_ < _))

theorem IsFinite.toNat_lt (finite : number.IsFinite) : number.bits.toNat < infinity.bits.toNat :=
  UInt64.lt_iff_toNat_lt.mp finite

theorem IsFinite.toNat_above (finite : number.IsFinite) :
    number.above.bits.toNat = number.bits.toNat + 1 := by
  have small := finite.toNat_lt
  have limit : infinity.bits.toNat = 0x7FF0000000000000 := rfl
  rw [above, UInt64.toNat_add]
  simp only [UInt64.toNat_one]
  omega

theorem toNat_below (positive : number.bits.toNat ≠ 0) :
    number.below.bits.toNat + 1 = number.bits.toNat := by
  have some_bit : (1 : UInt64) ≤ number.bits := by
    rw [UInt64.le_iff_toNat_le, UInt64.toNat_one]
    omega
  rw [below, UInt64.toNat_sub_of_le _ _ some_bit, UInt64.toNat_one]
  omega

theorem HasParts.units_above (parts : HasParts number.bits.toNat shift significand)
    (short : significand < 2 ^ 53) (finite : number.IsFinite) :
    number.above.units = (significand + 1) * 2 ^ shift := by
  obtain ⟨pattern_eq, _, normal⟩ := parts
  refine HasParts.units_eq ⟨?_, short, fun shifted => Nat.le_succ_of_le (normal shifted)⟩
  rw [finite.toNat_above, pattern_eq, Nat.add_assoc]

/-- Below a significand that is not the least one the exponent stays the same. -/
theorem HasParts.units_below (parts : HasParts number.bits.toNat shift (significand + 1))
    (notLeast : shift ≠ 0 → 2 ^ 52 ≤ significand) :
    number.below.units = significand * 2 ^ shift := by
  obtain ⟨pattern_eq, le_limit, _⟩ := parts
  refine HasParts.units_eq ⟨?_, Nat.le_of_succ_le le_limit, notLeast⟩
  have some_bit : number.bits.toNat ≠ 0 := by omega
  have before := toNat_below some_bit
  omega

/-- Below the least significand the next exponent starts. -/
theorem HasParts.units_below_least (parts : HasParts number.bits.toNat (shift + 1) (2 ^ 52)) :
    number.below.units = (2 ^ 53 - 1) * 2 ^ shift := by
  have pattern_eq := parts.pattern_eq
  have some_bit : number.bits.toNat ≠ 0 := by omega
  have before := toNat_below some_bit
  exact HasParts.units_eq ⟨by omega, by omega, fun _ => by omega⟩

/-! ### Rounding to a number -/

variable {numerator denominator : Nat}

/-- How many times as large as the least positive number the number one is. -/
def unitsOfOne : Nat := Nat.pow 2 1074

theorem unitsOfOne_pos : 0 < unitsOfOne := by decide +kernel

theorem scale_def (numerator denominator : Nat) : scale numerator denominator =
    (let size := (numerator * unitsOfOne / denominator).log2
    if size < 53 then 0 else size - 52) := by
  unfold scale unitsOfOne
  rfl

theorem ofQuotient_def (numerator denominator : Nat) : ofQuotient numerator denominator =
    (let shift := scale numerator denominator
    let pattern := shift * 2 ^ 52 + roundDiv (numerator * unitsOfOne) (denominator * 2 ^ shift)
    if pattern < infinity.bits.toNat then ⟨pattern.toUInt64⟩ else infinity) := by
  unfold ofQuotient unitsOfOne
  rfl

/-- The quotient as a multiple of the least positive number has this many bits before the point. -/
theorem scale_eq (positive : 0 < denominator)
    (high : numerator * unitsOfOne < 2 ^ 53 * (denominator * 2 ^ shift))
    (low : shift ≠ 0 → 2 ^ 52 * (denominator * 2 ^ shift) ≤ numerator * unitsOfOne) :
    scale numerator denominator = shift := by
  have most : numerator * unitsOfOne / denominator < 2 ^ (53 + shift) := by
    rw [Nat.div_lt_iff_lt_mul positive, Nat.pow_add, Nat.mul_assoc, Nat.mul_comm (2 ^ shift)]
    exact high
  have least (shifted : shift ≠ 0) : 2 ^ (52 + shift) ≤ numerator * unitsOfOne / denominator := by
    rw [Nat.le_div_iff_mul_le positive, Nat.pow_add, Nat.mul_assoc, Nat.mul_comm (2 ^ shift)]
    exact low shifted
  rw [scale_def]
  generalize numerator * unitsOfOne / denominator = whole at *
  by_cases unshifted : shift = 0
  · subst unshifted
    have size : whole.log2 < 53 := by
      rcases Nat.eq_zero_or_pos whole with rfl | some_units
      · decide
      · exact (Nat.log2_lt (Nat.ne_of_gt some_units)).mpr most
    rw [if_pos size]
  · have some_units : whole ≠ 0 := by
      have := least unshifted
      have := Nat.two_pow_pos (52 + shift)
      omega
    have size : whole.log2 = 52 + shift := by
      refine (Nat.log2_eq_iff some_units).mpr ⟨least unshifted, ?_⟩
      rwa [show 52 + shift + 1 = 53 + shift by omega]
    rw [size, if_neg (by omega)]
    omega

/-- A significand and an exponent are found from the quotients that the significand is nearest to. -/
theorem ofQuotient_eq (finite : number.IsFinite)
    (pattern_eq : number.bits.toNat = shift * 2 ^ 52 + significand)
    (scaled : scale numerator denominator = shift)
    (rounded : roundDiv (numerator * unitsOfOne) (denominator * 2 ^ shift) = significand) :
    ofQuotient numerator denominator = number := by
  rw [ofQuotient_def]
  simp only [scaled, rounded]
  rw [← pattern_eq, if_pos finite.toNat_lt]
  exact congrArg mk number.bits.ofNat_toNat

/-- A quotient is no farther than halfway to the neighbours of a number, and nearer if the last bit
is odd. -/
structure IsNear (number : Binary64) (numerator denominator : Nat) : Prop where
  low : (number.units + number.below.units) * denominator ≤ 2 * (numerator * unitsOfOne)
  high : 2 * (numerator * unitsOfOne) ≤ (number.units + number.above.units) * denominator
  noTie : number.bits.toNat % 2 = 1 →
    (number.units + number.below.units) * denominator < 2 * (numerator * unitsOfOne) ∧
      2 * (numerator * unitsOfOne) < (number.units + number.above.units) * denominator

/-- Below the least significand the numbers are closer: there the quotient has the exponent below,
and rounding up carries. -/
theorem IsNear.ofQuotient_eq_of_least (near : number.IsNear numerator denominator)
    (finite : number.IsFinite) (positive : 0 < denominator)
    (parts : HasParts number.bits.toNat (shift + 1) (2 ^ 52)) :
    ofQuotient numerator denominator = number := by
  obtain ⟨low, high, _⟩ := near
  have pattern_eq := parts.pattern_eq
  rw [parts.units_above (by decide) finite, parts.units_eq] at high
  rw [parts.units_below_least, parts.units_eq] at low
  have closer : 0 < denominator * 2 ^ shift := Nat.mul_pos positive (Nat.two_pow_pos shift)
  have double : denominator * 2 ^ (shift + 1) = 2 * (denominator * 2 ^ shift) := by ring
  have lowEnd : 2 ^ 54 * (denominator * 2 ^ shift) ≤
      2 * (numerator * unitsOfOne) + denominator * 2 ^ shift := by
    refine Nat.le_trans (Nat.le_of_eq ?_) (Nat.add_le_add_right low _)
    norm_num
    ring
  have highEnd : 2 * (numerator * unitsOfOne) ≤ (2 * 2 ^ 52 + 1) * (denominator * 2 ^ (shift + 1)) := by
    nlinarith
  have even {bits : Nat} : 2 ^ (bits + 1) % 2 ≠ 1 := by omega
  by_cases same : 2 ^ 52 * (denominator * 2 ^ (shift + 1)) ≤ numerator * unitsOfOne
  · refine ofQuotient_eq finite pattern_eq (scale_eq positive ?_ fun _ => same)
      (roundDiv_eq ?_ highEnd (fun odd => absurd odd even) ?_)
    · linarith
    · linarith
    · linarith
  · have carried : number.bits.toNat = shift * 2 ^ 52 + 2 ^ 53 := by
      rw [pattern_eq]
      ring
    rw [double] at same
    refine ofQuotient_eq finite carried (scale_eq positive ?_ fun _ => ?_)
      (roundDiv_eq ?_ ?_ (fun odd => absurd odd even) closer)
    · linarith
    · linarith
    · linarith
    · linarith

theorem IsNear.ofQuotient_eq_of_not_least (near : number.IsNear numerator denominator)
    (finite : number.IsFinite) (positive : 0 < denominator)
    (parts : HasParts number.bits.toNat shift (significand + 1)) (short : significand + 1 < 2 ^ 53)
    (notLeast : shift ≠ 0 → 2 ^ 52 ≤ significand) : ofQuotient numerator denominator = number := by
  obtain ⟨low, high, noTie⟩ := near
  have pattern_eq := parts.pattern_eq
  rw [parts.units_above short finite, parts.units_eq] at high noTie
  rw [parts.units_below notLeast, parts.units_eq] at low
  rw [parts.units_below notLeast] at noTie
  have lowEnd : (2 * significand + 1) * (denominator * 2 ^ shift) ≤ 2 * (numerator * unitsOfOne) := by
    nlinarith
  have highEnd : 2 * (numerator * unitsOfOne) ≤ (2 * (significand + 1) + 1) * (denominator * 2 ^ shift) := by
    nlinarith
  have scaled : 0 < denominator * 2 ^ shift := Nat.mul_pos positive (Nat.two_pow_pos shift)
  refine ofQuotient_eq finite pattern_eq (scale_eq positive ?_ fun shifted => ?_)
    (roundDiv_eq ?_ highEnd (fun odd => ?_) scaled)
  · nlinarith
  · have large := notLeast shifted
    nlinarith
  · nlinarith
  · have strict := noTie (by omega)
    constructor <;> nlinarith

/-- Every quotient that is near to a finite number is rounded to it. -/
theorem IsNear.ofQuotient_eq (near : number.IsNear numerator denominator) (finite : number.IsFinite)
    (some_bit : number.bits.toNat ≠ 0) (positive : 0 < denominator) :
    ofQuotient numerator denominator = number := by
  obtain ⟨shift, significand, parts, short⟩ := exists_parts number.bits.toNat
  have pattern_eq := parts.pattern_eq
  have normal := parts.normal
  by_cases least : shift ≠ 0 ∧ significand = 2 ^ 52
  · obtain ⟨shifted, rfl⟩ := least
    obtain ⟨before, rfl⟩ := Nat.exists_eq_succ_of_ne_zero shifted
    exact near.ofQuotient_eq_of_least finite positive parts
  · obtain ⟨before, rfl⟩ : ∃ before, significand = before + 1 := ⟨significand - 1, by omega⟩
    exact near.ofQuotient_eq_of_not_least finite positive parts short (by omega)

/-- Quotients of the same value are near to the same numbers. -/
theorem IsNear.congr {numerator' denominator' : Nat} (near : number.IsNear numerator denominator)
    (positive : 0 < denominator) (positive' : 0 < denominator')
    (same : numerator * denominator' = numerator' * denominator) :
    number.IsNear numerator' denominator' := by
  obtain ⟨low, high, noTie⟩ := near
  have scaled : numerator' * unitsOfOne * denominator = numerator * unitsOfOne * denominator' := by
    rw [Nat.mul_right_comm, ← same, Nat.mul_right_comm]
  have left (bound : Nat) : bound * denominator ≤ 2 * (numerator * unitsOfOne) ↔
      bound * denominator' ≤ 2 * (numerator' * unitsOfOne) := by
    rw [← Nat.mul_le_mul_right_iff positive', Nat.mul_assoc 2, ← scaled, ← Nat.mul_assoc 2,
      Nat.mul_right_comm, Nat.mul_le_mul_right_iff positive]
  have right (bound : Nat) : 2 * (numerator * unitsOfOne) ≤ bound * denominator ↔
      2 * (numerator' * unitsOfOne) ≤ bound * denominator' := by
    rw [← Nat.mul_le_mul_right_iff positive', Nat.mul_assoc 2, ← scaled, ← Nat.mul_assoc 2,
      Nat.mul_right_comm bound, Nat.mul_le_mul_right_iff positive]
  refine ⟨(left _).mp low, (right _).mp high, fun odd => ?_⟩
  rw [← Nat.not_le, ← Nat.not_le, ← left, ← right, Nat.not_le, Nat.not_le]
  exact noTie odd

theorem units_below_lt (some_bit : number.bits.toNat ≠ 0) : number.below.units < number.units := by
  obtain ⟨shift, significand, parts, short⟩ := exists_parts number.bits.toNat
  have pattern_eq := parts.pattern_eq
  have normal := parts.normal
  have positive (bits : Nat) := Nat.two_pow_pos bits
  rw [parts.units_eq]
  by_cases least : shift ≠ 0 ∧ significand = 2 ^ 52
  · obtain ⟨shifted, rfl⟩ := least
    obtain ⟨before, rfl⟩ := Nat.exists_eq_succ_of_ne_zero shifted
    rw [parts.units_below_least, Nat.pow_succ]
    have := positive before
    omega
  · obtain ⟨before, rfl⟩ : ∃ before, significand = before + 1 := ⟨significand - 1, by omega⟩
    rw [parts.units_below (by omega)]
    exact Nat.mul_lt_mul_of_pos_right (Nat.lt_succ_self before) (positive shift)

theorem IsFinite.units_lt_above (finite : number.IsFinite) : number.units < number.above.units := by
  obtain ⟨shift, significand, parts, short⟩ := exists_parts number.bits.toNat
  rw [parts.units_above short finite, parts.units_eq]
  exact Nat.mul_lt_mul_of_pos_right (Nat.lt_succ_self significand) (Nat.two_pow_pos shift)

/-- A finite number is near to itself. -/
theorem IsFinite.isNear_units (finite : number.IsFinite) (some_bit : number.bits.toNat ≠ 0) :
    number.IsNear number.units unitsOfOne := by
  have lower := units_below_lt some_bit
  have upper := finite.units_lt_above
  have positive := unitsOfOne_pos
  refine ⟨?_, ?_, fun _ => ⟨?_, ?_⟩⟩ <;> nlinarith

end Binary64

end CheckRounds
