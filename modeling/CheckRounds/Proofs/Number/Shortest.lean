import CheckRounds.Proofs.Number.Rounding

namespace CheckRounds

/-! The shortest decimal of a finite number is rounded to that number. -/

namespace Scientific

/-- A decimal as a quotient. -/
def numerator (decimal : Scientific) : Nat := decimal.digits * 10 ^ decimal.exponent.toNat

def denominator (decimal : Scientific) : Nat := 10 ^ (-decimal.exponent).toNat

theorem denominator_pos (decimal : Scientific) : 0 < decimal.denominator := Nat.pow_pos (by decide)

/-- A zero at the end may be left out. -/
theorem value_of_tens (tens : Nat) (exponent : Int) :
    numerator ⟨10 * tens, exponent⟩ * denominator ⟨tens, exponent + 1⟩ =
      numerator ⟨tens, exponent + 1⟩ * denominator ⟨10 * tens, exponent⟩ := by
  rw [numerator, numerator, denominator, denominator]
  dsimp only
  rcases Int.lt_or_le exponent 0 with negative | positive
  · obtain ⟨places, rfl⟩ := Int.eq_negSucc_of_lt_zero negative
    have noPlaces : (Int.negSucc places).toNat = 0 ∧ (Int.negSucc places + 1).toNat = 0 := by omega
    have shifted : (-Int.negSucc places).toNat = (-(Int.negSucc places + 1)).toNat + 1 := by omega
    rw [noPlaces.1, noPlaces.2, shifted]
    ring
  · have noPlaces : (-exponent).toNat = 0 ∧ (-(exponent + 1)).toNat = 0 := by omega
    rw [noPlaces.1, noPlaces.2, show (exponent + 1).toNat = exponent.toNat + 1 by omega]
    ring

end Scientific

namespace Binary64

open Scientific (numerator denominator denominator_pos)

variable {number : Binary64} {decimal : Scientific}

/-- A decimal is rounded to a number. -/
abbrev IsNearTo (number : Binary64) (decimal : Scientific) : Prop :=
  number.IsNear decimal.numerator decimal.denominator

theorem isNearTo_of_isNearest (nearest : number.isNearest decimal = true) : number.IsNearTo decimal := by
  have double : Nat.pow 2 1075 = 2 * unitsOfOne := by decide +kernel
  have twice : decimal.digits * Nat.pow 10 decimal.exponent.toNat * Nat.pow 2 1075 =
      2 * (decimal.numerator * unitsOfOne) := by
    rw [double, Nat.mul_left_comm]
    rfl
  have parity : number.bits % 2 = 0 ↔ number.bits.toNat % 2 = 0 := by
    rw [← UInt64.toNat_inj, UInt64.toNat_mod]
    rfl
  simp only [isNearest, twice, parity] at nearest
  split at nearest
  · next even =>
      obtain ⟨low, high⟩ := Bool.and_eq_true_iff.mp nearest
      exact ⟨of_decide_eq_true low, of_decide_eq_true high, fun odd => absurd odd (by omega)⟩
  · obtain ⟨low, high⟩ := Bool.and_eq_true_iff.mp nearest
    have low := of_decide_eq_true low
    have high := of_decide_eq_true high
    exact ⟨Nat.le_of_lt low, Nat.le_of_lt high, fun _ => ⟨low, high⟩⟩

theorem IsNear.dropZeros (near : number.IsNearTo decimal) : number.IsNearTo decimal.dropZeros := by
  fun_induction Scientific.dropZeros decimal with
  | case1 decimal zero =>
      refine near.congr (denominator_pos _) (denominator_pos _) ?_
      simp [numerator, zero]
  | case2 decimal _ zeroLast ih =>
      refine ih (near.congr (denominator_pos _) (denominator_pos _) ?_)
      obtain ⟨digits, exponent⟩ := decimal
      obtain ⟨tens, rfl⟩ := Nat.dvd_of_mod_eq_zero zeroLast
      rw [Nat.mul_div_cancel_left tens (by decide)]
      exact Scientific.value_of_tens tens exponent
  | case3 => exact near

theorem roundDiv_eq_or (numerator denominator : Nat) :
    roundDiv numerator denominator = numerator / denominator ∨
      roundDiv numerator denominator = numerator / denominator + 1 := by
  rw [roundDiv]
  split_ifs <;> omega

theorem isNearest_of_atExponent? {exponent : Int} (found : number.atExponent? exponent = some decimal) :
    number.isNearest decimal = true := by
  simp only [atExponent?] at found
  generalize number.units * Nat.pow 10 (-exponent).toNat = numerator at found
  generalize Nat.pow 2 1074 * Nat.pow 10 exponent.toNat = denominator at found
  split at found
  · next nearFloor nearCeiling =>
      cases found
      rcases roundDiv_eq_or numerator denominator with same | same
      · rw [same]
        exact nearFloor
      · rw [same]
        exact nearCeiling
  · next nearFloor _ =>
      cases found
      exact nearFloor
  · next nearCeiling =>
      cases found
      exact nearCeiling
  · contradiction

/-- A multiple of a negative power of two as a decimal. -/
theorem value_of_halves (units places : Nat) :
    units * denominator ⟨units * Nat.pow 5 places, -places⟩ =
      numerator ⟨units * Nat.pow 5 places, -places⟩ * Nat.pow 2 places := by
  simp only [numerator, denominator, Nat.pow_eq]
  rw [Int.neg_neg, Int.toNat_natCast, Int.toNat_neg_natCast, Nat.pow_zero, Nat.mul_one, Nat.mul_assoc,
    ← Nat.mul_pow]

/-- If there were no short decimal, the exact one would still be near. -/
theorem IsFinite.isNearTo_shortest (finite : number.IsFinite) (some_bit : number.bits ≠ 0) :
    number.IsNearTo number.shortest := by
  have positive : number.bits.toNat ≠ 0 := fun zero => some_bit (UInt64.toNat_inj.mp zero)
  rw [shortest, if_neg some_bit]
  refine IsNear.dropZeros ?_
  generalize search : List.findSome? _ _ = found
  cases found with
  | some decimal =>
      obtain ⟨_, _, atExponent⟩ := List.exists_of_findSome?_eq_some search
      exact isNearTo_of_isNearest (isNearest_of_atExponent? atExponent)
  | none =>
      refine (finite.isNear_units positive).congr unitsOfOne_pos (denominator_pos _) ?_
      rw [unitsOfOne]
      exact value_of_halves number.units 1074

/-- A finite number is found again from its shortest decimal. -/
theorem IsFinite.ofQuotient_shortest (finite : number.IsFinite) :
    ofQuotient number.shortest.numerator number.shortest.denominator = number := by
  by_cases some_bit : number.bits = 0
  · obtain ⟨bits⟩ := number
    cases some_bit
    decide +kernel
  · have positive : number.bits.toNat ≠ 0 := fun zero => some_bit (UInt64.toNat_inj.mp zero)
    exact (finite.isNearTo_shortest some_bit).ofQuotient_eq finite positive (denominator_pos _)

end Binary64

end CheckRounds
