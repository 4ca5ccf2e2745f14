import CheckRounds.Number.Words

namespace CheckRounds

/-! Decimal numerals, and the numbers that are read from them. -/

/-- The numerals that are read: digits with a plus sign in front or none. -/
theorem readNumeral?_eq_some_iff {text : List Char} {number : Nat} :
    readNumeral? text = some number ↔ ∃ sign digits, text = sign ++ digits ∧
      (sign = [] ∨ sign = ['+']) ∧ digits ≠ [] ∧ digits.all Char.isDigit = true ∧
      digitsValue digits = number ∧ number < wordLimit := by
  have read (digits : List Char) :
      (if digits.isEmpty || !digits.all Char.isDigit then none
        else if digitsValue digits < wordLimit then some (digitsValue digits) else none) = some number ↔
        digits ≠ [] ∧ digits.all Char.isDigit = true ∧ digitsValue digits = number ∧
          number < wordLimit := by
    simp only [Option.ite_none_left_eq_some, Option.ite_none_right_eq_some, Option.some.injEq,
      Bool.or_eq_true, not_or, Bool.not_eq_true', Bool.not_eq_false, List.isEmpty_iff, and_assoc]
    refine and_congr_right fun _ => and_congr_right fun _ => ?_
    constructor
    · intro ⟨fits, same⟩
      exact ⟨same, same ▸ fits⟩
    · intro ⟨same, fits⟩
      exact ⟨same ▸ fits, same⟩
  by_cases signed : ∃ rest, text = '+' :: rest
  · obtain ⟨rest, rfl⟩ := signed
    refine (read rest).trans ?_
    constructor
    · exact fun holds => ⟨['+'], rest, rfl, .inr rfl, holds⟩
    · rintro ⟨sign, digits, shape, rfl | rfl, holds⟩
      · rw [List.nil_append] at shape
        rw [← shape] at holds
        exact absurd holds.2.1 (by simp)
      · cases shape
        exact holds
  · have unsigned : ∀ rest, text = '+' :: rest → False := fun rest same => signed ⟨rest, same⟩
    rw [readNumeral?.eq_2 text unsigned]
    refine (read text).trans ?_
    constructor
    · exact fun holds => ⟨[], text, rfl, .inl rfl, holds⟩
    · rintro ⟨sign, digits, shape, rfl | rfl, holds⟩
      · rw [List.nil_append] at shape
        rwa [shape]
      · exact (unsigned digits shape).elim

/-- The numeral of a number has its value. -/
theorem digitsValue_toDigits (number : Nat) : digitsValue (Nat.toDigits 10 number) = number := by
  have same : digitsValue (Nat.toDigits 10 number) = Nat.ofDigitChars 10 (Nat.toDigits 10 number) 0 := by
    simp only [digitsValue, Nat.ofDigitChars, Nat.mul_comm 10]
  rw [same, Nat.ofDigitChars_ten_toDigits]

end CheckRounds
