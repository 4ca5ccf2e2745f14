import CheckRounds.Proofs.Message.Acknowledgement.Reading
import CheckRounds.Proofs.Number.Numerals
import CheckRounds.Proofs.Number.Shortest

namespace CheckRounds

/-! The two wordings of acknowledgements, and what is read back from them. -/

/-- A decimal with all its digits and no exponent, with a point only if there are places behind it. -/
def Scientific.writtenOut (decimal : Scientific) : List Char :=
  if decimal.exponent < 0 then
    let places := decimal.exponent.natAbs
    let digits := (Nat.toDigits 10 decimal.digits).leftpad (places + 1) '0'
    digits.take (digits.length - places) ++ '.' :: digits.drop (digits.length - places)
  else Nat.toDigits 10 (decimal.digits * 10 ^ decimal.exponent.toNat)

namespace Acknowledgement

open Text

inductive Wording
  | plain
  | punctuated

def Wording.text (processed failed total : Nat) (seconds : String) : Wording → String
  | .plain => s!"Processed {processed} Failed {failed} Total {total} Seconds spent {seconds}"
  | .punctuated =>
      s!"processed: {processed}; failed: {failed}; total: {total}; seconds spent: {seconds}"

/-! ### Written numbers -/

theorem all_isDigit_toDigits (number : Nat) : (Nat.toDigits 10 number).all Char.isDigit = true :=
  List.all_eq_true.mpr fun _ member => Json.isDigit_of_mem_toDigits member

def writtenNumeral (number : Nat) : AsciiNumeral where
  chars := Nat.toDigits 10 number
  some_char := Nat.toDigits_ne_nil
  all := all_isDigit_toDigits number

theorem value_writtenNumeral (number : Nat) : (writtenNumeral number).value = number :=
  digitsValue_toDigits number

theorem digitsValue_leftpad (width : Nat) (digits : List Char) :
    digitsValue (digits.leftpad width '0') = digitsValue digits := by
  have zeros (count : Nat) : (List.replicate count '0').foldl
      (fun value digit => value * 10 + (digit.toNat - '0'.toNat)) 0 = 0 := by
    induction count with
    | zero => rfl
    | succ count ih => exact ih
  rw [digitsValue, List.leftpad, List.foldl_append, zeros]
  rfl

/-- A point between digits makes the last ones places. -/
theorem exists_places {digits : List Char} {places : Nat} (all : digits.all Char.isDigit = true)
    (some_place : 0 < places) (some_digit : places < digits.length) :
    ∃ whole fraction : AsciiNumeral, digits.take (digits.length - places) = whole.chars ∧
      digits.drop (digits.length - places) = fraction.chars ∧
        decimalOf whole (some fraction) = ⟨digitsValue digits, places⟩ := by
  have split := List.take_append_drop (digits.length - places) digits
  rw [← split, List.all_append, Bool.and_eq_true] at all
  have whole_ne : digits.take (digits.length - places) ≠ [] := by
    rw [← List.length_pos_iff, List.length_take]
    omega
  have fraction_ne : digits.drop (digits.length - places) ≠ [] := by
    rw [← List.length_pos_iff, List.length_drop]
    omega
  refine ⟨⟨_, whole_ne, all.1⟩, ⟨_, fraction_ne, all.2⟩, rfl, rfl, ?_⟩
  rw [decimalOf, split, List.length_drop, Nat.sub_sub_self (Nat.le_of_lt some_digit)]

/-- A decimal that is written out is read as the quotient that it is. -/
theorem exists_writtenOut (decimal : Scientific) :
    ∃ (whole : AsciiNumeral) (fraction : Option AsciiNumeral),
      decimal.writtenOut = whole.chars ++ pointed fraction ∧
        Binary64.ofDecimal (decimalOf whole fraction) =
          Binary64.ofQuotient decimal.numerator decimal.denominator := by
  obtain ⟨digits, exponent⟩ := decimal
  rw [Scientific.writtenOut, Scientific.numerator, Scientific.denominator]
  dsimp only
  split
  · next negative =>
      obtain ⟨before, rfl⟩ := Int.eq_negSucc_of_lt_zero negative
      have all : ((Nat.toDigits 10 digits).leftpad (before + 1 + 1) '0').all Char.isDigit = true := by
        rw [List.leftpad, List.all_append, all_isDigit_toDigits, Bool.and_true, List.all_eq_true]
        intro c inside
        rw [List.eq_of_mem_replicate inside]
        rfl
      have some_digit : before + 1 < ((Nat.toDigits 10 digits).leftpad (before + 1 + 1) '0').length := by
        rw [List.length_leftpad]
        omega
      obtain ⟨whole, fraction, sameWhole, sameFraction, decimal⟩ :=
        exists_places all (Nat.succ_pos before) some_digit
      refine ⟨whole, some fraction, ?_, ?_⟩
      · rw [Int.natAbs_negSucc, sameWhole, sameFraction, pointed]
      · have noPlaces : (Int.negSucc before).toNat = 0 := rfl
        have places : (-Int.negSucc before).toNat = before + 1 := rfl
        rw [decimal, digitsValue_leftpad, digitsValue_toDigits, Binary64.ofDecimal, noPlaces, places,
          Nat.pow_zero, Nat.mul_one, Nat.pow_eq]
  · next positive =>
      refine ⟨writtenNumeral (digits * 10 ^ exponent.toNat), none, (List.append_nil _).symm, ?_⟩
      have noPlaces : (-exponent).toNat = 0 := by omega
      rw [decimalOf, value_writtenNumeral, noPlaces, Binary64.ofDecimal, Nat.pow_eq]

/-! ### Wordings -/

/-- Words and numbers in turn. -/
theorem toList_alternating (first second third last : String) (processed failed total : Nat)
    (seconds : List Char) :
    s!"{first}{processed}{second}{failed}{third}{total}{last}{String.ofList seconds}".toList =
      first.toList ++ ((writtenNumeral processed).chars ++ (second.toList ++
        ((writtenNumeral failed).chars ++ (third.toList ++ ((writtenNumeral total).chars ++
          (last.toList ++ seconds)))))) := by
  have itself (text : String) : toString text = text := rfl
  have numeral (number : Nat) : (toString number).toList = (writtenNumeral number).chars := Nat.toList_repr
  simp only [itself, String.toList_append, String.toList_ofList, numeral, List.append_assoc]

/-- Both wordings are spellings with the numbers that are put into them. -/
theorem Wording.exists_spelling (wording : Wording) (processed failed total : Nat)
    (whole : AsciiNumeral) (fraction : Option AsciiNumeral) :
    ∃ spelling : Spelling .asciiOnly,
      spelling.text =
        (wording.text processed failed total (String.ofList (whole.chars ++ pointed fraction))).toList ∧
      spelling.processed.number = writtenNumeral processed ∧
      spelling.failed.number = writtenNumeral failed ∧ spelling.total.number = writtenNumeral total ∧
      spelling.whole = whole ∧ spelling.fraction = fraction := by
  cases wording with
  | plain =>
      refine ⟨⟨[], ⟨⟨"Processed".toList, false, [' '], rfl, rfl⟩, writtenNumeral processed, false, [' '], rfl⟩,
        ⟨⟨"Failed".toList, false, [' '], rfl, rfl⟩, writtenNumeral failed, false, [' '], rfl⟩,
        ⟨⟨"Total".toList, false, [' '], rfl, rfl⟩, writtenNumeral total, false, [' '], rfl⟩,
        ⟨"Seconds spent".toList, false, [' '], rfl, rfl⟩, whole, fraction, [], rfl, rfl⟩,
        ?_, rfl, rfl, rfl, rfl, rfl⟩
      refine Eq.trans ?_ (toList_alternating _ _ _ _ processed failed total _).symm
      simp only [Spelling.text, Spelling.seconds, Count.text, Label.text, List.append_assoc, List.append_nil]
      rfl
  | punctuated =>
      refine ⟨⟨[], ⟨⟨"processed".toList, true, [' '], rfl, rfl⟩, writtenNumeral processed, true, [' '], rfl⟩,
        ⟨⟨"failed".toList, true, [' '], rfl, rfl⟩, writtenNumeral failed, true, [' '], rfl⟩,
        ⟨⟨"total".toList, true, [' '], rfl, rfl⟩, writtenNumeral total, true, [' '], rfl⟩,
        ⟨"seconds spent".toList, true, [' '], rfl, rfl⟩, whole, fraction, [], rfl, rfl⟩,
        ?_, rfl, rfl, rfl, rfl, rfl⟩
      refine Eq.trans ?_ (toList_alternating _ _ _ _ processed failed total _).symm
      simp only [Spelling.text, Spelling.seconds, Count.text, Label.text, List.append_assoc, List.append_nil]
      rfl

end Acknowledgement

end CheckRounds
