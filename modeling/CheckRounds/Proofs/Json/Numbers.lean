import CheckRounds.Json.Tree

namespace CheckRounds.Json

/-! Integers survive being written: the scanner takes the whole numeral and nothing behind
it, and the numeral has the value that was written. -/

variable {digits rest : List UInt8}

/-! ### Digits -/

theorem utf8_append (first second : String) : utf8 (first ++ second) = utf8 first ++ utf8 second := by
  simp [utf8]

theorem toNat_lt_of_isDigit {digit : Char} (isDigit : digit.isDigit = true) : digit.toNat < 58 := by
  have high := (Bool.and_eq_true_iff.mp isDigit).2
  exact Nat.lt_succ_of_le (UInt32.le_iff_toNat_le.mp (of_decide_eq_true high))

theorem le_toNat_of_isDigit {digit : Char} (isDigit : digit.isDigit = true) : 48 ≤ digit.toNat := by
  have low := (Bool.and_eq_true_iff.mp isDigit).1
  exact UInt32.le_iff_toNat_le.mp (of_decide_eq_true low)

/-- A digit is one byte. -/
theorem utf8EncodeChar_digit {digit : Char} (isDigit : digit.isDigit = true) :
    String.utf8EncodeChar digit = [digit.toNat.toUInt8] := by
  have ascii : digit.utf8Size = 1 := by
    rw [Char.utf8Size_eq_one_iff, UInt32.le_iff_toNat_le]
    exact Nat.le_trans (Nat.le_of_lt (toNat_lt_of_isDigit isDigit)) (by decide)
  rw [String.utf8EncodeChar_eq_singleton ascii]
  rfl

def digitByte (digit : Char) : UInt8 := digit.toNat.toUInt8

theorem utf8_ofList_digits {digits : List Char} (allDigits : ∀ digit ∈ digits, digit.isDigit = true) :
    utf8 (String.ofList digits) = digits.map digitByte := by
  rw [utf8, String.toUTF8_eq_toByteArray, String.toByteArray_ofList]
  induction digits with
  | nil => rfl
  | cons digit rest ih =>
      rw [List.utf8Encode_cons, List.utf8Encode_singleton, ByteArray.toList_data_append,
        ih fun digit member => allDigits digit (List.mem_cons_of_mem _ member),
        utf8EncodeChar_digit (allDigits digit List.mem_cons_self)]
      rfl

theorem toNat_digitByte {digit : Char} (isDigit : digit.isDigit = true) :
    (digitByte digit).toNat = digit.toNat := by
  have small := toNat_lt_of_isDigit isDigit
  rw [digitByte, Nat.toUInt8, UInt8.toNat_ofNat']
  omega

theorem isDigit_digitByte {digit : Char} (isDigit : digit.isDigit = true) :
    Json.isDigit (digitByte digit) = true := by
  have small := toNat_lt_of_isDigit isDigit
  have large := le_toNat_of_isDigit isDigit
  rw [Json.isDigit, Bool.and_eq_true, decide_eq_true_eq, decide_eq_true_eq, UInt8.le_iff_toNat_le,
    UInt8.le_iff_toNat_le, toNat_digitByte isDigit]
  exact ⟨large, Nat.le_of_lt_succ small⟩

/-- The bytes of the decimal numeral of a number. -/
def numeral (number : Nat) : List UInt8 := (Nat.toDigits 10 number).map digitByte

theorem isDigit_of_mem_toDigits {number : Nat} {digit : Char} (member : digit ∈ Nat.toDigits 10 number) :
    digit.isDigit = true := Nat.isDigit_of_mem_toDigits (by decide) (by decide) member

theorem utf8_repr (number : Nat) : utf8 number.repr = numeral number :=
  utf8_ofList_digits fun _ member => isDigit_of_mem_toDigits member

theorem numeral_ne_nil (number : Nat) : numeral number ≠ [] := by
  rw [numeral, Ne, List.map_eq_nil_iff]
  exact Nat.toDigits_ne_nil

theorem all_isDigit_numeral (number : Nat) : (numeral number).all isDigit = true := by
  rw [numeral, List.all_map, List.all_eq_true]
  exact fun digit member => isDigit_digitByte (isDigit_of_mem_toDigits member)

theorem digitsOf_numeral (number : Nat) : digitsOf (numeral number) = number := by
  have same : ∀ (digits : List Char) (value : Nat), (∀ digit ∈ digits, digit.isDigit = true) →
      (digits.map digitByte).foldl (fun value byte => value * 10 + digitOf byte) value =
        Nat.ofDigitChars 10 digits value := by
    intro digits
    induction digits with
    | nil => intro value _; rfl
    | cons digit rest ih =>
        intro value allDigits
        have first : digitOf (digitByte digit) = digit.toNat - 48 := by
          rw [digitOf, toNat_digitByte (allDigits digit List.mem_cons_self)]
        rw [List.map_cons, List.foldl_cons, ih _ fun digit member =>
          allDigits digit (List.mem_cons_of_mem _ member), first, Nat.mul_comm value]
        exact Nat.ofDigitChars_cons.symm
  rw [digitsOf, numeral, same _ _ fun _ member => isDigit_of_mem_toDigits member]
  exact Nat.ofDigitChars_ten_toDigits

/-- Only the numeral of zero starts with a zero. -/
theorem numeral_eq_zero_cons {number : Nat} {tail : List UInt8} (start : numeral number = 0x30 :: tail) :
    tail = [] := by
  induction number using Nat.strongRecOn generalizing tail with
  | ind number ih =>
      by_cases small : number < 10
      · rw [numeral, Nat.toDigits_of_lt_base small] at start
        exact (List.cons.inj start).2.symm
      · have large : 10 ≤ number := Nat.le_of_not_lt small
        have split : numeral number =
            numeral (number / 10) ++ [digitByte (number % 10).digitChar] := by
          rw [numeral, Nat.toDigits_of_base_le (by decide) large, List.map_append]
          rfl
        cases before : numeral (number / 10) with
        | nil => exact absurd before (numeral_ne_nil _)
        | cons first others =>
            rw [split, before, List.cons_append, List.cons.injEq] at start
            rw [start.1] at before
            have alone := ih (number / 10) (by omega) before
            have zero : number / 10 = 0 := by
              rw [← digitsOf_numeral (number / 10), before, alone]
              rfl
            omega

/-! ### Grammar -/

def IsDigits (digits : List UInt8) : Prop := digits.all isDigit = true ∧ digits ≠ []

/-- The digits of a number before its point: a zero alone or no zero in front. -/
inductive IsWhole : List UInt8 → Prop
  | zero : IsWhole [0x30]
  | run {first : UInt8} {others : List UInt8} (notZero : first ≠ 0x30)
      (digits : IsDigits (first :: others)) : IsWhole (first :: others)

inductive IsFraction : List UInt8 → Prop
  | absent : IsFraction []
  | point {digits : List UInt8} (run : IsDigits digits) : IsFraction (0x2E :: digits)

inductive IsExponent : List UInt8 → Prop
  | absent : IsExponent []
  | unsigned {letter : UInt8} {digits : List UInt8} (starts : letter = 0x65 ∨ letter = 0x45)
      (run : IsDigits digits) : IsExponent (letter :: digits)
  | signed {letter sign : UInt8} {digits : List UInt8} (starts : letter = 0x65 ∨ letter = 0x45)
      (isSign : sign = 0x2B ∨ sign = 0x2D) (run : IsDigits digits) :
      IsExponent (letter :: sign :: digits)

inductive IsNumber : List UInt8 → Prop
  | unsigned {whole fraction exponent : List UInt8} (isWhole : IsWhole whole)
      (isFraction : IsFraction fraction) (isExponent : IsExponent exponent) :
      IsNumber (whole ++ fraction ++ exponent)
  | negative {whole fraction exponent : List UInt8} (isWhole : IsWhole whole)
      (isFraction : IsFraction fraction) (isExponent : IsExponent exponent) :
      IsNumber (0x2D :: (whole ++ fraction ++ exponent))

/-! ### Scanning -/

/-- Bytes that cannot go on a run of digits. -/
def EndsDigits (rest : List UInt8) : Prop := ∀ byte, rest.head? = some byte → isDigit byte = false

/-- Bytes that cannot go on a fraction, nor start one. -/
def EndsFraction (rest : List UInt8) : Prop :=
  ∀ byte, rest.head? = some byte → isDigit byte = false ∧ byte ≠ 0x2E

/-- Bytes that cannot go on a number. -/
def EndsNumber (rest : List UInt8) : Prop :=
  ∀ byte, rest.head? = some byte → isDigit byte = false ∧ byte ≠ 0x2E ∧ byte ≠ 0x65 ∧ byte ≠ 0x45

theorem EndsFraction.endsDigits (ends : EndsFraction rest) : EndsDigits rest :=
  fun byte first => (ends byte first).1

theorem EndsNumber.endsFraction (ends : EndsNumber rest) : EndsFraction rest :=
  fun byte first => ⟨(ends byte first).1, (ends byte first).2.1⟩

theorem endsNumber_nil : EndsNumber [] := by
  intro byte first
  contradiction

theorem IsDigits.scanDigits?_eq (run : IsDigits digits) (ends : EndsDigits rest) :
    scanDigits? (digits ++ rest) = some (digits, rest) := by
  have taken : rest.takeWhile isDigit = [] ∧ rest.dropWhile isDigit = rest := by
    cases rest with
    | nil => exact ⟨rfl, rfl⟩
    | cons byte rest =>
        have notDigit := ends byte rfl
        exact ⟨List.takeWhile_cons_of_neg (by simp [notDigit]),
          List.dropWhile_cons_of_neg (by simp [notDigit])⟩
  have allDigits := List.all_eq_true.mp run.1
  rw [scanDigits?, List.takeWhile_append_of_pos allDigits, List.dropWhile_append_of_pos allDigits,
    taken.1, taken.2, List.append_nil]
  simp [run.2]

theorem IsWhole.scanWhole?_eq {whole : List UInt8} (isWhole : IsWhole whole) (ends : EndsDigits rest) :
    scanWhole? (whole ++ rest) = some (whole, rest) := by
  cases isWhole with
  | zero => rfl
  | run notZero run =>
      unfold scanWhole?
      split
      · next shape => exact absurd (List.cons.inj shape).1 notZero
      · exact run.scanDigits?_eq ends

theorem IsFraction.scanFraction?_eq {fraction : List UInt8} (isFraction : IsFraction fraction)
    (ends : EndsFraction rest) : scanFraction? (fraction ++ rest) = some (fraction, rest) := by
  cases isFraction with
  | absent =>
      unfold scanFraction?
      split
      · next shape => exact absurd rfl (ends 0x2E (congrArg List.head? shape)).2
      · rfl
  | point run =>
      rw [List.cons_append, scanFraction?, run.scanDigits?_eq ends.endsDigits]
      rfl

theorem IsDigits.scanSigned?_eq (run : IsDigits digits) (ends : EndsDigits rest) :
    scanSigned? (digits ++ rest) = some (digits, rest) := by
  obtain ⟨allDigits, some_digits⟩ := run
  cases digits with
  | nil => contradiction
  | cons first others =>
      have unsigned : ¬(first = 0x2B || first = 0x2D) = true := by
        intro isSign
        rw [List.all_cons, Bool.and_eq_true] at allDigits
        simp only [Bool.or_eq_true, decide_eq_true_eq] at isSign
        rcases isSign with rfl | rfl <;> exact absurd allDigits.1 (by decide)
      rw [List.cons_append, scanSigned?, if_neg unsigned]
      exact IsDigits.scanDigits?_eq ⟨allDigits, some_digits⟩ ends

theorem IsExponent.scanExponent?_eq {exponent : List UInt8} (isExponent : IsExponent exponent)
    (ends : EndsNumber rest) : scanExponent? (exponent ++ rest) = some (exponent, rest) := by
  have endsDigits := ends.endsFraction.endsDigits
  cases isExponent with
  | absent =>
      cases rest with
      | nil => rfl
      | cons byte rest =>
          have notLetter := (ends byte rfl).2.2
          rw [List.nil_append, scanExponent?, if_neg (by simp [notLetter])]
  | unsigned starts run =>
      rw [List.cons_append, scanExponent?, if_pos (by simpa using starts), run.scanSigned?_eq endsDigits]
      rfl
  | signed starts isSign run =>
      rw [List.cons_append, List.cons_append, scanExponent?, if_pos (by simpa using starts),
        scanSigned?, if_pos (by simpa using isSign), run.scanDigits?_eq endsDigits]
      rfl

theorem IsExponent.endsFraction {exponent : List UInt8} (isExponent : IsExponent exponent)
    (ends : EndsNumber rest) : EndsFraction (exponent ++ rest) := by
  intro byte first
  cases isExponent with
  | absent => exact ends.endsFraction byte first
  | unsigned starts _ => cases first; rcases starts with rfl | rfl <;> decide
  | signed starts _ _ => cases first; rcases starts with rfl | rfl <;> decide

theorem IsFraction.endsDigits {fraction : List UInt8} (isFraction : IsFraction fraction)
    (ends : EndsFraction rest) : EndsDigits (fraction ++ rest) := by
  intro byte first
  cases isFraction with
  | absent => exact ends.endsDigits byte first
  | point _ => cases first; rfl

theorem scanUnsigned?_eq {whole fraction exponent : List UInt8} (isWhole : IsWhole whole)
    (isFraction : IsFraction fraction) (isExponent : IsExponent exponent) (ends : EndsNumber rest) :
    scanUnsigned? (whole ++ fraction ++ exponent ++ rest) =
      some (whole ++ fraction ++ exponent, rest) := by
  have beforeExponent := isExponent.endsFraction ends
  have beforeFraction := isFraction.endsDigits beforeExponent
  rw [List.append_assoc, List.append_assoc, scanUnsigned?, isWhole.scanWhole?_eq beforeFraction]
  simp [isFraction.scanFraction?_eq beforeExponent, isExponent.scanExponent?_eq ends]

/-- The bytes that a number starts with. -/
def IsNumeric (byte : UInt8) : Prop := isDigit byte = true ∨ byte = 0x2D

instance (byte : UInt8) : Decidable (IsNumeric byte) :=
  inferInstanceAs (Decidable (isDigit byte = true ∨ byte = 0x2D))

theorem IsWhole.eq_cons {whole : List UInt8} (isWhole : IsWhole whole) :
    ∃ first others, whole = first :: others ∧ isDigit first = true := by
  cases isWhole with
  | zero => exact ⟨0x30, [], rfl, rfl⟩
  | run _ digits =>
      obtain ⟨allDigits, _⟩ := digits
      rw [List.all_cons, Bool.and_eq_true] at allDigits
      exact ⟨_, _, rfl, allDigits.1⟩

theorem IsNumber.eq_cons {spelling : List UInt8} (isNumber : IsNumber spelling) :
    ∃ first others, spelling = first :: others ∧ IsNumeric first := by
  cases isNumber with
  | unsigned isWhole _ _ =>
      obtain ⟨first, others, rfl, isDigit⟩ := isWhole.eq_cons
      exact ⟨first, _, rfl, .inl isDigit⟩
  | negative _ _ _ => exact ⟨0x2D, _, rfl, .inr rfl⟩

/-- The scanner takes the whole number and nothing behind it. -/
theorem IsNumber.scanNumber?_eq {spelling : List UInt8} (isNumber : IsNumber spelling)
    (ends : EndsNumber rest) : scanNumber? (spelling ++ rest) = some (spelling, rest) := by
  cases isNumber with
  | unsigned isWhole isFraction isExponent =>
      unfold scanNumber?
      split
      · next sign =>
          obtain ⟨first, others, rfl, isDigit⟩ := isWhole.eq_cons
          rw [(List.cons.inj sign).1] at isDigit
          contradiction
      · exact scanUnsigned?_eq isWhole isFraction isExponent ends
  | negative isWhole isFraction isExponent =>
      rw [List.cons_append, scanNumber?, scanUnsigned?_eq isWhole isFraction isExponent ends]
      rfl

/-! ### Integers -/

theorem isWhole_numeral (number : Nat) : IsWhole (numeral number) := by
  cases shape : numeral number with
  | nil => exact absurd shape (numeral_ne_nil number)
  | cons first others =>
      by_cases zero : first = 0x30
      · subst zero
        rw [numeral_eq_zero_cons shape]
        exact .zero
      · exact .run zero (shape ▸ ⟨all_isDigit_numeral number, numeral_ne_nil number⟩)

theorem writeInt_ofNat (number : Nat) : writeInt (number : Int) = numeral number := utf8_repr number

theorem writeInt_negSucc (number : Nat) :
    writeInt (Int.negSucc number) = 0x2D :: numeral (number + 1) := by
  have sign : utf8 "-" = [0x2D] := by decide +kernel
  have shape : toString (Int.negSucc number) = "-" ++ (number + 1).repr := rfl
  rw [writeInt, shape, utf8_append, sign, utf8_repr]
  rfl

theorem isNumber_writeInt (value : Int) : IsNumber (writeInt value) := by
  cases value with
  | ofNat number =>
      have isNumber := IsNumber.unsigned (isWhole_numeral number) .absent .absent
      rwa [List.append_nil, List.append_nil, ← writeInt_ofNat] at isNumber
  | negSucc number =>
      have isNumber := IsNumber.negative (isWhole_numeral (number + 1)) .absent .absent
      rwa [List.append_nil, List.append_nil, ← writeInt_negSucc] at isNumber

/-! ### Reading -/

theorem natural?_numeral {number : Nat} (fits : number < wordLimit) :
    Tree.natural? (.number (numeral number)) = some number := by
  rw [Tree.natural?, if_pos (all_isDigit_numeral number), digitsOf_numeral, if_pos fits]

/-- An integer is read back if its size fits into 64 bits. -/
theorem integer?_writeInt {value : Int} (fits : value.natAbs < wordLimit) :
    Tree.integer? (.number (writeInt value)) = some value := by
  cases value with
  | ofNat number =>
      obtain ⟨first, others, shape, isDigit⟩ := (isWhole_numeral number).eq_cons
      rw [Int.ofNat_eq_natCast, writeInt_ofNat]
      unfold Tree.integer?
      split
      · next sign =>
          rw [Tree.number.injEq, shape, List.cons.injEq] at sign
          rw [sign.1] at isDigit
          contradiction
      · have inside : number < wordLimit := fits
        rw [natural?_numeral inside]
        rfl
  | negSucc number =>
      have inside : number + 1 < wordLimit := fits
      rw [writeInt_negSucc, Tree.integer?, natural?_numeral inside]
      rfl

end CheckRounds.Json
