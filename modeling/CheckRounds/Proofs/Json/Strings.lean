import CheckRounds.Json.Tree

namespace CheckRounds.Json

/-! Strings survive being written: the scanner stops at the quote that closes them, and
what it found between the quotes spells the same string again. -/

variable {bytes rest : List UInt8} {byte : UInt8}

theorem escape_cons : escape (byte :: rest) = escapeByte byte ++ escape rest := rfl

/-- Control bytes are spelled by two digits behind two zeros. -/
theorem hexDigits_of_control (control : byte < 0x20) :
    isHexDigit (hexDigit (byte / 16)) = true ∧ isHexDigit (hexDigit (byte % 16)) = true ∧
      unitValue 0x30 0x30 (hexDigit (byte / 16)) (hexDigit (byte % 16)) = byte.toNat ∧
      utf8OfCode byte.toNat = [byte] := by
  have all : ∀ value : Fin 32,
      isHexDigit (hexDigit (UInt8.ofNat value / 16)) = true ∧
        isHexDigit (hexDigit (UInt8.ofNat value % 16)) = true ∧
        unitValue 0x30 0x30 (hexDigit (UInt8.ofNat value / 16)) (hexDigit (UInt8.ofNat value % 16)) =
          value.val ∧
        utf8OfCode value.val = [UInt8.ofNat value] := by decide +kernel
  have small : byte.toNat < 32 := UInt8.lt_iff_toNat_lt.mp control
  have found := all ⟨byte.toNat, small⟩
  rwa [UInt8.ofNat_toNat] at found

/-- A byte is escaped by itself, by a letter, or by four digits. -/
theorem escapeByte_cases (byte : UInt8) :
    (escapeByte byte = [byte] ∧ ¬byte < 0x20 ∧ byte ≠ 0x22 ∧ byte ≠ 0x5C) ∨
      (∃ letter, escapeByte byte = [0x5C, letter] ∧ isEscapeLetter letter = true ∧
        escapedByte letter = byte) ∨
      (escapeByte byte =
        [0x5C, 0x75, 0x30, 0x30, hexDigit (byte / 16), hexDigit (byte % 16)] ∧ byte < 0x20) := by
  unfold escapeByte
  by_cases quote : byte = 0x22
  · exact .inr (.inl ⟨0x22, by simp [quote], by decide, quote.symm ▸ by decide⟩)
  by_cases backslash : byte = 0x5C
  · exact .inr (.inl ⟨0x5C, by simp [backslash], by decide, backslash.symm ▸ by decide⟩)
  by_cases plain : 0x20 ≤ byte
  · exact .inl ⟨by simp [quote, backslash, plain], UInt8.not_lt.mpr plain, quote, backslash⟩
  rw [if_neg quote, if_neg backslash, if_neg plain]
  split
  · next same => exact .inr (.inl ⟨0x62, rfl, by decide, same.symm ▸ by decide⟩)
  split
  · next same => exact .inr (.inl ⟨0x66, rfl, by decide, same.symm ▸ by decide⟩)
  split
  · next same => exact .inr (.inl ⟨0x6E, rfl, by decide, same.symm ▸ by decide⟩)
  split
  · next same => exact .inr (.inl ⟨0x72, rfl, by decide, same.symm ▸ by decide⟩)
  split
  · next same => exact .inr (.inl ⟨0x74, rfl, by decide, same.symm ▸ by decide⟩)
  · exact .inr (.inr ⟨rfl, UInt8.not_le.mp plain⟩)

/-- What may stand between two quotes: bytes that stand for themselves, and backslashes with a
letter that names a character or with four hexadecimal digits. -/
inductive IsSpelling : List UInt8 → Prop
  | nil : IsSpelling []
  | plain {byte : UInt8} {rest : List UInt8} (visible : ¬byte < 0x20) (notQuote : byte ≠ 0x22)
      (notBackslash : byte ≠ 0x5C) (tail : IsSpelling rest) : IsSpelling (byte :: rest)
  | letter {letter : UInt8} {rest : List UInt8} (named : isEscapeLetter letter = true)
      (tail : IsSpelling rest) : IsSpelling (0x5C :: letter :: rest)
  | unit {a b c d : UInt8} {rest : List UInt8} (digits : [a, b, c, d].all isHexDigit = true)
      (tail : IsSpelling rest) : IsSpelling (0x5C :: 0x75 :: a :: b :: c :: d :: rest)

theorem ne_of_isEscapeLetter (named : isEscapeLetter byte = true) : byte ≠ 0x75 := by
  rintro rfl
  contradiction

/-- The scanner finds what stands in front of the closing quote. -/
theorem IsSpelling.scanString_eq {spelling : List UInt8} (spells : IsSpelling spelling) :
    scanString (spelling ++ 0x22 :: rest) = some (spelling, rest) := by
  induction spells with
  | nil => rfl
  | plain visible notQuote notBackslash _ ih =>
      rw [List.cons_append, scanString]
      all_goals simp_all
  | letter named _ ih =>
      have notDigits := ne_of_isEscapeLetter named
      rw [List.cons_append, List.cons_append, scanString]
      all_goals simp_all
  | unit digits _ ih =>
      simp only [List.all_cons, List.all_nil, Bool.and_true, ← Bool.and_assoc] at digits
      simp only [List.cons_append, scanString, digits, if_pos, ih, Option.map_some]

theorem isSpelling_escape : IsSpelling (escape bytes) := by
  induction bytes with
  | nil => exact .nil
  | cons byte bytes ih =>
      rw [escape_cons]
      rcases escapeByte_cases byte with ⟨same, visible, notQuote, notBackslash⟩ |
        ⟨letter, same, named, _⟩ | ⟨same, control⟩
      · rw [same]
        exact .plain visible notQuote notBackslash ih
      · rw [same]
        exact .letter named ih
      · obtain ⟨high, low, _, _⟩ := hexDigits_of_control control
        have zero : isHexDigit 0x30 = true := by decide
        rw [same]
        exact .unit (by simp [zero, high, low]) ih

theorem unescape?_plain (notBackslash : byte ≠ 0x5C) :
    unescape? (byte :: rest) = (unescape? rest).map (byte :: ·) := by
  rw [unescape?]
  all_goals simp_all

theorem unescape?_letter (named : isEscapeLetter byte = true) :
    unescape? (0x5C :: byte :: rest) = (unescape? rest).map (escapedByte byte :: ·) := by
  have notDigits := ne_of_isEscapeLetter named
  rw [unescape?]
  all_goals simp_all

theorem unescape?_unit {a b c d : UInt8}
    (single : unitValue a b c d < 0xD800 ∨ 0xE000 ≤ unitValue a b c d) :
    unescape? (0x5C :: 0x75 :: a :: b :: c :: d :: rest) =
      (unescape? rest).map (utf8OfCode (unitValue a b c d) ++ ·) := by
  rw [unescape?.eq_def]
  split
  case h_2 shape =>
    cases shape
    exact if_pos (by simpa using single)
  case h_3 notDigits shape =>
    cases shape
    exact (notDigits _ _ _ _ _ rfl rfl).elim
  case h_4 notEscape shape =>
    cases shape
    exact (notEscape _ _ rfl rfl).elim
  case h_1 shape => contradiction

theorem unescape?_escapeByte :
    unescape? (escapeByte byte ++ rest) = (unescape? rest).map (byte :: ·) := by
  rcases escapeByte_cases byte with ⟨same, _, _, notBackslash⟩ | ⟨letter, same, named, meaning⟩ |
    ⟨same, control⟩
  · rw [same]
    exact unescape?_plain notBackslash
  · rw [same, ← meaning]
    exact unescape?_letter named
  · obtain ⟨_, _, unit, meaning⟩ := hexDigits_of_control control
    have small := byte.toNat_lt
    rw [same]
    refine (unescape?_unit (by omega)).trans ?_
    rw [unit, meaning]
    rfl

theorem unescape?_escape : unescape? (escape bytes) = some bytes := by
  induction bytes with
  | nil => rfl
  | cons byte bytes ih =>
      rw [escape_cons, unescape?_escapeByte, ih]
      rfl

theorem ofUtf8?_utf8 (text : String) : ofUtf8? (utf8 text) = some text := by
  have valid : (⟨(utf8 text).toArray⟩ : ByteArray).IsValidUTF8 := text.isValidUTF8
  rw [ofUtf8?, String.fromUTF8?, dif_pos valid]
  rfl

theorem decodeString?_escape (text : String) : decodeString? (escape (utf8 text)) = some text := by
  rw [decodeString?, unescape?_escape, Option.bind_some, ofUtf8?_utf8]

end CheckRounds.Json
