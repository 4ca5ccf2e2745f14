import CheckRounds.Proofs.Json.Numbers
import CheckRounds.Proofs.Json.Strings

namespace CheckRounds.Json

/-! What the inside of a string spells, character by character: a character stands for itself, or
is named by a letter behind a backslash, by its code, or by the two surrogates of its code.
Decoding finds the text that is spelled, and no other.
-/

variable {byte : UInt8} {piece rest spelling found more : List UInt8} {c : Char} {chars : List Char}

/-- The letters that may stand behind a backslash, and what they name. -/
def letterNames : List (UInt8 × Char) :=
  [(0x22, '"'), (0x5C, '\\'), (0x2F, '/'), (0x62, '\x08'), (0x66, '\x0C'), (0x6E, '\n'),
    (0x72, '\r'), (0x74, '\t')]

/-- The code that a pair of surrogates stands for. -/
def pairCode (high low : Nat) : Nat := 0x10000 + (high - 0xD800) * 0x400 + (low - 0xDC00)

inductive SpellsChar : List UInt8 → Char → Prop
  | plain {c : Char} (visible : 0x20 ≤ c.toNat) (notQuote : c ≠ '"') (notBackslash : c ≠ '\\') :
      SpellsChar (String.utf8EncodeChar c) c
  | letter {letter : UInt8} {c : Char} (named : (letter, c) ∈ letterNames) :
      SpellsChar [0x5C, letter] c
  | unit {p q r s : UInt8} {c : Char} (digits : [p, q, r, s].all isHexDigit = true)
      (code : unitValue p q r s = c.toNat) : SpellsChar [0x5C, 0x75, p, q, r, s] c
  | pair {p q r s t u v w : UInt8} {c : Char} (digits : [p, q, r, s].all isHexDigit = true)
      (lowDigits : [t, u, v, w].all isHexDigit = true)
      (high : 0xD800 ≤ unitValue p q r s ∧ unitValue p q r s < 0xDC00)
      (low : 0xDC00 ≤ unitValue t u v w ∧ unitValue t u v w < 0xE000)
      (code : pairCode (unitValue p q r s) (unitValue t u v w) = c.toNat) :
      SpellsChar [0x5C, 0x75, p, q, r, s, 0x5C, 0x75, t, u, v, w] c

inductive SpellsText : List UInt8 → List Char → Prop
  | nil : SpellsText [] []
  | cons {piece rest : List UInt8} {c : Char} {chars : List Char} (first : SpellsChar piece c)
      (others : SpellsText rest chars) : SpellsText (piece ++ rest) (c :: chars)

/-! ### The bytes of characters -/

theorem utf8_ofList_cons (c : Char) (chars : List Char) :
    utf8 (String.ofList (c :: chars)) = String.utf8EncodeChar c ++ utf8 (String.ofList chars) := by
  rw [utf8, utf8, String.toUTF8_eq_toByteArray, String.toUTF8_eq_toByteArray,
    String.toByteArray_ofList, String.toByteArray_ofList, List.utf8Encode_cons,
    List.utf8Encode_singleton, ByteArray.toList_data_append]
  simp

theorem utf8OfCode_eq {code : Nat} (same : code = c.toNat) :
    utf8OfCode code = String.utf8EncodeChar c := by
  have nothing : utf8 (String.ofList []) = [] := rfl
  have single : utf8 (String.ofList [c]) = String.utf8EncodeChar c := by
    rw [utf8_ofList_cons, nothing, List.append_nil]
  rw [utf8OfCode, same, Char.ofNat_toNat]
  exact single

/-- Bytes that go on a character of several bytes. -/
def IsContinuation (byte : UInt8) : Prop := 0x80 ≤ byte ∧ byte < 0xC0

theorem isContinuation_ofNat (value : Nat) : IsContinuation (UInt8.ofNat (value % 64 + 128)) := by
  simp only [IsContinuation, UInt8.le_iff_toNat_le, UInt8.lt_iff_toNat_lt, UInt8.toNat_ofNat',
    UInt8.reduceToNat]
  omega

theorem isContinuation_of_mem_map (values : List Nat) :
    ∀ byte ∈ values.map fun value => UInt8.ofNat (value % 64 + 128), IsContinuation byte := by
  intro byte inside
  obtain ⟨value, _, rfl⟩ := List.mem_map.mp inside
  exact isContinuation_ofNat value

theorem le_ofNat_of_lead {value : Nat} (large : 192 ≤ value) (small : value < 256) :
    0xC0 ≤ UInt8.ofNat value := by
  simp only [UInt8.le_iff_toNat_le, UInt8.toNat_ofNat', UInt8.reduceToNat]
  omega

/-- A character is a byte below 0x80, or a byte that starts it and bytes that go on it. -/
theorem utf8EncodeChar_cases (c : Char) :
    (c.toNat < 0x80 ∧ ∃ byte : UInt8, String.utf8EncodeChar c = [byte] ∧ byte.toNat = c.toNat) ∨
      (0x80 ≤ c.toNat ∧ ∃ (lead : UInt8) (tail : List UInt8),
        String.utf8EncodeChar c = lead :: tail ∧ 0xC0 ≤ lead ∧ ∀ byte ∈ tail, IsContinuation byte) := by
  have code : c.val.toNat = c.toNat := rfl
  rw [String.utf8EncodeChar.eq_def, code]
  dsimp only
  split
  · next small =>
      refine .inl ⟨by omega, _, rfl, ?_⟩
      rw [UInt8.toNat_ofNat']
      omega
  · next large =>
      refine .inr ⟨by omega, ?_⟩
      split
      · exact ⟨_, _, rfl, le_ofNat_of_lead (by omega) (by omega), isContinuation_of_mem_map [_]⟩
      split
      · exact ⟨_, _, rfl, le_ofNat_of_lead (by omega) (by omega), isContinuation_of_mem_map [_, _]⟩
      · exact ⟨_, _, rfl, le_ofNat_of_lead (by omega) (by omega), isContinuation_of_mem_map [_, _, _]⟩

theorem continuation_of_utf8EncodeChar {tail : List UInt8}
    (encoded : String.utf8EncodeChar c = byte :: tail) : ∀ byte ∈ tail, IsContinuation byte := by
  rcases utf8EncodeChar_cases c with ⟨_, first, same, _⟩ | ⟨_, lead, others, same, _, goesOn⟩
  · cases encoded.symm.trans same
    simp
  · cases encoded.symm.trans same
    exact goesOn

/-- No character starts with a byte that goes on another. -/
theorem not_isContinuation_of_utf8EncodeChar
    (shape : String.utf8EncodeChar c ++ rest = byte :: found) : ¬IsContinuation byte := by
  rcases utf8EncodeChar_cases c with ⟨small, first, same, value⟩ | ⟨_, lead, tail, same, large, _⟩
  · rw [same] at shape
    cases shape
    simp only [IsContinuation, UInt8.le_iff_toNat_le, UInt8.reduceToNat]
    omega
  · rw [same] at shape
    cases shape
    intro goesOn
    exact absurd goesOn.2 (UInt8.not_lt.mpr large)

/-- The first character can be told from the bytes. -/
theorem utf8EncodeChar_append_inj {first second : Char} {others : List UInt8}
    (same : String.utf8EncodeChar first ++ more = String.utf8EncodeChar second ++ others) :
    first = second ∧ more = others := by
  have decoded (c : Char) (rest : List UInt8) :
      (String.utf8EncodeChar c ++ rest).toByteArray.utf8DecodeChar? 0 = some c := by
    rw [List.toByteArray_append]
    exact ByteArray.utf8DecodeChar?_utf8EncodeChar_append
  have sameChar : some first = some second := by rw [← decoded first more, same, decoded]
  cases sameChar
  exact ⟨rfl, List.append_cancel_left same⟩

theorem ofUtf8?_eq_some_iff {bytes : List UInt8} {text : String} :
    ofUtf8? bytes = some text ↔ bytes = utf8 text := by
  constructor
  · intro decoded
    rw [ofUtf8?, String.fromUTF8?] at decoded
    split at decoded
    · cases decoded
      rfl
    · contradiction
  · rintro rfl
    exact ofUtf8?_utf8 text

/-! ### Letters and units -/

theorem letter_of_letterNames {letter : UInt8} (named : (letter, c) ∈ letterNames) :
    isEscapeLetter letter = true ∧ String.utf8EncodeChar c = [escapedByte letter] := by
  simp only [letterNames, List.mem_cons, Prod.mk.injEq, List.not_mem_nil, or_false] at named
  rcases named with ⟨rfl, rfl⟩ | ⟨rfl, rfl⟩ | ⟨rfl, rfl⟩ | ⟨rfl, rfl⟩ | ⟨rfl, rfl⟩ | ⟨rfl, rfl⟩ |
    ⟨rfl, rfl⟩ | ⟨rfl, rfl⟩ <;> decide +kernel

theorem exists_letterNames {letter : UInt8} (isLetter : isEscapeLetter letter = true) :
    ∃ c, (letter, c) ∈ letterNames := by
  simp only [isEscapeLetter, Bool.or_eq_true, decide_eq_true_eq] at isLetter
  simp only [letterNames, List.mem_cons, Prod.mk.injEq, List.not_mem_nil, or_false]
  rcases isLetter with ((((((rfl | rfl) | rfl) | rfl) | rfl) | rfl) | rfl) | rfl <;> simp

theorem hexValue_lt {digit : UInt8} (isHex : isHexDigit digit = true) : hexValue digit < 16 := by
  have all : ∀ value : Fin 256, isHexDigit (UInt8.ofNat value) = true →
      hexValue (UInt8.ofNat value) < 16 := by decide +kernel
  have found := all ⟨digit.toNat, digit.toNat_lt⟩
  rw [UInt8.ofNat_toNat] at found
  exact found isHex

theorem unitValue_lt {p q r s : UInt8} (digits : [p, q, r, s].all isHexDigit = true) :
    unitValue p q r s < 0x10000 := by
  simp only [List.all_cons, List.all_nil, Bool.and_true, Bool.and_eq_true] at digits
  have first := hexValue_lt digits.1
  have second := hexValue_lt digits.2.1
  have third := hexValue_lt digits.2.2.1
  have fourth := hexValue_lt digits.2.2.2
  unfold unitValue
  omega

/-- Every code outside of the surrogates is that of a character. -/
theorem exists_char {code : Nat} (valid : code.isValidChar) : ∃ c : Char, code = c.toNat := by
  refine ⟨Char.ofNat code, ?_⟩
  rw [Char.ofNat, dif_pos valid]
  rfl

theorem exists_unit {code : Nat} (small : code < 0x10000) (single : code < 0xD800 ∨ 0xE000 ≤ code) :
    ∃ c : Char, code = c.toNat :=
  exists_char (single.imp_right fun large => ⟨by omega, by omega⟩)

theorem exists_pair {high low : Nat} (isHigh : 0xD800 ≤ high ∧ high < 0xDC00)
    (isLow : 0xDC00 ≤ low ∧ low < 0xE000) : ∃ c : Char, pairCode high low = c.toNat := by
  apply exists_char
  unfold pairCode
  exact .inr ⟨by omega, by omega⟩

theorem unescape?_pair {p q r s t u v w : UInt8}
    (high : 0xD800 ≤ unitValue p q r s ∧ unitValue p q r s < 0xDC00)
    (low : 0xDC00 ≤ unitValue t u v w ∧ unitValue t u v w < 0xE000) :
    unescape? (0x5C :: 0x75 :: p :: q :: r :: s :: 0x5C :: 0x75 :: t :: u :: v :: w :: rest) =
      (unescape? rest).map (utf8OfCode (pairCode (unitValue p q r s) (unitValue t u v w)) ++ ·) := by
  rw [unescape?]
  have notSingle : ¬(unitValue p q r s < 0xD800 || 0xE000 ≤ unitValue p q r s) = true := by
    simp only [Bool.or_eq_true, decide_eq_true_eq]
    omega
  have isLow : (0xDC00 ≤ unitValue t u v w && unitValue t u v w < 0xE000) = true := by
    simpa using low
  dsimp only
  rw [if_neg notSingle, if_neg (by omega), if_pos isLow]
  rfl

/-- A unit that is no surrogate is decoded alone, and others only in pairs. -/
theorem unescape?_unit_cases {p q r s : UInt8}
    (decoded : unescape? (0x5C :: 0x75 :: p :: q :: r :: s :: rest) = some found) :
    (unitValue p q r s < 0xD800 ∨ 0xE000 ≤ unitValue p q r s) ∨
      (0xD800 ≤ unitValue p q r s ∧ unitValue p q r s < 0xDC00) ∧
        ∃ t u v w after, rest = 0x5C :: 0x75 :: t :: u :: v :: w :: after ∧
          0xDC00 ≤ unitValue t u v w ∧ unitValue t u v w < 0xE000 := by
  by_cases single : unitValue p q r s < 0xD800 ∨ 0xE000 ≤ unitValue p q r s
  · exact .inl single
  · have notSingle : ¬(unitValue p q r s < 0xD800 || 0xE000 ≤ unitValue p q r s) = true := by
      simpa using single
    rw [unescape?.eq_def] at decoded
    split at decoded
    case h_2 shape =>
      cases shape
      dsimp only at decoded
      rw [if_neg notSingle] at decoded
      split at decoded
      · contradiction
      · split at decoded
        · split at decoded
          · next low =>
              simp only [Bool.and_eq_true, decide_eq_true_eq] at low
              exact .inr ⟨by omega, _, _, _, _, _, rfl, low⟩
          · contradiction
        · contradiction
    case h_3 notDigits shape =>
      cases shape
      exact (notDigits _ _ _ _ _ rfl rfl).elim
    case h_4 notEscape shape =>
      cases shape
      exact (notEscape _ _ rfl rfl).elim
    case h_1 shape => contradiction

/-! ### From the spelling to the text -/

/-- Bytes that stand for themselves. -/
def IsPlain (byte : UInt8) : Prop := ¬byte < 0x20 ∧ byte ≠ 0x22 ∧ byte ≠ 0x5C

theorem isPlain_of_le {byte : UInt8} (large : 0x80 ≤ byte) : IsPlain byte := by
  simp only [UInt8.le_iff_toNat_le, UInt8.reduceToNat] at large
  refine ⟨?_, ?_, ?_⟩
  · simp only [UInt8.lt_iff_toNat_lt, UInt8.reduceToNat]
    omega
  all_goals
    rintro rfl
    contradiction

theorem isPlain_utf8EncodeChar (visible : 0x20 ≤ c.toNat) (notQuote : c ≠ '"')
    (notBackslash : c ≠ '\\') : ∀ byte ∈ String.utf8EncodeChar c, IsPlain byte := by
  intro byte inside
  rcases utf8EncodeChar_cases c with ⟨_, first, same, value⟩ | ⟨_, lead, tail, same, large, goesOn⟩
  · rw [same, List.mem_singleton] at inside
    subst inside
    refine ⟨?_, ?_, ?_⟩
    · simp only [UInt8.lt_iff_toNat_lt, value, UInt8.reduceToNat]
      omega
    · rintro rfl
      exact notQuote (Char.toNat_inj.mp value.symm)
    · rintro rfl
      exact notBackslash (Char.toNat_inj.mp value.symm)
  · rw [same] at inside
    rcases List.mem_cons.mp inside with rfl | later
    · exact isPlain_of_le (UInt8.le_trans (by decide) large)
    · exact isPlain_of_le (goesOn byte later).1

theorem isSpelling_append_of_plain (plain : ∀ byte ∈ piece, IsPlain byte) (tail : IsSpelling rest) :
    IsSpelling (piece ++ rest) := by
  induction piece with
  | nil => exact tail
  | cons byte piece ih =>
      obtain ⟨visible, notQuote, notBackslash⟩ := plain byte List.mem_cons_self
      exact .plain visible notQuote notBackslash
        (ih fun byte inside => plain byte (List.mem_cons_of_mem _ inside))

theorem unescape?_append_of_plain (plain : ∀ byte ∈ piece, IsPlain byte) :
    unescape? (piece ++ rest) = (unescape? rest).map (piece ++ ·) := by
  induction piece with
  | nil => simp
  | cons byte piece ih =>
      rw [List.cons_append, unescape?_plain (plain byte List.mem_cons_self).2.2,
        ih fun byte inside => plain byte (List.mem_cons_of_mem _ inside), Option.map_map]
      rfl

theorem SpellsChar.isSpelling_append (spells : SpellsChar piece c) (tail : IsSpelling rest) :
    IsSpelling (piece ++ rest) := by
  cases spells with
  | plain visible notQuote notBackslash =>
      exact isSpelling_append_of_plain (isPlain_utf8EncodeChar visible notQuote notBackslash) tail
  | letter named => exact .letter (letter_of_letterNames named).1 tail
  | unit digits _ => exact .unit digits tail
  | pair digits lowDigits _ _ _ => exact .unit digits (.unit lowDigits tail)

theorem SpellsChar.unescape?_append (spells : SpellsChar piece c) :
    unescape? (piece ++ rest) = (unescape? rest).map (String.utf8EncodeChar c ++ ·) := by
  cases spells with
  | plain visible notQuote notBackslash =>
      exact unescape?_append_of_plain (isPlain_utf8EncodeChar visible notQuote notBackslash)
  | letter named =>
      obtain ⟨isLetter, same⟩ := letter_of_letterNames named
      rw [same]
      exact unescape?_letter isLetter
  | unit _ code =>
      have single : c.toNat < 0xD800 ∨ 0xE000 ≤ c.toNat := by
        have valid : c.toNat.isValidChar := c.valid
        unfold Nat.isValidChar at valid
        omega
      rw [← utf8OfCode_eq code]
      exact unescape?_unit (code ▸ single)
  | pair _ _ high low code =>
      rw [← utf8OfCode_eq code]
      exact unescape?_pair high low

theorem SpellsText.isSpelling (spells : SpellsText spelling chars) : IsSpelling spelling := by
  induction spells with
  | nil => exact .nil
  | cons first _ ih => exact first.isSpelling_append ih

theorem SpellsText.unescape?_eq (spells : SpellsText spelling chars) :
    unescape? spelling = some (utf8 (String.ofList chars)) := by
  induction spells with
  | nil => rfl
  | cons first _ ih =>
      rw [first.unescape?_append, ih, utf8_ofList_cons]
      rfl

/-! ### From the text to the spelling -/

/-- What is spelled is nothing, or starts with a byte that stands for itself or with the escape of
a character. -/
theorem IsSpelling.unescape?_cases (isSpelling : IsSpelling spelling)
    (decoded : unescape? spelling = some found) :
    (spelling = [] ∧ found = []) ∨
      (∃ byte rest more, spelling = byte :: rest ∧ found = byte :: more ∧ IsPlain byte ∧
        IsSpelling rest ∧ unescape? rest = some more) ∨
      ∃ piece c rest more, spelling = piece ++ rest ∧ found = String.utf8EncodeChar c ++ more ∧
        SpellsChar piece c ∧ IsSpelling rest ∧ unescape? rest = some more := by
  cases isSpelling with
  | nil =>
      cases decoded
      exact .inl ⟨rfl, rfl⟩
  | plain visible notQuote notBackslash tail =>
      rw [unescape?_plain notBackslash, Option.map_eq_some_iff] at decoded
      obtain ⟨more, decodedRest, rfl⟩ := decoded
      exact .inr (.inl ⟨_, _, more, rfl, rfl, ⟨visible, notQuote, notBackslash⟩, tail, decodedRest⟩)
  | letter isLetter tail =>
      obtain ⟨c, named⟩ := exists_letterNames isLetter
      rw [unescape?_letter isLetter, Option.map_eq_some_iff] at decoded
      obtain ⟨more, decodedRest, rfl⟩ := decoded
      refine .inr (.inr ⟨_, c, _, more, rfl, ?_, .letter named, tail, decodedRest⟩)
      rw [(letter_of_letterNames named).2]
      rfl
  | unit digits tail =>
      rcases unescape?_unit_cases decoded with single | ⟨high, t, u, v, w, after, rfl, low⟩
      · obtain ⟨c, code⟩ := exists_unit (unitValue_lt digits) single
        rw [unescape?_unit single, Option.map_eq_some_iff] at decoded
        obtain ⟨more, decodedRest, rfl⟩ := decoded
        rw [utf8OfCode_eq code]
        exact .inr (.inr ⟨_, c, _, more, rfl, rfl, .unit digits code, tail, decodedRest⟩)
      · cases tail with
        | plain _ _ notBackslash _ => exact absurd rfl notBackslash
        | letter named _ => contradiction
        | unit lowDigits tail =>
            obtain ⟨c, code⟩ := exists_pair high low
            rw [unescape?_pair high low, Option.map_eq_some_iff] at decoded
            obtain ⟨more, decodedRest, rfl⟩ := decoded
            rw [utf8OfCode_eq code]
            exact .inr (.inr ⟨_, c, _, more, rfl, rfl, .pair digits lowDigits high low code, tail,
              decodedRest⟩)

/-- Bytes that go on a character are spelled by themselves. -/
theorem IsSpelling.exists_continuation {tail : List UInt8} (isSpelling : IsSpelling spelling)
    (decoded : unescape? spelling = some (tail ++ more))
    (goesOn : ∀ byte ∈ tail, IsContinuation byte) :
    ∃ rest, spelling = tail ++ rest ∧ IsSpelling rest ∧ unescape? rest = some more := by
  induction tail generalizing spelling with
  | nil => exact ⟨spelling, rfl, isSpelling, decoded⟩
  | cons byte tail ih =>
      rcases isSpelling.unescape?_cases decoded with ⟨_, nothing⟩ |
        ⟨first, rest, others, rfl, same, _, isRest, decodedRest⟩ |
        ⟨piece, c, rest, others, rfl, same, _⟩
      · contradiction
      · obtain ⟨rfl, rfl⟩ := List.cons.inj same
        obtain ⟨after, rfl, isAfter, decodedAfter⟩ := ih isRest decodedRest
          fun byte inside => goesOn byte (List.mem_cons_of_mem _ inside)
        exact ⟨after, rfl, isAfter, decodedAfter⟩
      · exact absurd (goesOn byte List.mem_cons_self) (not_isContinuation_of_utf8EncodeChar same.symm)

/-- A character that starts with a plain byte stands for itself. -/
theorem SpellsChar.of_plain {tail : List UInt8} (plain : IsPlain byte)
    (encoded : String.utf8EncodeChar c = byte :: tail) : SpellsChar (byte :: tail) c := by
  obtain ⟨visible, notQuote, notBackslash⟩ := plain
  have quote : String.utf8EncodeChar '"' = [0x22] := by decide +kernel
  have backslash : String.utf8EncodeChar '\\' = [0x5C] := by decide +kernel
  have large : 0x20 ≤ c.toNat := by
    rcases utf8EncodeChar_cases c with ⟨_, first, same, value⟩ | ⟨large, _⟩
    · rw [same] at encoded
      cases encoded
      simp only [UInt8.lt_iff_toNat_lt, value, UInt8.reduceToNat] at visible
      omega
    · omega
  rw [← encoded]
  refine .plain large ?_ ?_
  · rintro rfl
    exact notQuote (List.cons.inj (encoded.symm.trans quote)).1
  · rintro rfl
    exact notBackslash (List.cons.inj (encoded.symm.trans backslash)).1

theorem IsSpelling.exists_piece (isSpelling : IsSpelling spelling)
    (decoded : unescape? spelling = some (String.utf8EncodeChar c ++ more)) :
    ∃ piece rest, spelling = piece ++ rest ∧ SpellsChar piece c ∧ IsSpelling rest ∧
      unescape? rest = some more := by
  rcases isSpelling.unescape?_cases decoded with ⟨_, nothing⟩ |
    ⟨byte, rest, others, rfl, same, plain, isRest, decodedRest⟩ |
    ⟨piece, other, rest, others, rfl, same, spells, isRest, decodedRest⟩
  · exact absurd (List.append_eq_nil_iff.mp nothing).1 String.utf8EncodeChar_ne_nil
  · cases encoded : String.utf8EncodeChar c with
    | nil => exact absurd encoded String.utf8EncodeChar_ne_nil
    | cons first tail =>
        rw [encoded] at same
        obtain ⟨rfl, rfl⟩ := List.cons.inj same
        have goesOn := continuation_of_utf8EncodeChar encoded
        obtain ⟨after, rfl, isAfter, decodedAfter⟩ := isRest.exists_continuation decodedRest goesOn
        exact ⟨_ :: tail, after, rfl, .of_plain plain encoded, isAfter, decodedAfter⟩
  · obtain ⟨rfl, rfl⟩ := utf8EncodeChar_append_inj same
    exact ⟨piece, rest, rfl, spells, isRest, decodedRest⟩

theorem IsSpelling.spellsText (isSpelling : IsSpelling spelling)
    (decoded : unescape? spelling = some (utf8 (String.ofList chars))) : SpellsText spelling chars := by
  induction chars generalizing spelling with
  | nil =>
      rcases isSpelling.unescape?_cases decoded with ⟨rfl, _⟩ | ⟨_, _, _, _, same, _⟩ |
        ⟨_, _, _, _, _, same, _⟩
      · exact .nil
      · contradiction
      · exact absurd (List.append_eq_nil_iff.mp same.symm).1 String.utf8EncodeChar_ne_nil
  | cons c chars ih =>
      rw [utf8_ofList_cons] at decoded
      obtain ⟨piece, rest, rfl, first, isRest, decodedRest⟩ := isSpelling.exists_piece decoded
      exact .cons first (ih isRest decodedRest)

theorem SpellsText.decodeString?_eq {text : String} (spells : SpellsText spelling text.toList) :
    decodeString? spelling = some text := by
  rw [decodeString?, spells.unescape?_eq, Option.bind_some, String.ofList_toList, ofUtf8?_utf8]

/-- Decoding finds the text that a spelling spells, character by character. -/
theorem IsSpelling.decodeString?_eq_some_iff (isSpelling : IsSpelling spelling) {text : String} :
    decodeString? spelling = some text ↔ SpellsText spelling text.toList := by
  constructor
  · intro decoded
    rw [decodeString?, Option.bind_eq_some_iff] at decoded
    obtain ⟨bytes, unescaped, isText⟩ := decoded
    apply isSpelling.spellsText
    rw [unescaped, ofUtf8?_eq_some_iff.mp isText, String.ofList_toList]
  · exact SpellsText.decodeString?_eq

/-- Every text can be spelled. -/
theorem spellsText_escape (text : String) : SpellsText (escape (utf8 text)) text.toList :=
  isSpelling_escape.decodeString?_eq_some_iff.mp (decodeString?_escape text)

end CheckRounds.Json
