import CheckRounds.Proofs.Message.Acknowledgement.Matching
import CheckRounds.Proofs.Message.Acknowledgement.Wording

namespace CheckRounds.Acknowledgement

/-! An acknowledgement is read just from the texts that spell one, and as what they spell: no
digit is lost or counted elsewhere, and no number is wrapped.

The pattern also matches digits of other scripts, which no number is read from. -/

open Text

variable (digits : DigitClass) {words : String}

/-! ### Digits of other scripts -/

def Numeral.ofAscii (number : AsciiNumeral) : Numeral digits where
  chars := number.chars
  some_char := number.some_char
  all := List.all_eq_true.mpr fun c inside => digits.ascii c (List.all_eq_true.mp number.all c inside)

@[simp] theorem Numeral.chars_ofAscii (number : AsciiNumeral) :
    (ofAscii digits number).chars = number.chars := rfl

def Count.ofAscii (count : Count .asciiOnly words) : Count digits words :=
  ⟨count.label, .ofAscii digits count.number, count.semicolon, count.gap, count.blank⟩

/-- ASCII digits are digits of every class. -/
def Spelling.ofAscii (spelling : Spelling .asciiOnly) : Spelling digits where
  lead := spelling.lead
  processed := .ofAscii digits spelling.processed
  failed := .ofAscii digits spelling.failed
  total := .ofAscii digits spelling.total
  label := spelling.label
  whole := .ofAscii digits spelling.whole
  fraction := spelling.fraction.map (.ofAscii digits)
  trail := spelling.trail
  blankLead := spelling.blankLead
  blankTrail := spelling.blankTrail

theorem pointed_ofAscii (fraction : Option AsciiNumeral) :
    pointed (fraction.map (Numeral.ofAscii digits)) = pointed fraction := by
  cases fraction <;> rfl

theorem Spelling.seconds_ofAscii (spelling : Spelling .asciiOnly) :
    (ofAscii digits spelling).seconds = spelling.seconds :=
  congrArg (spelling.whole.chars ++ ·) (pointed_ofAscii digits spelling.fraction)

theorem Spelling.text_ofAscii (spelling : Spelling .asciiOnly) :
    (ofAscii digits spelling).text = spelling.text := by
  rw [text, seconds_ofAscii]
  rfl

theorem Spelling.numbers_ofAscii (spelling : Spelling .asciiOnly) :
    (ofAscii digits spelling).numbers = spelling.numbers := by
  rw [numbers, seconds_ofAscii]
  rfl

/-! ### Numbers of a match -/

/-- The whole text is a decimal. -/
def readDecimal? (text : List Char) : Option Decimal :=
  match decimal? text with
  | some (decimal, []) => some decimal
  | _ => none

/-- What the groups of a match say, if all of them can be read as numbers. -/
def readNumbers? : List (List Char) → Option Acknowledgement
  | [processed, failed, total, seconds] => do
      return {
        processed := ← readNumeral? processed
        failed := ← readNumeral? failed
        total := ← readNumeral? total
        seconds := Binary64.ofDecimal (← readDecimal? seconds) }
  | _ => none

variable {digits}

theorem readNumeral?_chars_iff {number : Numeral digits} {value : Nat} :
    readNumeral? number.chars = some value ↔
      ∃ ascii : AsciiNumeral, number = .ofAscii digits ascii ∧ ascii.value = value ∧ value < wordLimit := by
  rw [readNumeral?_eq_some_iff]
  constructor
  · rintro ⟨_, chars, shape, rfl | rfl, some_char, all, value, fits⟩
    · exact ⟨⟨chars, some_char, all⟩, Numeral.ext shape, value, fits⟩
    · have digit : digits.holds '+' = true :=
        List.all_eq_true.mp number.all '+' (shape ▸ List.mem_cons_self)
      exact absurd rfl (digits.notMark '+' digit).2.2.2
  · rintro ⟨ascii, rfl, value, fits⟩
    exact ⟨[], ascii.chars, rfl, .inl rfl, ascii.some_char, ascii.all, value, fits⟩

theorem readDecimal?_seconds_iff {whole : Numeral digits} {fraction : Option (Numeral digits)}
    {decimal : Decimal} : readDecimal? (whole.chars ++ pointed fraction) = some decimal ↔
      ∃ (ascii : AsciiNumeral) (behind : Option AsciiNumeral), whole = .ofAscii digits ascii ∧
        fraction = behind.map (.ofAscii digits) ∧ decimalOf ascii behind = decimal := by
  have blank : ([] : List Char).all isBlank = true := rfl
  constructor
  · intro read
    rw [readDecimal?] at read
    split at read
    · next found =>
        obtain ⟨ascii, behind, shape⟩ := exists_seconds found
        rw [shape, decimal?_seconds ascii behind blank] at found
        obtain ⟨same, _⟩ := Prod.mk.inj (Option.some.inj found)
        rw [← pointed_ofAscii digits behind] at shape
        have shape : whole.chars ++ pointed fraction =
          (Numeral.ofAscii digits ascii).chars ++ (pointed (behind.map (.ofAscii digits)) ++ []) := shape
        rw [← List.append_nil (pointed fraction)] at shape
        obtain ⟨sameWhole, shape⟩ := Numeral.chars_append_inj (ends_digits_of_pointed blank)
          (ends_digits_of_pointed blank) shape
        obtain ⟨sameFraction, _⟩ := pointed_append_inj blank blank shape
        exact ⟨ascii, behind, sameWhole, sameFraction, same.trans (Option.some.inj read)⟩
    · contradiction
  · rintro ⟨ascii, behind, rfl, rfl, rfl⟩
    have found := decimal?_seconds ascii behind blank
    rw [List.append_nil] at found
    rw [readDecimal?, pointed_ofAscii, Numeral.chars_ofAscii, found]

theorem readNumeral?_count_iff {count : Count digits words} {value : Nat} :
    readNumeral? count.number.chars = some value ↔
      ∃ ascii : Count .asciiOnly words, count = .ofAscii digits ascii ∧ ascii.number.value = value ∧
        value < wordLimit := by
  rw [readNumeral?_chars_iff]
  constructor
  · rintro ⟨ascii, same, value, fits⟩
    refine ⟨⟨count.label, ascii, count.semicolon, count.gap, count.blank⟩, ?_, value, fits⟩
    rw [Count.ofAscii, ← same]
  · rintro ⟨ascii, same, value, fits⟩
    exact ⟨ascii.number, congrArg Count.number same, value, fits⟩

/-- Numbers are read from a match just when all digits are ASCII digits and the counts fit. -/
theorem readNumbers?_numbers_iff {spelling : Spelling digits} {ack : Acknowledgement} :
    readNumbers? spelling.numbers = some ack ↔
      ∃ ascii : Spelling .asciiOnly, spelling = .ofAscii digits ascii ∧ ascii.InRange ∧ ascii.value = ack := by
  simp only [readNumbers?, Spelling.numbers, Option.bind_eq_bind, Option.bind_eq_some_iff,
    readNumeral?_count_iff, Spelling.seconds, readDecimal?_seconds_iff]
  constructor
  · rintro ⟨_, readProcessed, _, readFailed, _, readTotal, _, readSeconds, told⟩
    obtain ⟨processed, sameProcessed, rfl, processedFits⟩ := readProcessed
    obtain ⟨failed, sameFailed, rfl, failedFits⟩ := readFailed
    obtain ⟨total, sameTotal, rfl, totalFits⟩ := readTotal
    obtain ⟨whole, fraction, sameWhole, sameFraction, rfl⟩ := readSeconds
    let ascii : Spelling .asciiOnly :=
      ⟨spelling.lead, processed, failed, total, spelling.label, whole, fraction, spelling.trail,
        spelling.blankLead, spelling.blankTrail⟩
    refine ⟨ascii, ?_, ⟨processedFits, failedFits, totalFits⟩, Option.some.inj told⟩
    rw [Spelling.ofAscii, ← sameProcessed, ← sameFailed, ← sameTotal, ← sameWhole, ← sameFraction]
  · rintro ⟨ascii, rfl, ⟨processedFits, failedFits, totalFits⟩, rfl⟩
    exact ⟨_, ⟨ascii.processed, rfl, rfl, processedFits⟩, _, ⟨ascii.failed, rfl, rfl, failedFits⟩,
      _, ⟨ascii.total, rfl, rfl, totalFits⟩, _, ⟨ascii.whole, ascii.fraction, rfl, rfl, rfl⟩, rfl⟩

/-- The reader finds what the pattern matches and all groups of which are numbers. -/
theorem parseList?_eq_some_iff_matches {text : List Char} {ack : Acknowledgement} :
    parseList? text = some ack ↔
      ∃ found, (pattern digits).Matches text found ∧ readNumbers? found = some ack := by
  rw [parseList?_eq_some_iff]
  constructor
  · rintro ⟨spelling, inRange, rfl, rfl⟩
    refine ⟨spelling.numbers, (standsFor_pattern digits _ _).mpr ⟨.ofAscii digits spelling, ?_, ?_⟩, ?_⟩
    · exact spelling.text_ofAscii digits
    · exact spelling.numbers_ofAscii digits
    · rw [← spelling.numbers_ofAscii digits]
      exact readNumbers?_numbers_iff.mpr ⟨spelling, rfl, inRange, rfl⟩
  · intro ⟨found, matched, read⟩
    obtain ⟨spelling, rfl, rfl⟩ := (standsFor_pattern digits _ _).mp matched
    obtain ⟨ascii, rfl, inRange, value⟩ := readNumbers?_numbers_iff.mp read
    exact ⟨ascii, inRange, (ascii.text_ofAscii digits).symm, value⟩

/-! ### Every text -/

/-- Counts in range are read back from both wordings, and so is the time if it is put as a decimal. -/
theorem parse?_text {processed failed total : Nat} (fits : processed < wordLimit)
    (fits' : failed < wordLimit) (fits'' : total < wordLimit) (wording : Wording)
    (whole : AsciiNumeral) (fraction : Option AsciiNumeral) :
    parse? (wording.text processed failed total (String.ofList (whole.chars ++ pointed fraction))) =
      some ⟨processed, failed, total, Binary64.ofDecimal (decimalOf whole fraction)⟩ := by
  obtain ⟨spelling, text, sameProcessed, sameFailed, sameTotal, rfl, rfl⟩ :=
    wording.exists_spelling processed failed total whole fraction
  rw [parse?, ← text, parseList?_text, if_pos, Spelling.value, sameProcessed, sameFailed, sameTotal]
  · simp only [value_writtenNumeral]
  · rw [Spelling.InRange, sameProcessed, sameFailed, sameTotal]
    simp only [value_writtenNumeral]
    exact ⟨fits, fits', fits''⟩

/-- An acknowledgement is read just from the texts that spell one with counts of 64 bits, and as
what they spell.  No text is spelled in two ways, whichever digits there are.  Reading is what the
pattern matches with all groups read as numbers.  Both wordings are read back exactly, with the
time as any decimal, and with the shortest decimal of any finite time as that time. -/
theorem reads_what_is_spelled :
    (∀ (info : String) (ack : Acknowledgement), parse? info = some ack ↔
      ∃ spelling : Spelling .asciiOnly, spelling.InRange ∧ spelling.text = info.toList ∧
        spelling.value = ack) ∧
    (∀ digits : DigitClass, Function.Injective (Spelling.text : Spelling digits → List Char)) ∧
    (∀ (digits : DigitClass) (info : String) (ack : Acknowledgement), parse? info = some ack ↔
      ∃ found, (pattern digits).Matches info.toList found ∧ readNumbers? found = some ack) ∧
    (∀ processed failed total : Nat, processed < wordLimit → failed < wordLimit → total < wordLimit →
      ∀ wording : Wording,
        (∀ (whole : AsciiNumeral) (fraction : Option AsciiNumeral),
          parse? (wording.text processed failed total (String.ofList (whole.chars ++ pointed fraction))) =
            some ⟨processed, failed, total, Binary64.ofDecimal (decimalOf whole fraction)⟩) ∧
        (∀ time : Binary64, time.IsFinite →
          parse? (wording.text processed failed total (String.ofList time.shortest.writtenOut)) =
            some ⟨processed, failed, total, time⟩)) := by
  refine ⟨fun _ _ => parseList?_eq_some_iff, fun _ => Spelling.text_injective,
    fun _ _ _ => parseList?_eq_some_iff_matches, ?_⟩
  intro processed failed total fits fits' fits'' wording
  refine ⟨parse?_text fits fits' fits'' wording, fun time finite => ?_⟩
  obtain ⟨whole, fraction, written, value⟩ := exists_writtenOut time.shortest
  rw [written, parse?_text fits fits' fits'', value, finite.ofQuotient_shortest]

theorem reads_what_is_spelled_with_semicolons :
    parse? "processed: 3; failed: 1; total: 4; seconds spent: 0.5" =
        some ⟨3, 1, 4, ⟨0x3FE0000000000000⟩⟩ ∧
      parse? (Wording.plain.text 47 0 47 (String.ofList (Binary64.shortest ⟨1⟩).writtenOut)) =
        some ⟨47, 0, 47, ⟨1⟩⟩ := by
  have half := (reads_what_is_spelled.2.2.2 3 1 4 (by decide) (by decide) (by decide) .punctuated).1
    (writtenNumeral 0) (some (writtenNumeral 5))
  have least := (reads_what_is_spelled.2.2.2 47 0 47 (by decide) (by decide) (by decide) .plain).2 ⟨1⟩
    (by decide)
  refine ⟨?_, least⟩
  have text : "processed: 3; failed: 1; total: 4; seconds spent: 0.5" = Wording.punctuated.text 3 1 4
      (String.ofList ((writtenNumeral 0).chars ++ pointed (some (writtenNumeral 5)))) := by decide +kernel
  rw [text, half]
  decide +kernel

end CheckRounds.Acknowledgement
