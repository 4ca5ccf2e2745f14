import CheckRounds.Proofs.Message.Acknowledgement.Spelling

namespace CheckRounds.Acknowledgement

/-! The reader of acknowledgements takes the parts of a text where they stand: whatever is
spelled is read part by part, and whatever is read is spelled. -/

open Text

variable {words : String} {lead text rest chars : List Char}

/-! ### Values -/

def Numeral.value {digits : DigitClass} (numeral : Numeral digits) : Nat := digitsValue numeral.chars

def decimalOf {digits : DigitClass} (whole : Numeral digits) : Option (Numeral digits) → Decimal
  | none => ⟨whole.value, 0⟩
  | some fraction => ⟨digitsValue (whole.chars ++ fraction.chars), fraction.chars.length⟩

namespace Spelling

variable {digits : DigitClass}

/-- The three counts fit into 64 bits. -/
def InRange (spelling : Spelling digits) : Prop :=
  spelling.processed.number.value < wordLimit ∧ spelling.failed.number.value < wordLimit ∧
    spelling.total.number.value < wordLimit

instance (spelling : Spelling digits) : Decidable spelling.InRange :=
  inferInstanceAs (Decidable (_ ∧ _ ∧ _))

def value (spelling : Spelling digits) : Acknowledgement where
  processed := spelling.processed.number.value
  failed := spelling.failed.number.value
  total := spelling.total.number.value
  seconds := Binary64.ofDecimal (decimalOf spelling.whole spelling.fraction)

end Spelling

/-! ### Spelled parts are read -/

abbrev AsciiNumeral := Numeral .asciiOnly

theorem skipOne_marked {mark : Char} {present : Bool} (ends : EndsRun (· == mark) rest) :
    skipOne mark (marked mark present ++ rest) = rest := by
  cases present with
  | true => exact if_pos rfl
  | false =>
      cases rest with
      | nil => rfl
      | cons first others =>
          have other := ends first rfl
          exact if_neg (beq_eq_false_iff_ne.mp other)

theorem digits?_numeral (number : AsciiNumeral) (ends : EndsRun DigitClass.asciiOnly.holds rest) :
    digits? (number.chars ++ rest) = some (number.chars, rest) := by
  have taken : (number.chars ++ rest).takeWhile Char.isDigit = number.chars :=
    takeWhile_run ends number.all
  have left : (number.chars ++ rest).dropWhile Char.isDigit = rest := dropWhile_run ends number.all
  rw [digits?, taken, left, if_neg]
  rw [List.isEmpty_iff]
  exact number.some_char

theorem afterLabel?_label (label : Label words) (named : StartsWithLetter words)
    (blank : lead.all isBlank = true) (ends : EndsRun isBlank rest) (noColon : EndsRun (· == ':') rest) :
    afterLabel? words.toList (lead ++ (label.text ++ rest)) = some rest := by
  have skipped : skipBlanks (lead ++ (label.text ++ rest)) = label.text ++ rest :=
    skipBlanks_append blank (label.opens named rest).ends_blanks
  have word : afterWord? words.toList (label.text ++ rest) =
      some (marked ':' label.colon ++ (label.gap ++ rest)) :=
    afterWord?_eq_some_iff.mpr ⟨label.word, label.text_append rest, label.spells⟩
  rw [afterLabel?, skipped, word, Option.map_some, skipOne_marked (label.ends_colons noColon),
    skipBlanks_append label.blank ends]

theorem afterLabel?_number (label : Label words) (named : StartsWithLetter words) (number : AsciiNumeral)
    (blank : lead.all isBlank = true) (rest : List Char) :
    afterLabel? words.toList (lead ++ (label.text ++ (number.chars ++ rest))) =
      some (number.chars ++ rest) :=
  afterLabel?_label label named blank (number.ends_blanks rest) (number.ends_colons rest)

theorem counter?_count (count : Count .asciiOnly words) (named : StartsWithLetter words)
    (blank : lead.all isBlank = true) (opens : Opens rest) :
    counter? words.toList (lead ++ (count.text ++ rest)) =
      if count.number.value < wordLimit then some (count.number.value, count.gap ++ rest) else none := by
  rw [Count.text_append]
  simp only [counter?, afterLabel?_number count.label named count.number blank _, Option.bind_eq_bind,
    Option.bind_some, digits?_numeral count.number (count.ends_digits opens),
    skipOne_marked (count.ends_semicolons opens)]
  rfl

theorem decimal?_seconds (whole : AsciiNumeral) (fraction : Option AsciiNumeral) {trail : List Char}
    (blank : trail.all isBlank = true) :
    decimal? (whole.chars ++ (pointed fraction ++ trail)) = some (decimalOf whole fraction, trail) := by
  simp only [decimal?, digits?_numeral whole (ends_digits_of_pointed blank), Option.bind_eq_bind,
    Option.bind_some]
  cases fraction with
  | some fraction =>
      simp only [pointed, List.cons_append, digits?_numeral fraction (ends_digits_of_blank blank),
        Option.bind_some]
      rfl
  | none =>
      split
      · next behind shape =>
          have point : isBlank '.' = true := by
            refine List.all_eq_true.mp blank '.' ?_
            rw [show trail = '.' :: behind from shape]
            exact List.mem_cons_self
          exact absurd point (by decide)
      · rfl

theorem parseList?_text (spelling : Spelling .asciiOnly) :
    parseList? spelling.text = if spelling.InRange then some spelling.value else none := by
  have first (rest : List Char) := counter?_count spelling.processed (by decide) spelling.blankLead
    (spelling.failed.opens (by decide) rest)
  have second (rest : List Char) := counter?_count spelling.failed (by decide) spelling.processed.blank
    (spelling.total.opens (by decide) rest)
  have third (rest : List Char) := counter?_count spelling.total (by decide) spelling.failed.blank
    (spelling.label.opens (by decide) rest)
  have label := afterLabel?_number spelling.label (by decide) spelling.whole spelling.total.blank
  rw [parseList?, Spelling.text, first]
  split
  · next fits =>
      simp only [Option.bind_eq_bind, Option.bind_some, second]
      split
      · next fits' =>
          simp only [Option.bind_some, third]
          split
          · next fits'' =>
              simp only [Option.bind_some, Spelling.seconds_append, label,
                decimal?_seconds spelling.whole spelling.fraction spelling.blankTrail, spelling.blankTrail, if_true]
              exact (if_pos ⟨fits, fits', fits''⟩).symm
          · next large => exact (if_neg fun inRange => large inRange.2.2).symm
      · next large => exact (if_neg fun inRange => large inRange.2.1).symm
  · next large => exact (if_neg fun inRange => large inRange.1).symm

/-! ### What is read is spelled -/

theorem exists_marked (mark : Char) (text : List Char) :
    ∃ present, text = marked mark present ++ skipOne mark text := by
  cases text with
  | nil => exact ⟨false, rfl⟩
  | cons first others =>
      rw [skipOne]
      split
      · next same => exact ⟨true, by rw [same]; rfl⟩
      · exact ⟨false, rfl⟩

theorem exists_skipped (text : List Char) :
    ∃ gap, gap.all isBlank = true ∧ text = gap ++ skipBlanks text :=
  ⟨text.takeWhile isBlank, List.all_takeWhile, List.takeWhile_append_dropWhile.symm⟩

theorem exists_numeral (found : digits? text = some (chars, rest)) :
    ∃ number : AsciiNumeral, number.chars = chars ∧ text = number.chars ++ rest := by
  rw [digits?] at found
  split at found
  · contradiction
  · next some_char =>
      obtain ⟨rfl, rfl⟩ := Prod.mk.inj (Option.some.inj found)
      rw [List.isEmpty_iff] at some_char
      exact ⟨⟨_, some_char, List.all_takeWhile⟩, rfl, List.takeWhile_append_dropWhile.symm⟩

theorem exists_label (found : afterLabel? words.toList text = some rest) :
    ∃ (lead : List Char) (label : Label words), lead.all isBlank = true ∧
      text = lead ++ (label.text ++ rest) := by
  obtain ⟨behind, word, rfl⟩ := Option.map_eq_some_iff.mp found
  obtain ⟨spelled, shape, spells⟩ := afterWord?_eq_some_iff.mp word
  obtain ⟨lead, blankLead, leadShape⟩ := exists_skipped text
  obtain ⟨colon, colonShape⟩ := exists_marked ':' behind
  obtain ⟨gap, blankGap, gapShape⟩ := exists_skipped (skipOne ':' behind)
  refine ⟨lead, ⟨spelled, colon, gap, spells, blankGap⟩, blankLead, ?_⟩
  rw [Label.text_append, ← gapShape, ← colonShape, ← shape]
  exact leadShape

/-- A count whose blanks behind it are left for what comes next. -/
theorem exists_count {value : Nat} (found : counter? words.toList text = some (value, rest)) :
    ∃ lead : List Char, lead.all isBlank = true ∧ ∀ gap behind, rest = gap ++ behind →
      gap.all isBlank = true → ∃ count : Count .asciiOnly words, count.gap = gap ∧
        text = lead ++ (count.text ++ behind) := by
  simp only [counter?, Option.bind_eq_bind, Option.bind_eq_some_iff, Prod.exists] at found
  obtain ⟨_, labelled, _, afterDigits, digits, taken⟩ := found
  obtain ⟨lead, label, blankLead, rfl⟩ := exists_label labelled
  obtain ⟨number, rfl, rfl⟩ := exists_numeral digits
  split at taken
  · obtain ⟨_, skipped⟩ := Prod.mk.inj (Option.some.inj taken)
    obtain ⟨semicolon, shape⟩ := exists_marked ';' afterDigits
    refine ⟨lead, blankLead, fun gap behind split blankGap => ?_⟩
    refine ⟨⟨label, number, semicolon, gap, blankGap⟩, rfl, ?_⟩
    rw [Count.text_append, ← split, ← skipped, ← shape]
  · contradiction

theorem exists_seconds {decimal : Decimal} (found : decimal? text = some (decimal, rest)) :
    ∃ (whole : AsciiNumeral) (fraction : Option AsciiNumeral),
      text = whole.chars ++ (pointed fraction ++ rest) := by
  simp only [decimal?, Option.bind_eq_bind, Option.bind_eq_some_iff, Prod.exists] at found
  obtain ⟨chars, behind, digits, taken⟩ := found
  obtain ⟨whole, rfl, rfl⟩ := exists_numeral digits
  split at taken
  · simp only [Option.bind_eq_some_iff, Prod.exists] at taken
    obtain ⟨more, last, digits, taken⟩ := taken
    obtain ⟨fraction, rfl, rfl⟩ := exists_numeral digits
    obtain ⟨_, rfl⟩ := Prod.mk.inj (Option.some.inj taken)
    exact ⟨whole, some fraction, rfl⟩
  · obtain ⟨_, rfl⟩ := Prod.mk.inj (Option.some.inj taken)
    exact ⟨whole, none, rfl⟩

theorem exists_spelling {ack : Acknowledgement} (found : parseList? text = some ack) :
    ∃ spelling : Spelling .asciiOnly, spelling.text = text := by
  simp only [parseList?, Option.bind_eq_bind, Option.bind_eq_some_iff, Prod.exists] at found
  obtain ⟨_, _, first, _, _, second, _, _, third, _, labelled, _, trail, seconds, taken⟩ := found
  split at taken
  · next blankTrail =>
      -- Each part leaves the blanks behind it to the next one.
      obtain ⟨lead, blankLead, withGap⟩ := exists_count first
      obtain ⟨gap, blankGap, withGap'⟩ := exists_count second
      obtain ⟨gap', blankGap', withGap''⟩ := exists_count third
      obtain ⟨gap'', label, blankGap'', rfl⟩ := exists_label labelled
      obtain ⟨whole, fraction, rfl⟩ := exists_seconds seconds
      obtain ⟨total, _, rfl⟩ := withGap'' gap'' _ rfl blankGap''
      obtain ⟨failed, _, rfl⟩ := withGap' gap' _ rfl blankGap'
      obtain ⟨processed, _, rfl⟩ := withGap gap _ rfl blankGap
      refine ⟨⟨lead, processed, failed, total, label, whole, fraction, trail, blankLead, blankTrail⟩, ?_⟩
      rw [Spelling.text, Spelling.seconds_append]
  · contradiction

/-- Exactly the spelled texts whose counts are in range are read, as what they spell. -/
theorem parseList?_eq_some_iff {ack : Acknowledgement} : parseList? text = some ack ↔
    ∃ spelling : Spelling .asciiOnly, spelling.InRange ∧ spelling.text = text ∧ spelling.value = ack := by
  constructor
  · intro found
    obtain ⟨spelling, rfl⟩ := exists_spelling found
    rw [parseList?_text] at found
    split at found
    · next inRange => exact ⟨spelling, inRange, rfl, Option.some.inj found⟩
    · contradiction
  · rintro ⟨spelling, inRange, rfl, rfl⟩
    rw [parseList?_text, if_pos inRange]

end CheckRounds.Acknowledgement
