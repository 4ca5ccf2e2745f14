import CheckRounds.Proofs.Message.Acknowledgement.Spelling
import CheckRounds.Proofs.Text.Patterns

namespace CheckRounds.Acknowledgement

/-! The pattern of an acknowledgement: a text matches it just when it can be spelled that way,
and the groups are its numbers.  As a text is spelled in one way at most, it does not matter
which of several matches is looked for first. -/

open Text

variable {digits : DigitClass}

def labelPattern (words : String) : Pattern :=
  .sequence [.word words, .optional (.word ":"), .many isBlank]

def countPattern (digits : DigitClass) (words : String) : Pattern :=
  .sequence [labelPattern words, .group (.several digits.holds), .optional (.word ";"), .many isBlank]

def secondsPattern (digits : DigitClass) : Pattern :=
  .sequence [.several digits.holds, .optional (.sequence [.word ".", .several digits.holds])]

def pattern (digits : DigitClass) : Pattern :=
  .sequence [.many isBlank, countPattern digits "processed", countPattern digits "failed",
    countPattern digits "total", labelPattern "seconds spent", .group (secondsPattern digits),
    .many isBlank]

/-- The numbers of an acknowledgement, as they stand in the text. -/
def Spelling.numbers (spelling : Spelling digits) : List (List Char) :=
  [spelling.processed.number.chars, spelling.failed.number.chars, spelling.total.number.chars,
    spelling.seconds]

theorem standsFor_mark {letters : String} {mark : Char} (alone : letters.toList = [mark])
    (itself : foldCase mark = mark) (notLower : mark.isLower = false) :
    (Pattern.word letters).StandsFor (fun _ : Unit => [mark]) fun _ => [] := by
  intro text groups
  rw [Pattern.Matches, alone, spells_mark_iff itself notLower]
  constructor
  · rintro ⟨rfl, rfl⟩
    exact ⟨(), rfl, rfl⟩
  · rintro ⟨_, rfl, rfl⟩
    exact ⟨rfl, rfl⟩

theorem standsFor_optional_mark {letters : String} {mark : Char} (alone : letters.toList = [mark])
    (itself : foldCase mark = mark) (notLower : mark.isLower = false) :
    (Pattern.optional (.word letters)).StandsFor (marked mark) fun _ => [] := by
  refine (standsFor_mark alone itself notLower).optional.onto Option.isSome ?_ ?_
  · intro present
    cases present with
    | false => exact ⟨none, rfl⟩
    | true => exact ⟨some (), rfl⟩
  · intro item
    cases item <;> exact ⟨rfl, rfl⟩

theorem standsFor_digits (digits : DigitClass) :
    (Pattern.several digits.holds).StandsFor (fun number : Numeral digits => number.chars)
      fun _ => [] := by
  intro text groups
  constructor
  · rintro ⟨some_char, all, rfl⟩
    exact ⟨⟨text, some_char, all⟩, rfl, rfl⟩
  · rintro ⟨number, rfl, rfl⟩
    exact ⟨number.some_char, number.all, rfl⟩

theorem standsFor_labelPattern (words : String) :
    (labelPattern words).StandsFor (fun label : Label words => label.text) fun _ => [] := by
  have colon : (Pattern.optional (.word ":")).StandsFor (marked ':') fun _ => [] :=
    standsFor_optional_mark rfl (by decide) (by decide)
  have parts := (Pattern.standsFor_word words).cons
    (colon.cons ((Pattern.standsFor_many isBlank).cons Pattern.standsFor_nil))
  refine parts.onto (fun item => ⟨item.1.1, item.2.1, item.2.2.1.1, item.1.2, item.2.2.1.2⟩) ?_ ?_
  · exact fun label => ⟨(⟨label.word, label.spells⟩, label.colon, ⟨label.gap, label.blank⟩, ()), rfl⟩
  · exact fun item => ⟨by rw [Label.text, List.append_nil], rfl⟩

theorem standsFor_countPattern (digits : DigitClass) (words : String) :
    (countPattern digits words).StandsFor (fun count : Count digits words => count.text)
      fun count => [count.number.chars] := by
  have semicolon : (Pattern.optional (.word ";")).StandsFor (marked ';') fun _ => [] :=
    standsFor_optional_mark rfl (by decide) (by decide)
  have parts := (standsFor_labelPattern words).cons ((standsFor_digits digits).group.cons
    (semicolon.cons ((Pattern.standsFor_many isBlank).cons Pattern.standsFor_nil)))
  refine parts.onto (fun item => ⟨item.1, item.2.1, item.2.2.1, item.2.2.2.1.1, item.2.2.2.1.2⟩) ?_ ?_
  · exact fun count => ⟨(count.label, count.number, count.semicolon, ⟨count.gap, count.blank⟩, ()), rfl⟩
  · exact fun item => ⟨by rw [Count.text, List.append_nil], rfl⟩

theorem standsFor_fraction (digits : DigitClass) :
    (Pattern.optional (.sequence [.word ".", .several digits.holds])).StandsFor
      (pointed : Option (Numeral digits) → List Char) fun _ => [] := by
  have point : (Pattern.word ".").StandsFor (fun _ : Unit => ['.']) fun _ => [] :=
    standsFor_mark rfl (by decide) (by decide)
  have parts := (point.cons ((standsFor_digits digits).cons Pattern.standsFor_nil)).optional
  refine parts.onto (Option.map fun item => item.2.1) ?_ ?_
  · exact fun fraction => ⟨fraction.map fun number => ((), number, ()), by cases fraction <;> rfl⟩
  · intro item
    cases item with
    | none => exact ⟨rfl, rfl⟩
    | some item => exact ⟨by simp [pointed], rfl⟩

theorem standsFor_secondsPattern (digits : DigitClass) :
    (secondsPattern digits).StandsFor
      (fun seconds : Numeral digits × Option (Numeral digits) => seconds.1.chars ++ pointed seconds.2)
      fun _ => [] := by
  have parts := (standsFor_digits digits).cons ((standsFor_fraction digits).cons Pattern.standsFor_nil)
  refine parts.onto (fun item => (item.1, item.2.1)) ?_ ?_
  · exact fun seconds => ⟨(seconds.1, seconds.2, ()), rfl⟩
  · exact fun item => ⟨by rw [List.append_nil], rfl⟩

/-- The pattern matches what an acknowledgement is spelled as, and its groups are the numbers. -/
theorem standsFor_pattern (digits : DigitClass) :
    (pattern digits).StandsFor (fun spelling : Spelling digits => spelling.text)
      fun spelling => spelling.numbers := by
  have blanks := Pattern.standsFor_many isBlank
  have seconds := (standsFor_secondsPattern digits).group
  have parts := blanks.cons ((standsFor_countPattern digits "processed").cons
    ((standsFor_countPattern digits "failed").cons ((standsFor_countPattern digits "total").cons
      ((standsFor_labelPattern "seconds spent").cons
        (seconds.cons (blanks.cons Pattern.standsFor_nil))))))
  refine parts.onto (fun item =>
    { lead := item.1.1
      processed := item.2.1
      failed := item.2.2.1
      total := item.2.2.2.1
      label := item.2.2.2.2.1
      whole := item.2.2.2.2.2.1.1
      fraction := item.2.2.2.2.2.1.2
      trail := item.2.2.2.2.2.2.1.1
      blankLead := item.1.2
      blankTrail := item.2.2.2.2.2.2.1.2 }) ?_ ?_
  · exact fun spelling => ⟨(⟨spelling.lead, spelling.blankLead⟩, spelling.processed, spelling.failed,
      spelling.total, spelling.label, (spelling.whole, spelling.fraction),
      ⟨spelling.trail, spelling.blankTrail⟩, ()), rfl⟩
  · exact fun item => ⟨by rw [List.append_nil]; rfl, rfl⟩

end CheckRounds.Acknowledgement
