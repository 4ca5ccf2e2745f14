import CheckRounds.Message.Acknowledgement
import CheckRounds.Proofs.Text.Runs

namespace CheckRounds.Acknowledgement

/-! How an acknowledgement is spelled: which parts its text has, and why no text has two
divisions into these parts.

Parts may stand side by side with nothing between them.  A part ends all the same where a
character of another kind comes: words are letters, and neither blanks nor marks nor digits are.
-/

open Text

variable {digits : DigitClass} {words : String} {rest rest' : List Char}

/-! ### Parts -/

/-- Words in any case, and a colon and blanks behind them or not. -/
@[ext]
structure Label (words : String) where
  word : List Char
  colon : Bool
  gap : List Char
  spells : Spells words.toList word
  blank : gap.all isBlank = true

/-- At least one digit. -/
@[ext]
structure Numeral (digits : DigitClass) where
  chars : List Char
  some_char : chars ≠ []
  all : chars.all digits.holds = true

/-- A labelled number, and a semicolon and blanks behind it or not. -/
@[ext]
structure Count (digits : DigitClass) (words : String) where
  label : Label words
  number : Numeral digits
  semicolon : Bool
  gap : List Char
  blank : gap.all isBlank = true

/-- Three counts and a time that may have a fraction. -/
@[ext]
structure Spelling (digits : DigitClass) where
  lead : List Char
  processed : Count digits "processed"
  failed : Count digits "failed"
  total : Count digits "total"
  label : Label "seconds spent"
  whole : Numeral digits
  fraction : Option (Numeral digits)
  trail : List Char
  blankLead : lead.all isBlank = true
  blankTrail : trail.all isBlank = true

def Label.text (label : Label words) : List Char :=
  label.word ++ (marked ':' label.colon ++ label.gap)

def Count.text (count : Count digits words) : List Char :=
  count.label.text ++ (count.number.chars ++ (marked ';' count.semicolon ++ count.gap))

/-- A fraction with the point in front of it, if there is one. -/
def pointed : Option (Numeral digits) → List Char
  | none => []
  | some fraction => '.' :: fraction.chars

namespace Spelling

def seconds (spelling : Spelling digits) : List Char :=
  spelling.whole.chars ++ pointed spelling.fraction

def text (spelling : Spelling digits) : List Char :=
  spelling.lead ++ (spelling.processed.text ++ (spelling.failed.text ++ (spelling.total.text ++
    (spelling.label.text ++ (spelling.seconds ++ spelling.trail)))))

end Spelling

/-! ### Where parts end -/

/-- Words that start with a letter. -/
def StartsWithLetter (words : String) : Prop := words.toList.head?.any Char.isLower = true

instance (words : String) : Decidable (StartsWithLetter words) :=
  inferInstanceAs (Decidable (_ = true))

/-- The first character is a letter. -/
def Opens (rest : List Char) : Prop := ∃ first others, rest = first :: others ∧ isLetter first = true

theorem Label.opens (label : Label words) (named : StartsWithLetter words) (rest : List Char) :
    Opens (label.text ++ rest) := by
  have spells := label.spells
  rw [StartsWithLetter, ← spells] at named
  rw [Label.text]
  cases word : label.word with
  | nil => simp [word] at named
  | cons first others => exact ⟨first, _, rfl, by simpa [word, isLetter] using named⟩

theorem Count.text_append (count : Count digits words) (rest : List Char) :
    count.text ++ rest = count.label.text ++ (count.number.chars ++
      (marked ';' count.semicolon ++ (count.gap ++ rest))) := by
  simp only [Count.text, List.append_assoc]

theorem Count.opens (count : Count digits words) (named : StartsWithLetter words) (rest : List Char) :
    Opens (count.text ++ rest) := count.text_append rest ▸ count.label.opens named _

/-- A letter ends a run of anything but letters. -/
theorem Opens.endsRun {allowed : Char → Bool} (opens : Opens rest)
    (apart : ∀ c, isLetter c = true → allowed c = false) : EndsRun allowed rest := by
  obtain ⟨first, others, rfl, letter⟩ := opens
  intro c isFirst
  cases isFirst
  exact apart first letter

theorem Opens.ends_digits (opens : Opens rest) : EndsRun digits.holds rest :=
  opens.endsRun fun _ => digits.not_holds_of_isLetter

theorem Opens.ends_blanks (opens : Opens rest) : EndsRun isBlank rest :=
  opens.endsRun fun _ => not_isBlank_of_isLetter

theorem Opens.ends_marks {mark : Char} (opens : Opens rest) (notLetter : isLetter mark = false) :
    EndsRun (· == mark) rest := by
  refine opens.endsRun fun c letter => ?_
  rw [beq_eq_false_iff_ne]
  rintro rfl
  rw [notLetter] at letter
  contradiction

theorem Numeral.endsRun (number : Numeral digits) {allowed : Char → Bool}
    (apart : ∀ c, digits.holds c = true → allowed c = false) (rest : List Char) :
    EndsRun allowed (number.chars ++ rest) := by
  obtain ⟨chars, some_char, all⟩ := number
  obtain ⟨first, others, rfl⟩ := List.exists_cons_of_ne_nil some_char
  intro c isFirst
  cases isFirst
  exact apart first (List.all_eq_true.mp all first List.mem_cons_self)

theorem Numeral.ends_blanks (number : Numeral digits) (rest : List Char) :
    EndsRun isBlank (number.chars ++ rest) := number.endsRun digits.notBlank rest

theorem Numeral.ends_colons (number : Numeral digits) (rest : List Char) :
    EndsRun (· == ':') (number.chars ++ rest) :=
  number.endsRun (fun c digit => beq_eq_false_iff_ne.mpr (digits.notMark c digit).1) rest

theorem EndsRun.append_blanks {gap : List Char} {allowed : Char → Bool} (ends : EndsRun allowed rest)
    (blank : gap.all isBlank = true) (apart : ∀ c, isBlank c = true → allowed c = false) :
    EndsRun allowed (gap ++ rest) :=
  ends.append fun c inside => apart c (List.all_eq_true.mp blank c inside)

theorem not_mark_of_isBlank {mark : Char} (notBlank : isBlank mark = false) (c : Char)
    (blank : isBlank c = true) : (c == mark) = false := by
  rw [beq_eq_false_iff_ne]
  rintro rfl
  rw [notBlank] at blank
  contradiction

theorem Label.ends_colons (label : Label words) (noColon : EndsRun (· == ':') rest) :
    EndsRun (· == ':') (label.gap ++ rest) :=
  EndsRun.append_blanks noColon label.blank (not_mark_of_isBlank (by decide))

theorem Count.ends_semicolons (count : Count digits words) (opens : Opens rest) :
    EndsRun (· == ';') (count.gap ++ rest) :=
  EndsRun.append_blanks (opens.ends_marks (by decide)) count.blank (not_mark_of_isBlank (by decide))

/-- What stands behind the number of a count ends it. -/
theorem Count.ends_digits (count : Count digits words) (opens : Opens rest) :
    EndsRun digits.holds (marked ';' count.semicolon ++ (count.gap ++ rest)) := by
  refine (EndsRun.append_blanks opens.ends_digits count.blank fun _ => digits.not_holds_of_isBlank).append ?_
  intro c inside
  rw [Bool.eq_false_iff]
  exact fun digit => (digits.notMark c digit).2.1 (eq_of_mem_marked inside)

theorem ends_digits_of_blank {trail : List Char} (blank : trail.all isBlank = true) :
    EndsRun digits.holds trail := by
  rw [← List.append_nil trail]
  exact EndsRun.append_blanks endsRun_nil blank fun _ => digits.not_holds_of_isBlank

/-- What stands behind the whole part of a time ends it. -/
theorem ends_digits_of_pointed {fraction : Option (Numeral digits)} {trail : List Char}
    (blank : trail.all isBlank = true) : EndsRun digits.holds (pointed fraction ++ trail) := by
  cases fraction with
  | none => exact ends_digits_of_blank blank
  | some fraction =>
      intro c isFirst
      cases isFirst
      rw [Bool.eq_false_iff]
      exact fun digit => (digits.notMark '.' digit).2.2.1 rfl

/-! ### One division -/

theorem Label.text_append (label : Label words) (rest : List Char) :
    label.text ++ rest = label.word ++ (marked ':' label.colon ++ (label.gap ++ rest)) := by
  simp only [Label.text, List.append_assoc]

theorem Label.text_append_inj {label label' : Label words} (ends : EndsRun isBlank rest)
    (ends' : EndsRun isBlank rest') (noColon : EndsRun (· == ':') rest)
    (noColon' : EndsRun (· == ':') rest') (same : label.text ++ rest = label'.text ++ rest') :
    label = label' ∧ rest = rest' := by
  rw [Label.text_append, Label.text_append] at same
  have sameLength : label.word.length = label'.word.length := by
    have folded : label.word.map foldCase = label'.word.map foldCase := label.spells.trans label'.spells.symm
    simpa using congrArg List.length folded
  obtain ⟨sameWord, same⟩ := List.append_inj same sameLength
  obtain ⟨sameColon, same⟩ := marked_append_inj (label.ends_colons noColon) (label'.ends_colons noColon') same
  obtain ⟨sameGap, sameRest⟩ := run_append_inj ends ends' label.blank label'.blank same
  exact ⟨Label.ext sameWord sameColon sameGap, sameRest⟩

theorem Numeral.chars_append_inj {number number' : Numeral digits} (ends : EndsRun digits.holds rest)
    (ends' : EndsRun digits.holds rest') (same : number.chars ++ rest = number'.chars ++ rest') :
    number = number' ∧ rest = rest' := by
  obtain ⟨sameChars, sameRest⟩ := run_append_inj ends ends' number.all number'.all same
  exact ⟨Numeral.ext sameChars, sameRest⟩

/-- A label before a number is told from the number. -/
theorem Label.text_append_number_inj {label label' : Label words} {number number' : Numeral digits}
    (same : label.text ++ (number.chars ++ rest) = label'.text ++ (number'.chars ++ rest')) :
    label = label' ∧ number.chars ++ rest = number'.chars ++ rest' :=
  Label.text_append_inj (number.ends_blanks rest) (number'.ends_blanks rest') (number.ends_colons rest)
    (number'.ends_colons rest') same

/-- A count before a letter is told from what comes behind it. -/
theorem Count.text_append_inj {count count' : Count digits words} (opens : Opens rest)
    (opens' : Opens rest') (same : count.text ++ rest = count'.text ++ rest') :
    count = count' ∧ rest = rest' := by
  rw [Count.text_append, Count.text_append] at same
  obtain ⟨sameLabel, same⟩ := Label.text_append_number_inj same
  obtain ⟨sameNumber, same⟩ := Numeral.chars_append_inj (count.ends_digits opens)
    (count'.ends_digits opens') same
  obtain ⟨sameMark, same⟩ := marked_append_inj (count.ends_semicolons opens)
    (count'.ends_semicolons opens') same
  obtain ⟨sameGap, sameRest⟩ := run_append_inj opens.ends_blanks opens'.ends_blanks count.blank
    count'.blank same
  exact ⟨Count.ext sameLabel sameNumber sameMark sameGap, sameRest⟩

theorem pointed_append_inj {fraction fraction' : Option (Numeral digits)} {trail trail' : List Char}
    (blank : trail.all isBlank = true) (blank' : trail'.all isBlank = true)
    (same : pointed fraction ++ trail = pointed fraction' ++ trail') :
    fraction = fraction' ∧ trail = trail' := by
  have noPoint {behind trail : List Char} (blank : trail.all isBlank = true) : trail ≠ '.' :: behind := by
    rintro rfl
    exact absurd (List.all_eq_true.mp blank '.' List.mem_cons_self) (by decide)
  cases fraction with
  | none =>
      cases fraction' with
      | none => exact ⟨rfl, same⟩
      | some fraction' => exact absurd same (noPoint blank)
  | some fraction =>
      cases fraction' with
      | none => exact absurd same.symm (noPoint blank')
      | some fraction' =>
          obtain ⟨rfl, sameTrail⟩ := Numeral.chars_append_inj (ends_digits_of_blank blank)
            (ends_digits_of_blank blank') (List.cons.inj same).2
          exact ⟨rfl, sameTrail⟩

namespace Spelling

theorem seconds_append (spelling : Spelling digits) (rest : List Char) :
    spelling.seconds ++ rest = spelling.whole.chars ++ (pointed spelling.fraction ++ rest) :=
  List.append_assoc _ _ _

/-- A text is spelled in one way at most. -/
theorem text_injective : Function.Injective (text : Spelling digits → List Char) := by
  intro spelling spelling' same
  rw [text, text] at same
  obtain ⟨sameLead, same⟩ := run_append_inj (spelling.processed.opens (by decide) _).ends_blanks
    (spelling'.processed.opens (by decide) _).ends_blanks spelling.blankLead spelling'.blankLead same
  obtain ⟨sameProcessed, same⟩ := Count.text_append_inj (spelling.failed.opens (by decide) _)
    (spelling'.failed.opens (by decide) _) same
  obtain ⟨sameFailed, same⟩ := Count.text_append_inj (spelling.total.opens (by decide) _)
    (spelling'.total.opens (by decide) _) same
  obtain ⟨sameTotal, same⟩ := Count.text_append_inj (spelling.label.opens (by decide) _)
    (spelling'.label.opens (by decide) _) same
  rw [seconds_append, seconds_append] at same
  obtain ⟨sameLabel, same⟩ := Label.text_append_number_inj same
  obtain ⟨sameWhole, same⟩ := Numeral.chars_append_inj (ends_digits_of_pointed spelling.blankTrail)
    (ends_digits_of_pointed spelling'.blankTrail) same
  obtain ⟨sameFraction, sameTrail⟩ := pointed_append_inj spelling.blankTrail spelling'.blankTrail same
  exact Spelling.ext sameLead sameProcessed sameFailed sameTotal sameLabel sameWhole sameFraction
    sameTrail

end Spelling

end CheckRounds.Acknowledgement
