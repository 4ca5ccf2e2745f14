import CheckRounds.Proofs.Text.Blanks
import CheckRounds.Proofs.Text.Words

namespace CheckRounds.Text

/-! Runs of characters of one class.

A run that is followed by something else is found again: it ends where the first character of
another class stands.
-/

variable {allowed : Char → Bool} {run front rest rest' : List Char} {mark : Char} {present present' : Bool}

/-- A text does not start with a character of a class, so that a run of the class ends before it. -/
def EndsRun (allowed : Char → Bool) (rest : List Char) : Prop :=
  ∀ c, rest.head? = some c → allowed c = false

theorem endsRun_nil : EndsRun allowed [] := fun _ first => nomatch first

theorem EndsRun.append (ends : EndsRun allowed rest) (apart : ∀ c ∈ front, allowed c = false) :
    EndsRun allowed (front ++ rest) := by
  cases front with
  | nil => exact ends
  | cons first others =>
      intro c isFirst
      cases isFirst
      exact apart first List.mem_cons_self

theorem takeWhile_run (ends : EndsRun allowed rest) (all : run.all allowed = true) :
    (run ++ rest).takeWhile allowed = run := by
  rw [List.takeWhile_append_of_pos (List.all_eq_true.mp all)]
  cases rest with
  | nil => rw [List.takeWhile_nil, List.append_nil]
  | cons first others =>
      rw [List.takeWhile_cons_of_neg (by simp [ends first rfl]), List.append_nil]

theorem dropWhile_run (ends : EndsRun allowed rest) (all : run.all allowed = true) :
    (run ++ rest).dropWhile allowed = rest := by
  have split := List.takeWhile_append_dropWhile (p := allowed) (l := run ++ rest)
  rw [takeWhile_run ends all] at split
  exact List.append_cancel_left split

theorem run_append_inj {run' : List Char} (ends : EndsRun allowed rest) (ends' : EndsRun allowed rest')
    (all : run.all allowed = true) (all' : run'.all allowed = true)
    (same : run ++ rest = run' ++ rest') : run = run' ∧ rest = rest' := by
  have sameRun := takeWhile_run ends all
  rw [same, takeWhile_run ends' all'] at sameRun
  subst sameRun
  exact ⟨rfl, List.append_cancel_left same⟩

/-! ### Marks -/

/-- A mark that may be left out. -/
def marked (mark : Char) (present : Bool) : List Char := if present then [mark] else []

theorem eq_of_mem_marked {c : Char} (inside : c ∈ marked mark present) : c = mark := by
  cases present with
  | false => exact absurd inside List.not_mem_nil
  | true => exact List.mem_singleton.mp inside

theorem marked_append_inj (ends : EndsRun (· == mark) rest) (ends' : EndsRun (· == mark) rest')
    (same : marked mark present ++ rest = marked mark present' ++ rest') :
    present = present' ∧ rest = rest' := by
  have all (present : Bool) : (marked mark present).all (· == mark) = true := by
    rw [List.all_eq_true]
    exact fun c inside => beq_iff_eq.mpr (eq_of_mem_marked inside)
  obtain ⟨sameMark, sameRest⟩ := run_append_inj ends ends' (all present) (all present') same
  refine ⟨?_, sameRest⟩
  cases present <;> cases present' <;> first | rfl | cases sameMark

/-! ### Digits -/

/-- Some characters that count as digits, among them the ASCII digits.  They are neither blanks
nor letters of words, nor marks and signs that stand beside numbers. -/
structure DigitClass where
  holds : Char → Bool
  ascii : ∀ c, c.isDigit = true → holds c = true
  notBlank : ∀ c, holds c = true → isBlank c = false
  notLetter : ∀ c, holds c = true → isLetter c = false
  notMark : ∀ c, holds c = true → c ≠ ':' ∧ c ≠ ';' ∧ c ≠ '.' ∧ c ≠ '+'

theorem not_isLetter_of_isDigit {c : Char} (digit : c.isDigit = true) : isLetter c = false := by
  rw [Bool.eq_false_iff]
  intro letter
  have high := Json.toNat_lt_of_isDigit digit
  rcases bounds_of_isLetter letter with rfl | rfl | ⟨low, _⟩
  · exact absurd digit (by decide)
  · exact absurd digit (by decide)
  · omega

def DigitClass.asciiOnly : DigitClass where
  holds := Char.isDigit
  ascii _ digit := digit
  notBlank _ := not_isBlank_of_isDigit
  notLetter _ := not_isLetter_of_isDigit
  notMark c digit := by
    refine ⟨?_, ?_, ?_, ?_⟩
    all_goals
      rintro rfl
      exact absurd digit (by decide)

theorem not_isBlank_of_isLetter {c : Char} (letter : isLetter c = true) : isBlank c = false := by
  rcases bounds_of_isLetter letter with rfl | rfl | ⟨low, high⟩
  · decide
  · decide
  · simp only [isBlank, Bool.or_eq_false_iff, Bool.and_eq_false_iff, decide_eq_false_iff_not,
      beq_eq_false_iff_ne]
    omega

variable {digits : DigitClass}

theorem DigitClass.not_holds_of_isBlank {c : Char} (blank : isBlank c = true) :
    digits.holds c = false := by
  rw [Bool.eq_false_iff]
  intro digit
  rw [digits.notBlank c digit] at blank
  contradiction

theorem DigitClass.not_holds_of_isLetter {c : Char} (letter : isLetter c = true) :
    digits.holds c = false := by
  rw [Bool.eq_false_iff]
  intro digit
  rw [digits.notLetter c digit] at letter
  contradiction

end CheckRounds.Text
