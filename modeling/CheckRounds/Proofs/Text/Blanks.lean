import CheckRounds.Proofs.Json.Numbers
import CheckRounds.Text.Blank
import Mathlib.Data.List.TakeWhile

namespace CheckRounds.Text

/-! Blanks around a text, and what trimming leaves of it. -/

variable {text lead inner gap : List Char} {c : Char}

theorem not_isBlank_of_isDigit (isDigit : c.isDigit = true) : isBlank c = false := by
  have low := Json.le_toNat_of_isDigit isDigit
  have high := Json.toNat_lt_of_isDigit isDigit
  simp only [isBlank, Bool.or_eq_false_iff, Bool.and_eq_false_iff, decide_eq_false_iff_not,
    beq_eq_false_iff_ne]
  omega

/-- A text starts with no blank and ends with none. -/
structure SolidEnds (text : List Char) : Prop where
  first : ∀ c, text.head? = some c → isBlank c = false
  last : ∀ c, text.getLast? = some c → isBlank c = false

theorem solidEnds_of_all (solid : ∀ c ∈ text, isBlank c = false) : SolidEnds text where
  first c isFirst := solid c (List.mem_of_mem_head? isFirst)
  last c isLast := solid c (List.mem_of_getLast? isLast)

theorem SolidEnds.reverse (ends : SolidEnds text) : SolidEnds text.reverse where
  first c isFirst := ends.last c (by rwa [List.head?_reverse] at isFirst)
  last c isLast := ends.first c (by rwa [List.getLast?_reverse] at isLast)

theorem skipBlanks_append (blank : lead.all isBlank = true)
    (solid : ∀ c, inner.head? = some c → isBlank c = false) : skipBlanks (lead ++ inner) = inner := by
  rw [skipBlanks, List.dropWhile_append_of_pos (List.all_eq_true.mp blank)]
  cases inner with
  | nil => rfl
  | cons first rest =>
      have notBlank := solid first rfl
      exact List.dropWhile_cons_of_neg (by simp [notBlank])

theorem dropLastBlanks_append (blank : gap.all isBlank = true) (ends : SolidEnds inner) :
    dropLastBlanks (inner ++ gap) = inner := by
  have skipped : skipBlanks (gap.reverse ++ inner.reverse) = inner.reverse :=
    skipBlanks_append (by rwa [List.all_reverse]) ends.reverse.first
  rw [skipBlanks] at skipped
  rw [dropLastBlanks, List.reverse_append, skipped, List.reverse_reverse]

/-- What is left is all between the blanks at both ends. -/
theorem trimList_append (blankLead : lead.all isBlank = true) (blankGap : gap.all isBlank = true)
    (ends : SolidEnds inner) : trimList (lead ++ inner ++ gap) = inner := by
  cases inner with
  | nil =>
      have none : skipBlanks (lead ++ gap) = [] := by
        rw [skipBlanks, List.dropWhile_eq_nil_iff, ← List.all_eq_true, List.all_append, blankLead, blankGap]
        rfl
      rw [List.append_nil, trimList, none]
      rfl
  | cons first rest =>
      have fromLeft : skipBlanks (lead ++ (first :: rest ++ gap)) = first :: rest ++ gap :=
        skipBlanks_append blankLead ends.first
      rw [trimList, List.append_assoc, fromLeft, dropLastBlanks_append blankGap ends]

theorem trimList_of_solidEnds (ends : SolidEnds text) : trimList text = text := by
  have none : ([] : List Char).all isBlank = true := rfl
  simpa using trimList_append none none ends

theorem exists_blanks (text : List Char) :
    ∃ lead gap, text = lead ++ trimList text ++ gap ∧ lead.all isBlank = true ∧
      gap.all isBlank = true ∧ SolidEnds (trimList text) := by
  have fromLeft : text.takeWhile isBlank ++ skipBlanks text = text := List.takeWhile_append_dropWhile
  have fromRight : trimList text ++ ((skipBlanks text).reverse.takeWhile isBlank).reverse =
      skipBlanks text := by
    rw [trimList, dropLastBlanks, ← List.reverse_append, List.takeWhile_append_dropWhile,
      List.reverse_reverse]
  refine ⟨text.takeWhile isBlank, ((skipBlanks text).reverse.takeWhile isBlank).reverse, ?_, ?_, ?_, ?_⟩
  · rw [List.append_assoc, fromRight, fromLeft]
  · exact List.all_takeWhile
  · rw [List.all_reverse]
    exact List.all_takeWhile
  · constructor
    case first =>
      intro c isFirst
      have isFirst : (skipBlanks text).head? = some c := by
        rw [← fromRight, List.head?_append, isFirst]
        rfl
      have solid := List.head?_dropWhile_not isBlank text
      rw [show text.dropWhile isBlank = skipBlanks text from rfl, isFirst] at solid
      exact solid
    case last =>
      intro c isLast
      rw [trimList, dropLastBlanks, List.getLast?_reverse] at isLast
      have solid := List.head?_dropWhile_not isBlank (skipBlanks text).reverse
      rw [isLast] at solid
      exact solid

end CheckRounds.Text
