import CheckRounds.Text.Caseless
import Mathlib.Data.List.TakeWhile

namespace CheckRounds.Text

/-! Where words stand in a text, in any case. -/

/-- Some text is the given words in any case. -/
def Spells (words : List Char) (text : List Char) : Prop := text.map foldCase = words

theorem startsWith_iff {words text : List Char} : startsWith words text = true ↔
    ∃ spelled after, text = spelled ++ after ∧ Spells words spelled := by
  rw [startsWith, Option.isSome_iff_exists]
  simp only [afterWord?_eq_some_iff]
  exact exists_comm

theorem contains_iff {words text : List Char} : contains words text = true ↔
    ∃ before spelled after, text = before ++ spelled ++ after ∧ Spells words spelled := by
  induction text with
  | nil =>
      rw [contains, startsWith_iff]
      constructor
      · intro ⟨spelled, after, split, spells⟩
        exact ⟨[], spelled, after, split, spells⟩
      · intro ⟨before, spelled, after, split, spells⟩
        simp only [List.nil_eq, List.append_eq_nil_iff] at split
        exact ⟨spelled, [], by simp [split], spells⟩
  | cons c text ih =>
      rw [contains, Bool.or_eq_true, startsWith_iff, ih]
      constructor
      · rintro (⟨spelled, after, split, spells⟩ | ⟨before, spelled, after, split, spells⟩)
        · exact ⟨[], spelled, after, split, spells⟩
        · exact ⟨c :: before, spelled, after, by simp [split], spells⟩
      · intro ⟨before, spelled, after, split, spells⟩
        cases before with
        | nil => exact .inl ⟨spelled, after, split, spells⟩
        | cons first before =>
            obtain ⟨_, rest⟩ := List.cons.inj split
            exact .inr ⟨before, spelled, after, rest, spells⟩

theorem Spells.no_lineFeed {words spelled : List Char} (spells : Spells words spelled)
    (oneLine : '\n' ∉ words) : '\n' ∉ spelled := by
  intro inside
  apply oneLine
  rw [← spells]
  exact List.mem_map.mpr ⟨'\n', inside, by decide⟩

/-- Words stand in the first line of a text if no line feed comes before them. -/
theorem contains_line_iff {words text : List Char} (oneLine : '\n' ∉ words) :
    contains words (text.takeWhile (· ≠ '\n')) = true ↔
      ∃ between spelled after, text = between ++ spelled ++ after ∧ '\n' ∉ between ∧
        Spells words spelled := by
  rw [contains_iff]
  constructor
  · intro ⟨between, spelled, after, split, spells⟩
    refine ⟨between, spelled, after ++ text.dropWhile (· ≠ '\n'), ?_, ?_, spells⟩
    · rw [← List.append_assoc, ← split, List.takeWhile_append_dropWhile]
    · intro inside
      have inLine : '\n' ∈ text.takeWhile (· ≠ '\n') := by
        rw [split]
        simp [inside]
      simpa using List.mem_takeWhile_imp inLine
  · intro ⟨between, spelled, after, split, noneBetween, spells⟩
    have sameLine : ∀ c ∈ between ++ spelled, decide (c ≠ '\n') = true := by
      intro c inside
      apply decide_eq_true
      rintro rfl
      rcases List.mem_append.mp inside with inBetween | inSpelled
      · exact noneBetween inBetween
      · exact spells.no_lineFeed oneLine inSpelled
    refine ⟨between, spelled, after.takeWhile (· ≠ '\n'), ?_, spells⟩
    rw [split, List.takeWhile_append_of_pos sameLine]

theorem spells_append_iff {first second text : List Char} : Spells (first ++ second) text ↔
    ∃ front back, text = front ++ back ∧ Spells first front ∧ Spells second back := by
  simp only [Spells, List.map_eq_append_iff]

/-! ### Letters -/

/-- A letter of a word, in any case. -/
def isLetter (c : Char) : Bool := (foldCase c).isLower

/-- Besides the long s and the Kelvin sign only ASCII letters count as letters of words. -/
theorem bounds_of_isLetter {c : Char} (letter : isLetter c = true) :
    c = 'ſ' ∨ c = '\u212A' ∨ (65 ≤ c.toNat ∧ c.toNat ≤ 122) := by
  rw [isLetter, foldCase] at letter
  split at letter
  · next long => exact .inl long
  · split at letter
    · next kelvin => exact .inr (.inl kelvin)
    · refine .inr (.inr ?_)
      split at letter
      · next capital =>
          obtain ⟨low, high⟩ := capital
          have low := UInt32.le_iff_toNat_le.mp low
          have high := UInt32.le_iff_toNat_le.mp high
          exact ⟨low, Nat.le_trans high (by decide)⟩
      · obtain ⟨low, high⟩ := Bool.and_eq_true_iff.mp letter
        have low := UInt32.le_iff_toNat_le.mp (of_decide_eq_true low)
        have high := UInt32.le_iff_toNat_le.mp (of_decide_eq_true high)
        exact ⟨Nat.le_trans (by decide) low, high⟩

/-- Folding changes a character only into a small letter. -/
theorem foldCase_eq_self_or_isLower (c : Char) : foldCase c = c ∨ (foldCase c).isLower = true := by
  rw [foldCase]
  split
  · exact .inr (by decide)
  · split
    · exact .inr (by decide)
    · split
      · next capital =>
          right
          obtain ⟨low, high⟩ := capital
          have low := UInt32.le_iff_toNat_le.mp low
          have high := UInt32.le_iff_toNat_le.mp high
          have code : ∀ code, 65 ≤ code → code ≤ 90 → (Char.ofNat (code + 32)).isLower = true := by decide
          exact code c.toNat low high
      · exact .inl rfl

/-- What is no letter stands only for itself. -/
theorem spells_mark_iff {mark : Char} {text : List Char} (itself : foldCase mark = mark)
    (notLower : mark.isLower = false) : Spells [mark] text ↔ text = [mark] := by
  constructor
  · intro spells
    obtain ⟨c, rfl, folded⟩ := List.map_eq_singleton_iff.mp spells
    rcases foldCase_eq_self_or_isLower c with same | lower
    · rw [← folded, same]
    · rw [folded, notLower] at lower
      contradiction
  · rintro rfl
    simp [Spells, itself]

end CheckRounds.Text
