namespace CheckRounds.Text

/-! Words that match in any case.

Words are written with small ASCII letters.  The simple case folding of Unicode
sends to such a letter its capital and, for `s` and `k`, one sign more: the long
s and the Kelvin sign.
-/

/-- The small ASCII letter that a character folds to, or the character itself. -/
def foldCase (c : Char) : Char :=
  if c = 'ſ' then 's'
  else if c = '\u212A' then 'k'
  else if 'A' ≤ c ∧ c ≤ 'Z' then Char.ofNat (c.toNat + 32)
  else c

/-- What follows a word at the start of a text, if the word is there. -/
def afterWord? : List Char → List Char → Option (List Char)
  | [], text => some text
  | _ :: _, [] => none
  | letter :: word, c :: text => if foldCase c = letter then afterWord? word text else none

def startsWith (word text : List Char) : Bool := (afterWord? word text).isSome

/-- Whether a word stands anywhere in a text. -/
def contains (word : List Char) : List Char → Bool
  | [] => startsWith word []
  | c :: text => startsWith word (c :: text) || contains word text

theorem afterWord?_eq_some_iff {word text rest : List Char} :
    afterWord? word text = some rest ↔
      ∃ spelled, text = spelled ++ rest ∧ spelled.map foldCase = word := by
  induction word generalizing text with
  | nil => simp [afterWord?, eq_comm]
  | cons letter word ih =>
      cases text with
      | nil =>
          simp only [afterWord?, reduceCtorEq, false_iff]
          rintro ⟨spelled, empty, folded⟩
          simp_all
      | cons c text =>
          by_cases same : foldCase c = letter
          · simp only [afterWord?, same, if_pos, ih]
            constructor
            · rintro ⟨spelled, rfl, rfl⟩
              exact ⟨c :: spelled, by simp, by simp [same]⟩
            · rintro ⟨spelled, text_eq, folded⟩
              cases spelled with
              | nil => simp at folded
              | cons first spelled =>
                  simp only [List.cons_append, List.cons.injEq, List.map_cons] at text_eq folded
                  exact ⟨spelled, text_eq.2, folded.2⟩
          · simp only [afterWord?, same, if_neg, not_false_iff, reduceCtorEq, false_iff]
            rintro ⟨spelled, text_eq, folded⟩
            cases spelled with
            | nil => simp at folded
            | cons first spelled =>
                simp only [List.cons_append, List.cons.injEq, List.map_cons] at text_eq folded
                exact same (text_eq.1 ▸ folded.1)

end CheckRounds.Text
