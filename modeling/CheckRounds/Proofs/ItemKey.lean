import CheckRounds.ItemKey
import CheckRounds.Proofs.Text.Blanks

namespace CheckRounds

/-! Item keys are read as they are written, and what is read can be written again.

Only a single parameter that is empty is lost on the way: between the brackets nothing is left
of it, and nothing between brackets is no parameter at all.
-/

open Text (SolidEnds)

namespace ItemKey

variable {name body : List Char} {item : ItemKey}

/-- The name, and between brackets the parameters with commas between them. -/
def write (item : ItemKey) : String :=
  item.name ++ "[" ++ ",".intercalate item.parameters ++ "]"

/-- A parameter has no comma in it and no blanks around it; brackets are like any character. -/
structure IsParameter (text : String) : Prop where
  noComma : ',' ∉ text.toList
  ends : SolidEnds text.toList

/-! ### Parameters -/

theorem splitCommas_ne_nil (text : List Char) : splitCommas text ≠ [] := by
  cases text with
  | nil => exact List.cons_ne_nil [] []
  | cons c rest =>
      rw [splitCommas]
      split
      · exact List.cons_ne_nil _ _
      · split <;> exact List.cons_ne_nil _ _

theorem splitCommas_eq_splitOn (text : List Char) : splitCommas text = text.splitOn ',' := by
  induction text with
  | nil => rw [splitCommas, List.splitOn_nil]
  | cons c rest ih =>
      rw [splitCommas, List.splitOn_cons_eq_if_modifyHead, ← ih]
      by_cases comma : c = ','
      · simp [comma]
      · rw [if_neg comma, if_neg (by simpa using comma)]
        obtain ⟨first, others, split⟩ := List.exists_cons_of_ne_nil (splitCommas_ne_nil rest)
        rw [split]
        rfl

theorem noComma_of_mem_splitCommas {text piece : List Char} (found : piece ∈ splitCommas text) :
    ',' ∉ piece := by
  induction text generalizing piece with
  | nil =>
      rw [List.mem_singleton.mp found]
      exact List.not_mem_nil
  | cons c rest ih =>
      rw [splitCommas] at found
      split at found
      · rcases List.mem_cons.mp found with rfl | later
        · exact List.not_mem_nil
        · exact ih later
      · next notComma =>
          obtain ⟨first, others, split⟩ := List.exists_cons_of_ne_nil (splitCommas_ne_nil rest)
          rw [split] at found ih
          rcases List.mem_cons.mp found with rfl | later
          · exact List.not_mem_cons_of_ne_of_not_mem (Ne.symm notComma) (ih List.mem_cons_self)
          · exact ih (List.mem_cons_of_mem first later)

/-- The pieces between commas are trimmed to parameters. -/
theorem isParameter_of_mem {text : String} (found : text ∈ parameterList body) : IsParameter text := by
  rw [parameterList] at found
  split at found
  · contradiction
  · obtain ⟨piece, inside, rfl⟩ := List.mem_map.mp found
    obtain ⟨lead, gap, split, _, _, ends⟩ := Text.exists_blanks piece
    have noComma := noComma_of_mem_splitCommas inside
    rw [split] at noComma
    constructor
    case noComma =>
      rw [String.toList_ofList]
      exact fun comma => noComma (List.mem_append_left gap (List.mem_append_right lead comma))
    case ends => rwa [String.toList_ofList]

theorem parameterList_join {parameters : List String} (some_parameter : parameters ≠ [])
    (notBlank : parameters ≠ [""]) (each : ∀ text ∈ parameters, IsParameter text) :
    parameterList (",".intercalate parameters).toList = parameters := by
  have split : (",".intercalate parameters).toList.splitOn ',' = parameters.map String.toList := by
    rw [String.toList_intercalate]
    refine List.splitOn_intercalate ',' ?_ (by simpa using some_parameter)
    intro piece found
    obtain ⟨text, inside, rfl⟩ := List.mem_map.mp found
    exact (each text inside).noComma
  have some_text : (",".intercalate parameters).toList.isEmpty = false := by
    rw [List.isEmpty_eq_false_iff]
    intro empty
    rw [empty, List.splitOn_nil] at split
    obtain ⟨text, rfl, blank⟩ := List.map_eq_singleton_iff.mp split.symm
    exact notBlank (by rw [String.toList_eq_nil_iff.mp blank])
  rw [parameterList, some_text, splitCommas_eq_splitOn, split, List.map_map, if_neg (by decide)]
  refine (List.map_congr_left fun text inside => ?_).trans (List.map_id parameters)
  rw [Function.comp_apply, Text.trimList_of_solidEnds (each text inside).ends, String.ofList_toList]
  rfl

/-! ### Keys -/

/-- A key without an opening bracket is a name. -/
theorem parse_of_name {key : String} (plain : '[' ∉ key.toList) : parse key = .ok ⟨key, []⟩ := by
  have none : key.toList.dropWhile (· ≠ '[') = [] := by
    rw [List.dropWhile_eq_nil_iff]
    intro c inside
    exact decide_eq_true fun same => plain (same ▸ inside)
  rw [parse, none]

theorem parse_of_bracket {key : String} (split : key.toList = name ++ '[' :: body)
    (plain : '[' ∉ name) :
    parse key = if body.getLast? = some ']' then
        .ok ⟨String.ofList name, parameterList body.dropLast⟩
      else .error (.unterminated key) := by
  have before : ∀ c ∈ name, decide (c ≠ '[') = true :=
    fun c inside => decide_eq_true fun same => plain (same ▸ inside)
  have front : key.toList.takeWhile (· ≠ '[') = name := by
    rw [split, List.takeWhile_append_of_pos before]
    simp
  have back : key.toList.dropWhile (· ≠ '[') = '[' :: body := by
    rw [split, List.dropWhile_append_of_pos before]
    simp
  rw [parse, front, back]

/-- A key has no opening bracket, or a first one. -/
theorem plain_or_bracket (key : List Char) :
    '[' ∉ key ∨ ∃ name body, key = name ++ '[' :: body ∧ '[' ∉ name := by
  by_cases bracket : '[' ∈ key
  · obtain ⟨name, body, split, plain⟩ := List.eq_append_cons_of_mem bracket
    exact .inr ⟨name, body, split, plain⟩
  · exact .inl bracket

theorem getLast?_bracket (name body : List Char) :
    (name ++ '[' :: body).getLast? = some ']' ↔ body.getLast? = some ']' := by
  rw [List.getLast?_append]
  cases body with
  | nil => simp
  | cons c rest => simp

/-- What is read is a name without an opening bracket, and parameters. -/
theorem shape_of_parse {key : String} (parsed : parse key = .ok item) :
    '[' ∉ item.name.toList ∧ ∀ text ∈ item.parameters, IsParameter text := by
  rcases plain_or_bracket key.toList with plain | ⟨name, body, split, plain⟩
  · rw [parse_of_name plain] at parsed
    cases parsed
    exact ⟨plain, fun text inside => absurd inside List.not_mem_nil⟩
  · rw [parse_of_bracket split plain] at parsed
    split at parsed
    · cases parsed
      exact ⟨by rwa [String.toList_ofList], fun text => isParameter_of_mem⟩
    · cases parsed

theorem parse_write (plain : '[' ∉ item.name.toList) :
    parse item.write = .ok ⟨item.name, parameterList (",".intercalate item.parameters).toList⟩ := by
  have split : item.write.toList =
      item.name.toList ++ '[' :: ((",".intercalate item.parameters).toList ++ [']']) := by
    simp [write]
  rw [parse_of_bracket split plain, if_pos List.getLast?_concat, List.dropLast_concat,
    String.ofList_toList]

/-- What has parameters other than a single empty one is read as it was written. -/
theorem parse_write_of_parameters (plain : '[' ∉ item.name.toList) (some_parameter : item.parameters ≠ [])
    (notBlank : item.parameters ≠ [""]) (each : ∀ text ∈ item.parameters, IsParameter text) :
    parse item.write = .ok item := by
  rw [parse_write plain, parameterList_join some_parameter notBlank each]

theorem exists_parse_iff {key : String} :
    (∃ item, parse key = .ok item) ↔ '[' ∉ key.toList ∨ key.toList.getLast? = some ']' := by
  rcases plain_or_bracket key.toList with plain | ⟨name, body, split, plain⟩
  · exact iff_of_true ⟨_, parse_of_name plain⟩ (.inl plain)
  · have bracket : '[' ∈ key.toList := by
      rw [split]
      exact List.mem_append_right name List.mem_cons_self
    rw [parse_of_bracket split plain, split, getLast?_bracket, ← split]
    split
    · next ends => exact iff_of_true ⟨_, rfl⟩ (.inr ends)
    · next ends => exact iff_of_false (fun ⟨_, parsed⟩ => nomatch parsed) (by simp [bracket, ends])

/-- A key is read back as it was written, whatever brackets its parameters have, unless its only
parameter is empty, which then is lost.  A key can be read just when it has no opening bracket, and
then it is a name, or when it ends with a closing one; what was read can be written and read again. -/
theorem reads_what_is_written :
    (∀ item : ItemKey, '[' ∉ item.name.toList → (∀ text ∈ item.parameters, IsParameter text) →
      parse item.write =
        .ok (if item.parameters = [""] then { item with parameters := [] } else item)) ∧
    (∀ key, (∃ item, parse key = .ok item) ↔ '[' ∉ key.toList ∨ key.toList.getLast? = some ']') ∧
    (∀ key, '[' ∉ key.toList → parse key = .ok ⟨key, []⟩) ∧
    ∀ key item, parse key = .ok item → item.parameters ≠ [""] → parse item.write = .ok item := by
  have written : ∀ item : ItemKey, '[' ∉ item.name.toList →
      (∀ text ∈ item.parameters, IsParameter text) → item.parameters ≠ [""] →
      parse item.write = .ok item := by
    intro item plain each notBlank
    by_cases none : item.parameters = []
    · obtain ⟨name, parameters⟩ := item
      dsimp only at none
      subst none
      exact parse_write plain
    · exact parse_write_of_parameters plain none notBlank each
  refine ⟨?_, fun key => exists_parse_iff, fun key => parse_of_name, ?_⟩
  · intro item plain each
    split
    · next blank =>
        rw [parse_write plain, blank]
        rfl
    · next notBlank => exact written item plain each notBlank
  · intro key item parsed notBlank
    obtain ⟨plain, each⟩ := shape_of_parse parsed
    exact written item plain each notBlank

/-- Brackets and an empty text among the parameters are kept; a blank alone is lost when it is
written again. -/
theorem reads_brackets_and_empty_text :
    let item : ItemKey := ⟨"web.page", ["a[0]", "", "x y]"]⟩
    item.write = "web.page[a[0],,x y]]" ∧ parse "web.page[a[0],,x y]]" = .ok item ∧
      parse "web.page[ ]" = .ok ⟨"web.page", [""]⟩ ∧
      parse (write ⟨"web.page", [""]⟩) = .ok ⟨"web.page", []⟩ := by
  intro item
  have each : ∀ text ∈ item.parameters, IsParameter text := by
    intro text found
    simp only [item, List.mem_cons, List.not_mem_nil, or_false] at found
    rcases found with rfl | rfl | rfl
    all_goals exact ⟨by decide, fun c first => by cases first <;> decide,
      fun c last => by cases last <;> decide⟩
  have written : item.write = "web.page[a[0],,x y]]" := by decide +kernel
  have empty : ∀ text ∈ [""], IsParameter text := by
    intro text found
    exact each text (by simp_all [item])
  obtain ⟨reads, _⟩ := reads_what_is_written
  exact ⟨written, written ▸ reads item (by decide) each, by decide +kernel,
    reads ⟨"web.page", [""]⟩ (by decide) empty⟩

end ItemKey

end CheckRounds
