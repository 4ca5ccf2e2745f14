import CheckRounds.Message.Reply
import CheckRounds.Proofs.Text.Words

namespace CheckRounds

/-! What replies are taken for: when one says that its server does not know a host, and that
orders are read all together or not at all.
-/

namespace Reply

open Text (Spells)

/-! ### Unknown hosts -/

/-- A host is named and said to be missing before the line ends, or there are no checks. -/
def SaysUnknownHost (info : List Char) : Prop :=
  (∃ before host between missing after, info = before ++ host ++ between ++ missing ++ after ∧
      Spells "host ".toList host ∧ '\n' ∉ between ∧
      (Spells " not found".toList missing ∨ Spells " not monitored".toList missing)) ∨
    ∃ before words after, info = before ++ words ++ after ∧
      Spells "no active checks on server".toList words

theorem saysHostMissing_iff {info : List Char} : saysHostMissing info = true ↔
    ∃ before host rest, info = before ++ host ++ rest ∧ Spells "host ".toList host ∧
      saysMissing (rest.takeWhile (· ≠ '\n')) = true := by
  induction info with
  | nil =>
      simp only [saysHostMissing, Bool.false_eq_true, false_iff]
      intro ⟨before, host, rest, split, spells, _⟩
      simp only [List.nil_eq, List.append_eq_nil_iff] at split
      rw [split.1.2] at spells
      contradiction
  | cons c info ih =>
      rw [saysHostMissing, Bool.or_eq_true, ih]
      constructor
      · rintro (here | ⟨before, host, rest, split, spells, missing⟩)
        · split at here
          · next rest found =>
              obtain ⟨host, split, spells⟩ := Text.afterWord?_eq_some_iff.mp found
              exact ⟨[], host, rest, split, spells, here⟩
          · contradiction
        · exact ⟨c :: before, host, rest, by simp [split], spells, missing⟩
      · intro ⟨before, host, rest, split, spells, missing⟩
        cases before with
        | nil =>
            have found := Text.afterWord?_eq_some_iff.mpr ⟨host, split, spells⟩
            rw [found]
            exact .inl missing
        | cons first before =>
            obtain ⟨_, later⟩ := List.cons.inj split
            exact .inr ⟨before, host, rest, later, spells, missing⟩

theorem saysMissing_line_iff {text : List Char} :
    saysMissing (text.takeWhile (· ≠ '\n')) = true ↔
      ∃ between missing after, text = between ++ missing ++ after ∧ '\n' ∉ between ∧
        (Spells " not found".toList missing ∨ Spells " not monitored".toList missing) := by
  rw [saysMissing, Bool.or_eq_true, Text.contains_line_iff (by decide),
    Text.contains_line_iff (by decide)]
  simp only [and_or_left, exists_or]

theorem saysUnknownHost_iff (info : String) :
    saysUnknownHost info = true ↔ SaysUnknownHost info.toList := by
  rw [saysUnknownHost, Bool.or_eq_true, saysHostMissing_iff, Text.contains_iff, SaysUnknownHost]
  refine or_congr_left ?_
  constructor
  · intro ⟨before, host, rest, split, spells, missing⟩
    obtain ⟨between, words, after, splitRest, oneLine, said⟩ := saysMissing_line_iff.mp missing
    exact ⟨before, host, between, words, after, by simp [split, splitRest], spells, oneLine, said⟩
  · intro ⟨before, host, between, words, after, split, spells, oneLine, said⟩
    refine ⟨before, host, between ++ words ++ after, by simp [split], spells, ?_⟩
    exact saysMissing_line_iff.mpr ⟨between, words, after, rfl, oneLine, said⟩

/-! ### Orders -/

/-- Something stands in the list of orders that a payload has. -/
def Lists (payload : List UInt8) (entry : Json.Tree) : Prop :=
  ∃ tree fields entries, Json.Tree.parse? payload = some tree ∧
    tree.fields? ["response", "info", "data"] 1 = some fields ∧
    fields.lookup "data" = some (.array entries) ∧ entry ∈ entries

theorem mapM_read?_eq_none {entries : List Json.Tree} {entry : Json.Tree} (inside : entry ∈ entries)
    (malformed : Order.read? entry = none) : entries.mapM Order.read? = none := by
  induction entries with
  | nil => contradiction
  | cons first rest ih =>
      rw [List.mapM_cons]
      rcases List.mem_cons.mp inside with rfl | later
      · rw [malformed]
        rfl
      · rw [ih later]
        cases Order.read? first <;> rfl

/-- One entry that is no order makes the whole reply unreadable. -/
theorem parse_of_malformed {payload : List UInt8} {entry : Json.Tree} (lists : Lists payload entry)
    (malformed : Order.read? entry = none) :
    parse payload = .error (.protocol .malformedJson) := by
  obtain ⟨tree, fields, entries, parsed, known, data, inside⟩ := lists
  have unread : read? tree = none := by
    have noOrders : Json.Tree.defaulted? (Json.Tree.optional? (Json.Tree.list? Order.read?)) none
        fields "data" = none := by
      rw [Json.Tree.defaulted?, data]
      simp [Json.Tree.optional?, Json.Tree.list?, mapM_read?_eq_none inside malformed]
    rw [read?, known]
    simp [noOrders]
  rw [parse, parsed, Option.bind_some, unread]

end Reply

end CheckRounds
