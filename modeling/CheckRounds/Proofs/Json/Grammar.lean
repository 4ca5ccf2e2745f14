import CheckRounds.Proofs.Json.Writing

namespace CheckRounds.Json

/-! The texts of a tree: blanks between the tokens as one likes, and numbers and strings as the
tree has them spelled.  Every such text is read as the tree.
-/

variable {lead gap text rest spelling : List UInt8} {tree : Tree}

/-- A key between its quotes, with blanks around. -/
inductive IsLabel : List UInt8 → List UInt8 → Prop
  | quoted {lead key gap : List UInt8} (isSpelling : IsSpelling key)
      (blankLead : lead.all isSpace = true) (blankGap : gap.all isSpace = true) :
      IsLabel (lead ++ 0x22 :: key ++ 0x22 :: gap) key

inductive Writes : Tree → List UInt8 → Prop
  | null : Writes .null [0x6E, 0x75, 0x6C, 0x6C]
  | true : Writes (.bool true) [0x74, 0x72, 0x75, 0x65]
  | false : Writes (.bool false) [0x66, 0x61, 0x6C, 0x73, 0x65]
  | number {spelling : List UInt8} (isNumber : IsNumber spelling) : Writes (.number spelling) spelling
  | string {spelling : List UInt8} (isSpelling : IsSpelling spelling) :
      Writes (.string spelling) (0x22 :: spelling ++ [0x22])
  | emptyArray {blanks : List UInt8} (blank : blanks.all isSpace = true) :
      Writes (.array []) (0x5B :: blanks ++ [0x5D])
  | array (items : List Item) (each : ∀ item ∈ items, Writes item.tree item.text) :
      Writes (.array (items.map Item.tree)) (writeArray (items.map Item.text))
  | emptyObject {blanks : List UInt8} (blank : blanks.all isSpace = true) :
      Writes (.object []) (0x7B :: blanks ++ [0x7D])
  | object (members : List Labelled) (labels : ∀ member ∈ members, IsLabel member.label member.key)
      (each : ∀ member ∈ members, Writes member.tree member.text) :
      Writes (.object (members.map Labelled.read))
        (0x7B :: commaSeparated (members.map Labelled.written) ++ [0x7D])
  | padded {lead text gap : List UInt8} {tree : Tree} (blankLead : lead.all isSpace = true)
      (blankGap : gap.all isSpace = true) (writes : Writes tree text) :
      Writes tree (lead ++ text ++ gap)

theorem IsLabel.labels {label key : List UInt8} (isLabel : IsLabel label key) : Labels label key := by
  cases isLabel with
  | quoted isSpelling blankLead blankGap => exact isSpelling.labels blankLead blankGap

theorem endsNumber_blanks (blank : gap.all isSpace = true) (ends : EndsNumber rest) :
    EndsNumber (gap ++ rest) := by
  cases gap with
  | nil => exact ends
  | cons byte gap =>
      simp only [List.all_cons, isSpace, Bool.and_eq_true, Bool.or_eq_true, decide_eq_true_eq] at blank
      rcases blank.1 with ((rfl | rfl) | rfl) | rfl <;>
        exact endsNumber_cons (by decide) (by decide) (by decide)

theorem Spells.padded (spells : Spells text tree) (blankLead : lead.all isSpace = true)
    (blankGap : gap.all isSpace = true) : Spells (lead ++ text ++ gap) tree := by
  obtain ⟨tokens, scanned, read⟩ := spells
  refine ⟨tokens, ?_, read⟩
  intro rest ends
  rw [List.append_assoc, List.append_assoc, tokens?_blanks blankLead,
    scanned _ (endsNumber_blanks blankGap ends), tokens?_blanks blankGap]

/-- A container that holds nothing but blanks is two tokens. -/
theorem tokens?_empty {opener closer : UInt8} {opening closing : Token} {blanks : List UInt8}
    (solidOpener : isSpace opener = false) (solidCloser : isSpace closer = false)
    (opens : ∀ rest, scanToken? (opener :: rest) = some (opening, rest))
    (closes : ∀ rest, scanToken? (closer :: rest) = some (closing, rest))
    (blank : blanks.all isSpace = true) :
    tokens? (opener :: blanks ++ [closer] ++ rest) =
      (tokens? rest).map ([opening, closing] ++ ·) := by
  have shape : opener :: blanks ++ [closer] ++ rest = opener :: (blanks ++ closer :: rest) := by simp
  rw [shape, tokens?_cons solidOpener (opens _), tokens?_blanks blank,
    tokens?_cons solidCloser (closes _), Option.map_map]
  rfl

theorem Writes.spells (writes : Writes tree text) : Spells text tree := by
  induction writes with
  | null => exact ⟨[.null], fun _ _ => tokens?_cons (by decide) rfl, fun _ => rfl⟩
  | true => exact ⟨[.bool .true], fun _ _ => tokens?_cons (by decide) rfl, fun _ => rfl⟩
  | false => exact ⟨[.bool .false], fun _ _ => tokens?_cons (by decide) rfl, fun _ => rfl⟩
  | number isNumber => exact isNumber.spells
  | string isSpelling => exact isSpelling.spells
  | emptyArray blank =>
      refine ⟨[.openArray, .closeArray], ?_, fun _ => rfl⟩
      intro rest _
      exact tokens?_empty (by decide) (by decide) (fun _ => rfl) (fun _ => rfl) blank
  | array items _ ih => exact spells_writeArray items ih
  | emptyObject blank =>
      refine ⟨[.openObject, .closeObject], ?_, fun _ => rfl⟩
      intro rest _
      exact tokens?_empty (by decide) (by decide) (fun _ => rfl) (fun _ => rfl) blank
  | object members labels _ ih =>
      exact spells_object members (fun member inside => (labels member inside).labels) ih
  | padded blankLead blankGap _ ih => exact ih.padded blankLead blankGap

theorem Writes.parse?_eq (writes : Writes tree text) : Tree.parse? text = some tree :=
  writes.spells.parse?_eq

/-! ### What is written compactly -/

theorem isLabel_writeString (name : String) : IsLabel (writeString name) (escape (utf8 name)) := by
  have nothing : ([] : List UInt8).all isSpace = true := rfl
  exact .quoted isSpelling_escape nothing nothing

theorem writes_writeString (text : String) :
    Writes (.string (escape (utf8 text))) (writeString text) := .string isSpelling_escape

/-! ### The parts of a text -/

theorem Writes.isSpelling (writes : Writes (.string spelling) text) : IsSpelling spelling := by
  generalize same : Tree.string spelling = tree at writes
  induction writes with
  | string isSpelling =>
      cases same
      exact isSpelling
  | padded _ _ _ ih => exact ih same
  | _ => contradiction

theorem Writes.exists_item {items : List Tree} {item : Tree} (writes : Writes (.array items) text)
    (inside : item ∈ items) : ∃ part, Writes item part := by
  generalize same : Tree.array items = tree at writes
  induction writes with
  | emptyArray _ =>
      cases same
      contradiction
  | array written each _ =>
      cases same
      obtain ⟨found, listed, rfl⟩ := List.mem_map.mp inside
      exact ⟨found.text, each found listed⟩
  | padded _ _ _ ih => exact ih same
  | _ => contradiction

theorem Writes.exists_member {members : List (List UInt8 × Tree)} {key : List UInt8} {value : Tree}
    (writes : Writes (.object members) text) (inside : (key, value) ∈ members) :
    ∃ part, Writes value part := by
  generalize same : Tree.object members = tree at writes
  induction writes with
  | emptyObject _ =>
      cases same
      contradiction
  | object written labels each _ =>
      cases same
      obtain ⟨found, listed, read⟩ := List.mem_map.mp inside
      cases read
      exact ⟨found.text, each found listed⟩
  | padded _ _ _ ih => exact ih same
  | _ => contradiction

end CheckRounds.Json
