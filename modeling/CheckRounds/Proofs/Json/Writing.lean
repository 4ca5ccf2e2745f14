import CheckRounds.Proofs.Json.Numbers
import CheckRounds.Proofs.Json.Strings

namespace CheckRounds.Json

/-! What is written is read back.

Text is said to spell a tree if it is read as that tree wherever a value is expected and
whatever follows, as long as what follows does not go on a number that ends the text.
Strings and integers spell themselves, and arrays and objects spell what their parts do.
-/

variable {rest : List UInt8} {byte : UInt8} {token : Token}

/-! ### Tokens -/

theorem tokens?_cons {after : List UInt8} (solid : isSpace byte = false)
    (found : scanToken? (byte :: rest) = some (token, after)) :
    tokens? (byte :: rest) = (tokens? after).map (token :: ·) := by
  rw [tokens?, if_neg (by simp [solid])]
  split
  · next failed =>
      rw [found] at failed
      contradiction
  · next other left foundOther =>
      rw [found, Option.some.injEq, Prod.mk.injEq] at foundOther
      obtain ⟨rfl, rfl⟩ := foundOther
      rfl

theorem tokens?_blanks {blanks : List UInt8} (blank : blanks.all isSpace = true) :
    tokens? (blanks ++ rest) = tokens? rest := by
  induction blanks with
  | nil => rfl
  | cons byte blanks ih =>
      rw [List.all_cons, Bool.and_eq_true] at blank
      rw [List.cons_append, tokens?, if_pos blank.1, ih blank.2]

theorem endsNumber_cons (notDigit : isDigit byte = false) (notPoint : byte ≠ 0x2E)
    (notLetter : byte ≠ 0x65 ∧ byte ≠ 0x45) : EndsNumber (byte :: rest) := by
  intro first same
  cases same
  exact ⟨notDigit, notPoint, notLetter⟩

theorem IsSpelling.tokens?_quoted {spelling : List UInt8} (spells : IsSpelling spelling) :
    tokens? (0x22 :: (spelling ++ 0x22 :: rest)) = (tokens? rest).map (.string spelling :: ·) := by
  refine tokens?_cons (by decide) ?_
  rw [scanToken?, spells.scanString_eq]
  rfl

/-- The bytes that a number starts with start nothing else. -/
theorem scanToken?_of_numeric (numeric : IsNumeric byte) :
    scanToken? (byte :: rest) =
      (scanNumber? (byte :: rest)).map fun found => (.number found.1, found.2) := by
  unfold scanToken?
  split
  case h_11 => rfl
  all_goals
    next shape =>
      cases shape
      exact absurd numeric (by decide)

theorem isSpace_of_numeric (numeric : IsNumeric byte) : isSpace byte = false := by
  rw [Bool.eq_false_iff]
  intro space
  simp only [isSpace, Bool.or_eq_true, decide_eq_true_eq] at space
  rcases space with ((rfl | rfl) | rfl) | rfl <;> exact absurd numeric (by decide)

theorem IsNumber.tokens?_append {spelling : List UInt8} (isNumber : IsNumber spelling)
    (ends : EndsNumber rest) :
    tokens? (spelling ++ rest) = (tokens? rest).map (.number spelling :: ·) := by
  obtain ⟨first, others, rfl, numeric⟩ := isNumber.eq_cons
  have scanned := isNumber.scanNumber?_eq ends
  rw [List.cons_append] at scanned ⊢
  refine tokens?_cons (isSpace_of_numeric numeric) ?_
  rw [scanToken?_of_numeric numeric, scanned]
  rfl

/-! ### Values -/

/-- What some bytes are read as, wherever a value is expected. -/
def Spells (text : List UInt8) (tree : Tree) : Prop :=
  ∃ tokens, (∀ rest, EndsNumber rest → tokens? (text ++ rest) = (tokens? rest).map (tokens ++ ·)) ∧
    ∀ stack, tokens.foldlM Reading.step? (.needsValue stack) = some (.finish tree stack)

theorem IsSpelling.spells {spelling : List UInt8} (isSpelling : IsSpelling spelling) :
    Spells (0x22 :: spelling ++ [0x22]) (.string spelling) := by
  refine ⟨[.string spelling], ?_, fun _ => rfl⟩
  intro rest _
  rw [List.cons_append, List.cons_append, List.append_assoc]
  exact isSpelling.tokens?_quoted

theorem IsNumber.spells {spelling : List UInt8} (isNumber : IsNumber spelling) :
    Spells spelling (.number spelling) :=
  ⟨[.number spelling], fun _ ends => isNumber.tokens?_append ends, fun _ => rfl⟩

theorem Spells.parse?_eq {text : List UInt8} {tree : Tree} (spells : Spells text tree) :
    Tree.parse? text = some tree := by
  obtain ⟨tokens, scanned, read⟩ := spells
  have all := scanned [] endsNumber_nil
  have nothing : tokens? [] = some [] := by rw [tokens?]
  rw [List.append_nil, nothing, Option.map_some, List.append_nil] at all
  rw [Tree.parse?, all, Option.bind_some, Tree.ofTokens?, read []]
  rfl

theorem foldlM_append_eq {first second : List Token} {reading between : Reading}
    (read : first.foldlM Reading.step? reading = some between) :
    (first ++ second).foldlM Reading.step? reading = second.foldlM Reading.step? between := by
  rw [List.foldlM_append, read]
  rfl

/-! ### Arrays -/

/-- The first item of an array is read like any other. -/
theorem foldlM_needsFirstItem {tokens : List Token} {stack : List Container} {reading : Reading}
    (some_tokens : tokens ≠ [])
    (read : tokens.foldlM Reading.step? (.needsValue (.array [] :: stack)) = some reading) :
    tokens.foldlM Reading.step? (.needsFirstItem stack) = some reading := by
  cases tokens with
  | nil => exact absurd rfl some_tokens
  | cons token tokens =>
      rw [List.foldlM_cons] at read ⊢
      cases token with
      | closeArray => contradiction
      | _ => exact read

/-- An item of an array or an element of a list of texts, with what it spells. -/
structure Item where
  text : List UInt8
  tree : Tree

theorem exists_tokens_items (first : Item) (others : List Item)
    (spells : ∀ item ∈ first :: others, Spells item.text item.tree) :
    ∃ tokens, tokens ≠ [] ∧
      (∀ rest, tokens? (commaSeparated ((first :: others).map Item.text) ++ 0x5D :: rest) =
        (tokens? rest).map (tokens ++ ·)) ∧
      ∀ items stack, tokens.foldlM Reading.step? (.needsValue (.array items :: stack)) =
        some (.finish (.array (items.reverse ++ (first :: others).map Item.tree)) stack) := by
  induction others generalizing first with
  | nil =>
      obtain ⟨tokens, scanned, read⟩ := spells first List.mem_cons_self
      refine ⟨tokens ++ [.closeArray], by simp, ?_, ?_⟩
      · intro rest
        have ends : EndsNumber (0x5D :: rest) :=
          endsNumber_cons (by decide) (by decide) (by decide)
        have close : tokens? (0x5D :: rest) = (tokens? rest).map (.closeArray :: ·) :=
          tokens?_cons (by decide) rfl
        rw [List.map_cons, List.map_nil, commaSeparated, scanned _ ends, close, Option.map_map]
        simp [Function.comp_def]
      · intro items stack
        rw [foldlM_append_eq (read _)]
        simp [Reading.finish, Reading.step?]
  | cons second others ih =>
      obtain ⟨tokens, scanned, read⟩ := spells first List.mem_cons_self
      obtain ⟨tokensRest, _, scannedRest, readRest⟩ :=
        ih second fun item member => spells item (List.mem_cons_of_mem _ member)
      refine ⟨tokens ++ .comma :: tokensRest, by simp, ?_, ?_⟩
      · intro rest
        have ends : ∀ rest, EndsNumber (0x2C :: rest) :=
          fun _ => endsNumber_cons (by decide) (by decide) (by decide)
        have comma : ∀ rest, tokens? (0x2C :: rest) = (tokens? rest).map (.comma :: ·) :=
          fun _ => tokens?_cons (by decide) rfl
        have shape : commaSeparated ((first :: second :: others).map Item.text) ++ 0x5D :: rest =
            first.text ++ 0x2C ::
              (commaSeparated ((second :: others).map Item.text) ++ 0x5D :: rest) := by
          simp [commaSeparated]
        rw [shape, scanned _ (ends _), comma, scannedRest, Option.map_map, Option.map_map]
        simp [Function.comp_def]
      · intro items stack
        rw [foldlM_append_eq (read _), List.foldlM_cons]
        refine (readRest (first.tree :: items) stack).trans ?_
        simp

theorem spells_writeArray (items : List Item) (spells : ∀ item ∈ items, Spells item.text item.tree) :
    Spells (writeArray (items.map Item.text)) (.array (items.map Item.tree)) := by
  have opening : ∀ rest, tokens? (0x5B :: rest) = (tokens? rest).map (.openArray :: ·) :=
    fun _ => tokens?_cons (by decide) rfl
  cases items with
  | nil =>
      refine ⟨[.openArray, .closeArray], ?_, fun _ => rfl⟩
      intro rest _
      have close : tokens? (0x5D :: rest) = (tokens? rest).map (.closeArray :: ·) :=
        tokens?_cons (by decide) rfl
      have shape : writeArray ([].map Item.text) ++ rest = 0x5B :: 0x5D :: rest := rfl
      rw [shape, opening, close, Option.map_map]
      rfl
  | cons first others =>
      obtain ⟨tokens, some_tokens, scanned, read⟩ := exists_tokens_items first others spells
      refine ⟨.openArray :: tokens, ?_, ?_⟩
      · intro rest _
        have shape : writeArray ((first :: others).map Item.text) ++ rest =
            0x5B :: (commaSeparated ((first :: others).map Item.text) ++ 0x5D :: rest) := by
          simp [writeArray]
        rw [shape, opening, scanned, Option.map_map]
        rfl
      · intro stack
        exact foldlM_needsFirstItem some_tokens (read [] stack)

/-! ### Objects -/

/-- A member of an object as it stands in the text: what is in front of the colon with the key
that it spells, and the value with the tree that it spells. -/
structure Labelled where
  label : List UInt8
  key : List UInt8
  text : List UInt8
  tree : Tree

namespace Labelled

def written (member : Labelled) : List UInt8 := member.label ++ 0x3A :: member.text

def read (member : Labelled) : List UInt8 × Tree := (member.key, member.tree)

end Labelled

/-- What the bytes in front of a colon are read as. -/
def Labels (label key : List UInt8) : Prop :=
  ∀ rest, tokens? (label ++ 0x3A :: rest) =
    (tokens? rest).map fun tokens => .string key :: .colon :: tokens

theorem IsSpelling.labels {lead key gap : List UInt8} (isSpelling : IsSpelling key)
    (blankLead : lead.all isSpace = true) (blankGap : gap.all isSpace = true) :
    Labels (lead ++ 0x22 :: key ++ 0x22 :: gap) key := by
  intro rest
  have colon : tokens? (0x3A :: rest) = (tokens? rest).map (.colon :: ·) := tokens?_cons (by decide) rfl
  have shape : lead ++ 0x22 :: key ++ 0x22 :: gap ++ 0x3A :: rest =
      lead ++ 0x22 :: (key ++ 0x22 :: (gap ++ 0x3A :: rest)) := by
    simp
  rw [shape, tokens?_blanks blankLead, isSpelling.tokens?_quoted, tokens?_blanks blankGap, colon,
    Option.map_map]
  rfl

theorem Labels.tokens?_written {member : Labelled} (labels : Labels member.label member.key)
    (rest : List UInt8) : tokens? (member.written ++ rest) =
      (tokens? (member.text ++ rest)).map fun tokens => .string member.key :: .colon :: tokens := by
  have shape : member.written ++ rest = member.label ++ 0x3A :: (member.text ++ rest) := by
    simp [Labelled.written]
  rw [shape, labels]

/-- The first key is asked for in another way than those after it, but read alike. -/
theorem exists_tokens_members (first : Labelled) (others : List Labelled)
    (labels : ∀ member ∈ first :: others, Labels member.label member.key)
    (spells : ∀ member ∈ first :: others, Spells member.text member.tree) :
    ∃ tokens, (∀ rest,
        tokens? (commaSeparated ((first :: others).map Labelled.written) ++ 0x7D :: rest) =
          (tokens? rest).map (tokens ++ ·)) ∧
      ∀ reading members stack,
        (∀ key, Reading.step? reading (.string key) = some (.needsColon members key stack)) →
        tokens.foldlM Reading.step? reading =
          some (.finish (.object (members.reverse ++ (first :: others).map Labelled.read)) stack) := by
  induction others generalizing first with
  | nil =>
      have labelsFirst := labels first List.mem_cons_self
      obtain ⟨tokens, scanned, read⟩ := spells first List.mem_cons_self
      refine ⟨.string first.key :: .colon :: (tokens ++ [.closeObject]), ?_, ?_⟩
      · intro rest
        have ends : EndsNumber (0x7D :: rest) :=
          endsNumber_cons (by decide) (by decide) (by decide)
        have close : tokens? (0x7D :: rest) = (tokens? rest).map (.closeObject :: ·) :=
          tokens?_cons (by decide) rfl
        rw [List.map_cons, List.map_nil, commaSeparated, labelsFirst.tokens?_written, scanned _ ends,
          close, Option.map_map, Option.map_map]
        simp [Function.comp_def]
      · intro reading members stack takesKey
        rw [List.foldlM_cons, takesKey]
        refine (foldlM_append_eq (read (.object members first.key :: stack))).trans ?_
        simp [Reading.finish, Reading.step?, Labelled.read]
  | cons second others ih =>
      have labelsFirst := labels first List.mem_cons_self
      obtain ⟨tokens, scanned, read⟩ := spells first List.mem_cons_self
      obtain ⟨tokensRest, scannedRest, readRest⟩ :=
        ih second (fun member inside => labels member (List.mem_cons_of_mem _ inside))
          fun member inside => spells member (List.mem_cons_of_mem _ inside)
      refine ⟨.string first.key :: .colon :: (tokens ++ .comma :: tokensRest), ?_, ?_⟩
      · intro rest
        have ends : ∀ rest, EndsNumber (0x2C :: rest) :=
          fun _ => endsNumber_cons (by decide) (by decide) (by decide)
        have comma : ∀ rest, tokens? (0x2C :: rest) = (tokens? rest).map (.comma :: ·) :=
          fun _ => tokens?_cons (by decide) rfl
        have shape : commaSeparated ((first :: second :: others).map Labelled.written) ++ 0x7D :: rest =
            first.written ++ 0x2C ::
              (commaSeparated ((second :: others).map Labelled.written) ++ 0x7D :: rest) := by
          simp [commaSeparated]
        rw [shape, labelsFirst.tokens?_written, scanned _ (ends _), comma, scannedRest, Option.map_map,
          Option.map_map, Option.map_map]
        simp [Function.comp_def]
      · intro reading members stack takesKey
        rw [List.foldlM_cons, takesKey]
        refine (foldlM_append_eq (read (.object members first.key :: stack))).trans ?_
        have next := readRest (.needsKey (first.read :: members) stack) (first.read :: members) stack
          fun _ => rfl
        refine next.trans ?_
        simp

theorem spells_object (members : List Labelled)
    (labels : ∀ member ∈ members, Labels member.label member.key)
    (spells : ∀ member ∈ members, Spells member.text member.tree) :
    Spells (0x7B :: commaSeparated (members.map Labelled.written) ++ [0x7D])
      (.object (members.map Labelled.read)) := by
  have opening : ∀ rest, tokens? (0x7B :: rest) = (tokens? rest).map (.openObject :: ·) :=
    fun _ => tokens?_cons (by decide) rfl
  cases members with
  | nil =>
      refine ⟨[.openObject, .closeObject], ?_, fun _ => rfl⟩
      intro rest _
      have close : tokens? (0x7D :: rest) = (tokens? rest).map (.closeObject :: ·) :=
        tokens?_cons (by decide) rfl
      have shape : 0x7B :: commaSeparated (([] : List Labelled).map Labelled.written) ++ [0x7D] ++ rest =
          0x7B :: 0x7D :: rest := rfl
      rw [shape, opening, close, Option.map_map]
      rfl
  | cons first others =>
      obtain ⟨tokens, scanned, read⟩ := exists_tokens_members first others labels spells
      refine ⟨.openObject :: tokens, ?_, ?_⟩
      · intro rest _
        have shape : 0x7B :: commaSeparated ((first :: others).map Labelled.written) ++ [0x7D] ++ rest =
            0x7B :: (commaSeparated ((first :: others).map Labelled.written) ++ 0x7D :: rest) := by
          simp
        rw [shape, opening, scanned, Option.map_map]
        rfl
      · intro stack
        exact read (.needsFirstKey stack) [] stack fun _ => rfl

/-! ### Objects that are written -/

/-- A member of an object, with what it spells. -/
structure Member where
  name : String
  text : List UInt8
  tree : Tree

namespace Member

def written (member : Member) : String × List UInt8 := (member.name, member.text)

def read (member : Member) : List UInt8 × Tree := (escape (utf8 member.name), member.tree)

def ofText (name value : String) : Member :=
  ⟨name, writeString value, .string (escape (utf8 value))⟩

def ofInt (name : String) (value : Int) : Member := ⟨name, writeInt value, .number (writeInt value)⟩

theorem spells_ofText {name value : String} : Spells (ofText name value).text (ofText name value).tree :=
  isSpelling_escape.spells

theorem spells_ofInt {name : String} {value : Int} :
    Spells (ofInt name value).text (ofInt name value).tree := (isNumber_writeInt value).spells

def field (member : Member) : String × Tree := (member.name, member.tree)

theorem field_ofText (name value : String) :
    (ofText name value).field = (name, (ofText name value).tree) := rfl

theorem field_ofInt (name : String) (value : Int) :
    (ofInt name value).field = (name, (ofInt name value).tree) := rfl

theorem text?_ofText (name value : String) : (ofText name value).tree.text? = some value :=
  decodeString?_escape value

theorem integer?_ofInt (name : String) {value : Int} (fits : value.natAbs < wordLimit) :
    (ofInt name value).tree.integer? = some value := integer?_writeInt fits

/-- An object that was written with distinct known names has its members as fields. -/
theorem fields?_written {names : List String} {members : List Member} (required : Nat)
    (known : ∀ member ∈ members, member.name ∈ names)
    (distinct : (members.map Member.name).Nodup) :
    Tree.fields? names required (.object (members.map Member.read)) = some (members.map field) := by
  have named : (members.map Member.read).mapM (fun member =>
      (decodeString? member.1).map (·, member.2)) = some (members.map field) := by
    clear known distinct
    induction members with
    | nil => rfl
    | cons member rest ih =>
        rw [List.map_cons, List.mapM_cons, ih, Member.read, decodeString?_escape]
        rfl
  have all : (members.map field).filter (fun member => names.contains member.1) =
      members.map field := by
    rw [List.filter_eq_self]
    intro entry inside
    obtain ⟨member, listed, rfl⟩ := List.mem_map.mp inside
    exact List.contains_iff_mem.mpr (known member listed)
  have sameNames : (members.map field).map (·.1) = members.map Member.name := by
    rw [List.map_map]
    rfl
  rw [Tree.fields?, named]
  simp only [Option.bind_eq_bind, Option.bind_some, all, sameNames, if_pos distinct]

end Member

/-- The text of a member in its place. -/
def memberText (member : String × List UInt8) : List UInt8 := writeString member.1 ++ 0x3A :: member.2

theorem writeObject_eq (members : List (String × List UInt8)) :
    writeObject members = 0x7B :: commaSeparated (members.map memberText) ++ [0x7D] := rfl

theorem labels_writeString (name : String) : Labels (writeString name) (escape (utf8 name)) := by
  have nothing : ([] : List UInt8).all isSpace = true := rfl
  exact isSpelling_escape.labels nothing nothing

theorem spells_writeObject (members : List Member)
    (spells : ∀ member ∈ members, Spells member.text member.tree) :
    Spells (writeObject (members.map Member.written)) (.object (members.map Member.read)) := by
  let labelled (member : Member) : Labelled :=
    ⟨writeString member.name, escape (utf8 member.name), member.text, member.tree⟩
  have written : (members.map Member.written).map memberText =
      (members.map labelled).map Labelled.written := by
    rw [List.map_map, List.map_map]
    rfl
  have read : members.map Member.read = (members.map labelled).map Labelled.read := by
    rw [List.map_map]
    rfl
  rw [writeObject_eq, written, read]
  refine spells_object (members.map labelled) ?_ ?_
  · exact List.forall_mem_map.mpr fun member _ => labels_writeString member.name
  · exact List.forall_mem_map.mpr spells

end CheckRounds.Json
