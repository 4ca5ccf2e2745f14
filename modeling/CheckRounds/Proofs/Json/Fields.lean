import CheckRounds.Proofs.Json.Characters
import CheckRounds.Proofs.Json.Grammar
import Mathlib.Data.List.Forall2

namespace CheckRounds.Json

/-! The fields of records: which ones an object has, whatever spells their names, and that they
are found by name.
-/

variable {names : List String} {name : String} {value tree : Tree} {fields : List (String × Tree)}
  {required : Nat}

/-- An object has some fields, in this order.  No known name comes twice. -/
structure HasFields (names : List String) (tree : Tree) (fields : List (String × Tree)) : Prop where
  members : ∃ members, tree = .object members ∧
    List.Forall₂ (fun member field => SpellsText member.1 field.1.toList ∧ member.2 = field.2)
      members fields
  distinct : ((fields.map Prod.fst).filter names.contains).Nodup

def knownFields (names : List String) (fields : List (String × Tree)) : List (String × Tree) :=
  fields.filter fun field => names.contains field.1

/-- A record has a field: under a key that spells its name, or at its place in an array. -/
inductive HasField (names : List String) (name : String) (value : Tree) : Tree → Prop
  | member {key : List UInt8} {members : List (List UInt8 × Tree)} (inside : (key, value) ∈ members)
      (spells : SpellsText key name.toList) : HasField names name value (.object members)
  | item {items : List Tree} (inside : (name, value) ∈ names.zip items) :
      HasField names name value (.array items)

/-! ### Lists by their keys -/

theorem lookup_eq_some_of_mem (distinct : (fields.map Prod.fst).Nodup)
    (inside : (name, value) ∈ fields) : fields.lookup name = some value := by
  induction fields with
  | nil => contradiction
  | cons field fields ih =>
      rw [List.map_cons, List.nodup_cons] at distinct
      rw [List.lookup_cons]
      rcases List.mem_cons.mp inside with rfl | later
      · simp
      · have other : name ≠ field.1 := by
          rintro rfl
          exact distinct.1 (List.mem_map.mpr ⟨_, later, rfl⟩)
        rw [beq_eq_false_iff_ne.mpr other]
        exact ih distinct.2 later

theorem map_fst_zip_sublist {α β : Type} (keys : List α) (values : List β) :
    ((keys.zip values).map Prod.fst).Sublist keys := by
  induction keys generalizing values with
  | nil => exact List.nil_sublist _
  | cons key keys ih =>
      cases values with
      | nil => exact List.nil_sublist _
      | cons value values => exact (ih values).cons_cons key

theorem mem_of_mapM {α β : Type} {read? : α → Option β} {values : List α} {found : List β} {value : α}
    {result : β} (all : values.mapM read? = some found) (inside : value ∈ values)
    (one : read? value = some result) : result ∈ found := by
  induction values generalizing found with
  | nil => contradiction
  | cons first values ih =>
      simp only [List.mapM_cons, Option.pure_def, Option.bind_eq_bind, Option.bind_eq_some_iff,
        Option.some.injEq] at all
      obtain ⟨head, readFirst, tail, readRest, rfl⟩ := all
      rcases List.mem_cons.mp inside with rfl | later
      · cases readFirst.symm.trans one
        exact List.mem_cons_self
      · exact List.mem_cons_of_mem _ (ih readRest later)

/-! ### Reading fields -/

theorem HasFields.fields?_eq (has : HasFields names tree fields) (required : Nat) :
    tree.fields? names required = some (knownFields names fields) := by
  obtain ⟨⟨members, rfl, each⟩, distinct⟩ := has
  have named : members.mapM (fun member => (decodeString? member.1).map (·, member.2)) =
      some fields := by
    clear distinct
    induction each with
    | nil => rfl
    | cons first _ ih =>
        rw [List.mapM_cons, ih, first.1.decodeString?_eq, first.2]
        rfl
  rw [List.filter_map] at distinct
  rw [Tree.fields?, named]
  simp only [Option.bind_eq_bind, Option.bind_some]
  exact if_pos distinct

theorem HasFields.lookup_eq_some (has : HasFields names tree fields) (known : name ∈ names)
    (inside : (name, value) ∈ fields) : (knownFields names fields).lookup name = some value := by
  have distinct := has.distinct
  rw [List.filter_map] at distinct
  apply lookup_eq_some_of_mem distinct
  exact List.mem_filter.mpr ⟨inside, List.contains_iff_mem.mpr known⟩

theorem lookup_knownFields_eq_none (absent : ∀ value, (name, value) ∉ fields) :
    (knownFields names fields).lookup name = none := by
  rw [List.lookup_eq_none_iff]
  intro field inside
  rw [bne_iff_ne]
  rintro rfl
  exact absent field.2 (List.mem_filter.mp inside).1

/-- If the fields are read at all, every field that is there is found. -/
theorem HasField.lookup_eq_some (has : HasField names name value tree) (nodup : names.Nodup)
    (known : name ∈ names) (read : tree.fields? names required = some fields) :
    fields.lookup name = some value := by
  cases has with
  | @member key members inside spells =>
      simp only [Tree.fields?, Option.bind_eq_bind, Option.bind_eq_some_iff] at read
      obtain ⟨named, decoded, read⟩ := read
      split at read
      · next distinct =>
          cases read
          apply lookup_eq_some_of_mem distinct
          rw [List.mem_filter]
          refine ⟨mem_of_mapM decoded inside ?_, List.contains_iff_mem.mpr known⟩
          rw [spells.decodeString?_eq]
          rfl
      · contradiction
  | @item items inside =>
      rw [Tree.fields?] at read
      split at read
      · cases read
        exact lookup_eq_some_of_mem ((map_fst_zip_sublist names items).nodup nodup) inside
      · contradiction

theorem HasField.exists_text {text : List UInt8} (has : HasField names name value tree)
    (writes : Writes tree text) : ∃ part, Writes value part := by
  cases has with
  | member inside _ => exact writes.exists_member inside
  | item inside => exact writes.exists_item (List.of_mem_zip inside).2

end CheckRounds.Json
