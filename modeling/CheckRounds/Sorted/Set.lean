namespace CheckRounds

/-! Finite sets kept as ascending lists.

The list is the whole content: it has no repetition and lists its elements in
order, so two sets with the same elements are the same value.
-/

structure SortedSet (α : Type) [LT α] where
  toList : List α
  ascending : toList.Pairwise (· < ·)
deriving DecidableEq

namespace SortedSet

variable {α : Type} [LT α]

def empty : SortedSet α := ⟨[], .nil⟩

instance : Inhabited (SortedSet α) := ⟨empty⟩

instance : EmptyCollection (SortedSet α) := ⟨empty⟩

instance : Membership α (SortedSet α) := ⟨fun items item => item ∈ items.toList⟩

theorem mem_def {items : SortedSet α} {item : α} :
    item ∈ items ↔ item ∈ items.toList := Iff.rfl

theorem not_mem_empty (item : α) : item ∉ (empty : SortedSet α) := List.not_mem_nil

instance [DecidableEq α] (item : α) (items : SortedSet α) : Decidable (item ∈ items) :=
  inferInstanceAs (Decidable (item ∈ items.toList))

def isEmpty (items : SortedSet α) : Bool := items.toList.isEmpty

theorem isEmpty_iff {items : SortedSet α} :
    items.isEmpty = true ↔ ∀ item, item ∉ items := by
  simp only [isEmpty, List.isEmpty_iff, mem_def]
  constructor
  · intro noItems item
    simp [noItems]
  · exact List.eq_nil_iff_forall_not_mem.mpr

def size (items : SortedSet α) : Nat := items.toList.length

/-- Puts an item at its place in an ascending list, unless it is there. -/
def place [DecidableLT α] [DecidableEq α] (item : α) : List α → List α
  | [] => [item]
  | first :: rest =>
      if item < first then item :: first :: rest
      else if item = first then first :: rest
      else first :: place item rest

theorem mem_place [DecidableLT α] [DecidableEq α] {item other : α} {items : List α} :
    other ∈ place item items ↔ other = item ∨ other ∈ items := by
  induction items with
  | nil => simp [place]
  | cons first rest ih =>
      unfold place
      split
      · simp
      · split
        · next same => simp [same]
        · simp only [List.mem_cons, ih]
          grind

section Ordered

variable [DecidableLT α] [DecidableEq α] [LE α] [Std.IsLinearOrder α] [Std.LawfulOrderLT α]

theorem place_ascending {item : α} {items : List α}
    (ascending : items.Pairwise (· < ·)) : (place item items).Pairwise (· < ·) := by
  induction items with
  | nil => simp [place]
  | cons first rest ih =>
      rw [List.pairwise_cons] at ascending
      unfold place
      split
      · next before =>
          refine List.pairwise_cons.mpr ⟨?_, List.pairwise_cons.mpr ascending⟩
          intro other found
          rcases List.mem_cons.mp found with same | later
          · exact same ▸ before
          · exact Std.lt_trans before (ascending.1 other later)
      · next notBefore =>
          split
          · exact List.pairwise_cons.mpr ascending
          · next different =>
              refine List.pairwise_cons.mpr ⟨?_, ih ascending.2⟩
              intro other found
              rcases mem_place.mp found with same | later
              · subst same
                rcases Std.lt_trichotomy other first with before | same | after
                · exact absurd before notBefore
                · exact absurd same different
                · exact after
              · exact ascending.1 other later

def insert (items : SortedSet α) (item : α) : SortedSet α :=
  ⟨place item items.toList, place_ascending items.ascending⟩

theorem mem_insert {items : SortedSet α} {item other : α} :
    other ∈ items.insert item ↔ other = item ∨ other ∈ items := mem_place

def ofList (items : List α) : SortedSet α := items.foldl insert empty

theorem mem_foldl_insert {items : List α} {start : SortedSet α} {other : α} :
    other ∈ items.foldl insert start ↔ other ∈ items ∨ other ∈ start := by
  induction items generalizing start with
  | nil => simp
  | cons first rest ih => simp only [List.foldl_cons, ih, mem_insert, List.mem_cons]; grind

theorem mem_ofList {items : List α} {other : α} : other ∈ ofList items ↔ other ∈ items := by
  simp [ofList, mem_foldl_insert, not_mem_empty]

end Ordered

def erase [DecidableEq α] (items : SortedSet α) (item : α) : SortedSet α :=
  ⟨items.toList.filter (· ≠ item), items.ascending.filter _⟩

theorem mem_erase [DecidableEq α] {items : SortedSet α} {item other : α} :
    other ∈ items.erase item ↔ other ∈ items ∧ other ≠ item := by
  simp [erase, mem_def]

end SortedSet

end CheckRounds
