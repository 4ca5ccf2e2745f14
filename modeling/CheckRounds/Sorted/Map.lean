import CheckRounds.Sorted.Set

namespace CheckRounds

/-! Finite maps kept as lists of entries in ascending key order.

Every key has at most one entry.  `get?` is the view that clients reason about;
two maps with the same answers to `get?` are the same value.
-/

structure SortedMap (κ : Type) (α : Type) [LT κ] where
  toList : List (κ × α)
  ascending : toList.Pairwise (fun left right => left.1 < right.1)
deriving DecidableEq

namespace SortedMap

variable {κ α β : Type} [LT κ]

def empty : SortedMap κ α := ⟨[], .nil⟩

instance : Inhabited (SortedMap κ α) := ⟨empty⟩

instance : EmptyCollection (SortedMap κ α) := ⟨empty⟩

def isEmpty (entries : SortedMap κ α) : Bool := entries.toList.isEmpty

def size (entries : SortedMap κ α) : Nat := entries.toList.length

def keys (entries : SortedMap κ α) : List κ := entries.toList.map (·.1)

def values (entries : SortedMap κ α) : List α := entries.toList.map (·.2)

theorem keys_ascending (entries : SortedMap κ α) : entries.keys.Pairwise (· < ·) :=
  List.pairwise_map.mpr entries.ascending

def lookup [DecidableEq κ] (key : κ) : List (κ × α) → Option α
  | [] => none
  | entry :: rest => if entry.1 = key then some entry.2 else lookup key rest

def get? [DecidableEq κ] (entries : SortedMap κ α) (key : κ) : Option α :=
  lookup key entries.toList

def contains [DecidableEq κ] (entries : SortedMap κ α) (key : κ) : Bool :=
  (entries.get? key).isSome

@[simp] theorem get?_empty [DecidableEq κ] (key : κ) :
    (empty : SortedMap κ α).get? key = none := rfl

omit [LT κ] in
theorem lookup_eq_none_iff [DecidableEq κ] {key : κ} {entries : List (κ × α)} :
    lookup key entries = none ↔ ∀ entry ∈ entries, entry.1 ≠ key := by
  induction entries with
  | nil => simp [lookup]
  | cons entry rest ih => by_cases same : entry.1 = key <;> simp [lookup, same, ih]

/-- Puts an entry at its place in an ascending list, replacing one of the same key. -/
def place [DecidableLT κ] [DecidableEq κ] (key : κ) (value : α) :
    List (κ × α) → List (κ × α)
  | [] => [(key, value)]
  | entry :: rest =>
      if key < entry.1 then (key, value) :: entry :: rest
      else if key = entry.1 then (key, value) :: rest
      else entry :: place key value rest

theorem mem_of_mem_place [DecidableLT κ] [DecidableEq κ] {key : κ} {value : α}
    {entries : List (κ × α)} {entry : κ × α} (found : entry ∈ place key value entries) :
    entry = (key, value) ∨ entry ∈ entries := by
  induction entries with
  | nil => simpa [place] using found
  | cons first rest ih =>
      unfold place at found
      split at found
      · simpa using found
      · split at found <;> grind

theorem lookup_place [DecidableLT κ] [DecidableEq κ] {key other : κ} {value : α} {entries : List (κ × α)} :
    lookup other (place key value entries) =
      if other = key then some value else lookup other entries := by
  induction entries with
  | nil => simp [place, lookup, eq_comm]
  | cons first rest ih =>
      unfold place
      split
      · simp [lookup, eq_comm]
      · split
        · next same =>
            subst same
            by_cases equal : other = first.1
            · simp [lookup, equal]
            · simp [lookup, equal, Ne.symm equal]
        · next different =>
            by_cases equal : first.1 = other
            · subst equal
              simp [lookup, Ne.symm different]
            · simp [lookup, equal, ih]

section Ordered

variable [DecidableLT κ] [DecidableEq κ] [LE κ] [Std.IsLinearOrder κ] [Std.LawfulOrderLT κ]

theorem place_ascending {key : κ} {value : α} {entries : List (κ × α)}
    (ascending : entries.Pairwise (fun left right => left.1 < right.1)) :
    (place key value entries).Pairwise (fun left right => left.1 < right.1) := by
  induction entries with
  | nil => simp [place]
  | cons first rest ih =>
      rw [List.pairwise_cons] at ascending
      unfold place
      split
      · next before =>
          refine List.pairwise_cons.mpr ⟨?_, List.pairwise_cons.mpr ascending⟩
          intro entry found
          rcases List.mem_cons.mp found with same | later
          · exact same ▸ before
          · exact Std.lt_trans before (ascending.1 entry later)
      · next notBefore =>
          split
          · next same => exact List.pairwise_cons.mpr ⟨fun entry found => same ▸ ascending.1 entry found, ascending.2⟩
          · next different =>
              refine List.pairwise_cons.mpr ⟨?_, ih ascending.2⟩
              intro entry found
              rcases mem_of_mem_place found with same | later
              · subst same
                rcases Std.lt_trichotomy key first.1 with before | same | after
                · exact absurd before notBefore
                · exact absurd same different
                · exact after
              · exact ascending.1 entry later

def insert (entries : SortedMap κ α) (key : κ) (value : α) : SortedMap κ α :=
  ⟨place key value entries.toList, place_ascending entries.ascending⟩

theorem get?_insert {entries : SortedMap κ α} {key other : κ} {value : α} :
    (entries.insert key value).get? other =
      if other = key then some value else entries.get? other := lookup_place

end Ordered

def erase [DecidableEq κ] (entries : SortedMap κ α) (key : κ) : SortedMap κ α :=
  ⟨entries.toList.filter (·.1 ≠ key), entries.ascending.filter _⟩

omit [LT κ] in
theorem lookup_filter_ne [DecidableEq κ] {entries : List (κ × α)} {key other : κ} :
    lookup other (entries.filter (·.1 ≠ key)) =
      if other = key then none else lookup other entries := by
  induction entries with
  | nil => simp [lookup]
  | cons first rest ih =>
      by_cases erased : first.1 = key
      · by_cases same : other = key <;> simp_all [lookup, eq_comm]
      · by_cases same : first.1 = other
        · subst same
          simp [lookup, erased]
        · simp_all [lookup]

theorem get?_erase [DecidableEq κ] {entries : SortedMap κ α} {key other : κ} :
    (entries.erase key).get? other = if other = key then none else entries.get? other :=
  lookup_filter_ne

def mapValues (change : κ → α → β) (entries : SortedMap κ α) : SortedMap κ β :=
  ⟨entries.toList.map fun entry => (entry.1, change entry.1 entry.2),
    List.pairwise_map.mpr entries.ascending⟩

omit [LT κ] in
theorem lookup_map [DecidableEq κ] {change : κ → α → β} {entries : List (κ × α)} {key : κ} :
    lookup key (entries.map fun entry => (entry.1, change entry.1 entry.2)) =
      (lookup key entries).map (change key) := by
  induction entries with
  | nil => rfl
  | cons first rest ih =>
      by_cases same : first.1 = key
      · subst same
        simp [lookup]
      · simp_all [lookup]

theorem get?_mapValues [DecidableEq κ] {change : κ → α → β} {entries : SortedMap κ α} {key : κ} :
    (entries.mapValues change).get? key = (entries.get? key).map (change key) := lookup_map

/-- Changes the value of one key; without that key nothing changes. -/
def modify [DecidableEq κ] (entries : SortedMap κ α) (key : κ) (change : α → α) : SortedMap κ α :=
  entries.mapValues fun other value => if other = key then change value else value

theorem get?_modify [DecidableEq κ] {entries : SortedMap κ α} {key other : κ} {change : α → α} :
    (entries.modify key change).get? other =
      if other = key then (entries.get? other).map change else entries.get? other := by
  unfold modify
  rw [get?_mapValues]
  by_cases same : other = key <;> simp [same]

theorem get?_eq_some_iff_mem [DecidableEq κ] [LE κ] [Std.IsLinearOrder κ] [Std.LawfulOrderLT κ]
    {entries : SortedMap κ α} {key : κ} {value : α} :
    entries.get? key = some value ↔ (key, value) ∈ entries.toList := by
  have ascending := entries.ascending
  unfold get?
  revert ascending
  generalize entries.toList = list
  intro ascending
  induction list with
  | nil => simp [lookup]
  | cons first rest ih =>
      rw [List.pairwise_cons] at ascending
      by_cases same : first.1 = key
      · subst same
        simp only [lookup, if_pos, List.mem_cons]
        constructor
        · intro found
          exact .inl (Prod.ext rfl (Option.some.inj found).symm)
        · rintro (equal | later)
          · exact congrArg some (congrArg Prod.snd equal).symm
          · exact absurd (ascending.1 _ later) Std.lt_irrefl
      · have different : (key, value) ≠ first := fun equal => same (equal ▸ rfl)
        simp [lookup, same, ih ascending.2, different]

theorem get?_isSome_iff_mem_keys [DecidableEq κ] {entries : SortedMap κ α} {key : κ} :
    (entries.get? key).isSome ↔ key ∈ entries.keys := by
  unfold get? keys
  generalize entries.toList = list
  induction list with
  | nil => simp [lookup]
  | cons first rest ih =>
      by_cases same : first.1 = key
      · simp [lookup, same]
      · rw [lookup, if_neg same, ih, List.map_cons, List.mem_cons]
        exact ⟨.inr, fun found => found.resolve_left (Ne.symm same)⟩

theorem keys_nodup [LE κ] [Std.IsLinearOrder κ] [Std.LawfulOrderLT κ] (entries : SortedMap κ α) :
    entries.keys.Nodup := by
  refine entries.keys_ascending.imp ?_
  rintro a b before rfl
  exact Std.lt_irrefl before

/-- Two maps with the same keys list them in the same way. -/
theorem keys_ext [LE κ] [Std.IsLinearOrder κ] [Std.LawfulOrderLT κ] {left : SortedMap κ α}
    {right : SortedMap κ β} (same : ∀ key, key ∈ left.keys ↔ key ∈ right.keys) :
    left.keys = right.keys := by
  refine List.Perm.eq_of_pairwise ?_ left.keys_ascending right.keys_ascending ?_
  · intro a b _ _ before after
    exact absurd (Std.lt_trans before after) Std.lt_irrefl
  · exact (List.perm_ext_iff_of_nodup left.keys_nodup right.keys_nodup).mpr same

/-- A map is determined by its answers. -/
theorem ext_get? [DecidableEq κ] [LE κ] [Std.IsLinearOrder κ] [Std.LawfulOrderLT κ]
    {left right : SortedMap κ α} (same : ∀ key, left.get? key = right.get? key) :
    left = right := by
  have members : ∀ entry, entry ∈ left.toList ↔ entry ∈ right.toList := by
    rintro ⟨key, value⟩
    rw [← get?_eq_some_iff_mem, ← get?_eq_some_iff_mem, same]
  have nodup : ∀ entries : SortedMap κ α, entries.toList.Nodup := by
    intro entries
    refine entries.ascending.imp ?_
    rintro a b before rfl
    exact Std.lt_irrefl before
  have equal : left.toList = right.toList := by
    refine List.Perm.eq_of_pairwise ?_ left.ascending right.ascending ?_
    · intro a b _ _ before after
      exact absurd (Std.lt_trans before after) Std.lt_irrefl
    · exact (List.perm_ext_iff_of_nodup (nodup left) (nodup right)).mpr members
  cases left
  cases right
  simpa using equal

theorem filterMap_get?_map_fst [DecidableEq κ] [LE κ] [Std.IsLinearOrder κ] [Std.LawfulOrderLT κ]
    {entries : SortedMap κ α} {some_entries : List (κ × α)}
    (inside : ∀ entry ∈ some_entries, entry ∈ entries.toList) :
    (some_entries.map (·.1)).filterMap entries.get? = some_entries.map (·.2) := by
  induction some_entries with
  | nil => rfl
  | cons entry rest ih =>
      have found : entries.get? entry.1 = some entry.2 :=
        get?_eq_some_iff_mem.mpr (inside entry List.mem_cons_self)
      rw [List.map_cons, List.filterMap_cons_some found, List.map_cons,
        ih fun entry member => inside entry (List.mem_cons_of_mem _ member)]

/-- To look up the elements of a set is to pick the entries whose keys are in it. -/
theorem filterMap_get?_toList [DecidableEq κ] [LE κ] [Std.IsLinearOrder κ] [Std.LawfulOrderLT κ]
    (entries : SortedMap κ α) (items : SortedSet κ) :
    items.toList.filterMap entries.get? =
      (entries.toList.filter fun entry => entry.1 ∈ items).map (·.2) := by
  have ascendingNodup : ∀ list : List κ, list.Pairwise (· < ·) → list.Nodup := by
    intro list ascending
    refine ascending.imp ?_
    rintro a b before rfl
    exact Std.lt_irrefl before
  have pickedAscending : ((entries.toList.filter fun entry => entry.1 ∈ items).map (·.1)).Pairwise
      (· < ·) := List.pairwise_map.mpr (entries.ascending.filter _)
  have foundAscending : (items.toList.filter fun key => (entries.get? key).isSome).Pairwise (· < ·) :=
    items.ascending.filter _
  have sameKeys : (items.toList.filter fun key => (entries.get? key).isSome) =
      (entries.toList.filter fun entry => entry.1 ∈ items).map (·.1) := by
    refine List.Perm.eq_of_pairwise ?_ foundAscending pickedAscending ?_
    · intro a b _ _ before after
      exact absurd (Std.lt_trans before after) Std.lt_irrefl
    · refine (List.perm_ext_iff_of_nodup (ascendingNodup _ foundAscending)
        (ascendingNodup _ pickedAscending)).mpr ?_
      intro key
      rw [List.mem_filter, get?_isSome_iff_mem_keys, keys, List.mem_map, List.mem_map]
      constructor
      · rintro ⟨member, entry, inside, rfl⟩
        exact ⟨entry, List.mem_filter.mpr ⟨inside, decide_eq_true member⟩, rfl⟩
      · rintro ⟨entry, inside, rfl⟩
        obtain ⟨inside, member⟩ := List.mem_filter.mp inside
        exact ⟨of_decide_eq_true member, entry, inside, rfl⟩
  have onlyFound : items.toList.filterMap entries.get? =
      (items.toList.filter fun key => (entries.get? key).isSome).filterMap entries.get? := by
    rw [List.filterMap_filter]
    congr 1
    funext key
    cases entries.get? key <;> rfl
  rw [onlyFound, sameKeys]
  refine filterMap_get?_map_fst ?_
  exact fun entry inside => (List.mem_filter.mp inside).1

end SortedMap

end CheckRounds
