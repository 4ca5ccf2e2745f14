import CheckRounds.Schedule.Timers
import Mathlib.Logic.Basic
import Mathlib.Tactic.ByContra

namespace CheckRounds.Schedule

/-! Which delays are in use at a bucket, and what the events tell about it.

A change adds or removes one pair of a delay and an item.  The bucket tells `start` of a
delay that was not in use before and is afterwards, `cancel` of one that ceased to be, and
nothing else.
-/

section Pairs

variable {α : Type}

/-- What is held after a change, where `held` was held before it. -/
def Change.after (held : Nat → α → Prop) : Change α → Nat → α → Prop
  | .insert delay item => fun other thing => (other = delay ∧ thing = item) ∨ held other thing
  | .delete delay item => fun other thing => held other thing ∧ ¬(other = delay ∧ thing = item)

def Change.afterAll (held : Nat → α → Prop) (changes : List (Change α)) : Nat → α → Prop :=
  changes.foldl Change.after held

@[simp] theorem Change.afterAll_nil (held : Nat → α → Prop) : Change.afterAll held [] = held := rfl

@[simp] theorem Change.afterAll_cons (held : Nat → α → Prop) (change : Change α)
    (rest : List (Change α)) :
    Change.afterAll held (change :: rest) = Change.afterAll (change.after held) rest := rfl

theorem Change.afterAll_append (held : Nat → α → Prop) (first second : List (Change α)) :
    Change.afterAll held (first ++ second) =
      Change.afterAll (Change.afterAll held first) second := List.foldl_append

/-- The delays in use after an event, where `used` were in use before it. -/
def Event.after (used : Nat → Prop) : Event → Nat → Prop
  | .start delay => fun other => other = delay ∨ used other
  | .cancel delay => fun other => used other ∧ other ≠ delay

def Event.afterAll (used : Nat → Prop) (events : List Event) : Nat → Prop :=
  events.foldl Event.after used

theorem Event.afterAll_append (used : Nat → Prop) (first second : List Event) :
    Event.afterAll used (first ++ second) = Event.afterAll (Event.afterAll used first) second :=
  List.foldl_append

/-- At most one event tells all that changed about the delays in use. -/
structure Tells (told : Option Event) (before after : Nat → Prop) : Prop where
  start : ∀ delay, told = some (.start delay) ↔ ¬before delay ∧ after delay
  cancel : ∀ delay, told = some (.cancel delay) ↔ before delay ∧ ¬after delay

theorem Tells.refl (used : Nat → Prop) : Tells none used used :=
  ⟨fun _ => ⟨fun told => by contradiction, fun changed => absurd changed.2 changed.1⟩,
    fun _ => ⟨fun told => by contradiction, fun changed => absurd changed.1 changed.2⟩⟩

theorem Tells.after_eq {told : Option Event} {before after : Nat → Prop}
    (tells : Tells told before after) : after = Event.afterAll before told.toList := by
  funext delay
  apply propext
  have started := tells.start delay
  have cancelled := tells.cancel delay
  cases told with
  | none =>
      simp only [reduceCtorEq, false_iff, not_and, not_not] at started cancelled
      simp only [Option.toList, Event.afterAll, List.foldl_nil]
      exact ⟨fun used => by_contra fun unused => started unused used, cancelled⟩
  | some event =>
      cases event with
      | start begun =>
          simp only [Option.some.injEq, reduceCtorEq, Event.start.injEq, false_iff, not_and,
            not_not] at started cancelled
          simp only [Option.toList, Event.afterAll, List.foldl_cons, List.foldl_nil, Event.after]
          constructor
          · intro used
            by_cases earlier : before delay
            · exact .inr earlier
            · exact .inl (started.mpr ⟨earlier, used⟩).symm
          · rintro (rfl | used)
            · exact (started.mp rfl).2
            · exact cancelled used
      | cancel ended =>
          simp only [Option.some.injEq, reduceCtorEq, Event.cancel.injEq, false_iff, not_and]
            at started cancelled
          simp only [Option.toList, Event.afterAll, List.foldl_cons, List.foldl_nil, Event.after]
          constructor
          · intro used
            refine ⟨by_contra fun unused => started unused used, ?_⟩
            rintro rfl
            exact (cancelled.mp rfl).2 used
          · rintro ⟨used, different⟩
            by_contra unused
            exact different (cancelled.mpr ⟨used, unused⟩).symm

end Pairs

namespace Bucket

variable {α : Type} [LT α]

def Uses (bucket : Bucket α) (delay : Nat) : Prop := ∃ item, bucket.Holds delay item

/-- No delay is kept without an item. -/
def Tidy (bucket : Bucket α) : Prop :=
  ∀ delay items, bucket.entries.get? delay = some items → items.isEmpty = false

theorem not_holds_empty (name : String) (delay : Nat) (item : α) :
    ¬(empty name : Bucket α).Holds delay item := SortedSet.not_mem_empty item

theorem not_uses_empty (name : String) (delay : Nat) : ¬(empty name : Bucket α).Uses delay :=
  fun ⟨item, held⟩ => not_holds_empty name delay item held

theorem tidy_empty (name : String) : (empty name : Bucket α).Tidy := by
  intro delay items found
  simp [empty] at found

theorem isEmpty_items_iff {bucket : Bucket α} {delay : Nat} :
    (bucket.items delay).isEmpty = true ↔ ¬bucket.Uses delay := by
  rw [SortedSet.isEmpty_iff]
  exact ⟨fun none used => used.elim none, fun unused item held => unused ⟨item, held⟩⟩

/-- In a tidy bucket the delays it lists are those in use. -/
theorem Tidy.mem_delays_iff {bucket : Bucket α} (tidy : bucket.Tidy) {delay : Nat} :
    delay ∈ bucket.delays ↔ bucket.Uses delay := by
  rw [delays, ← SortedMap.get?_isSome_iff_mem_keys]
  cases found : bucket.entries.get? delay with
  | none =>
      have unused : (bucket.items delay).isEmpty = true := by
        rw [items, found]
        rfl
      simpa using isEmpty_items_iff.mp unused
  | some items =>
      have same : bucket.items delay = items := by rw [Bucket.items, found]; rfl
      have filled := tidy delay items found
      rw [← same] at filled
      simp only [Option.isSome_some, true_iff]
      by_contra unused
      rw [isEmpty_items_iff.mpr unused] at filled
      contradiction

theorem items_insert_entry {bucket : Bucket α} {delay other : Nat} {items : SortedSet α} :
    ({ bucket with entries := bucket.entries.insert delay items } : Bucket α).items other =
      if other = delay then items else bucket.items other := by
  simp only [Bucket.items, SortedMap.get?_insert]
  split <;> rfl

theorem items_erase_entry {bucket : Bucket α} {delay other : Nat} :
    ({ bucket with entries := bucket.entries.erase delay } : Bucket α).items other =
      if other = delay then .empty else bucket.items other := by
  simp only [Bucket.items, SortedMap.get?_erase]
  split <;> rfl

section Ordered

variable [DecidableEq α]

theorem holds_delete {bucket : Bucket α} {delay other : Nat} {item thing : α} :
    (bucket.delete delay item).bucket.Holds other thing ↔
      bucket.Holds other thing ∧ ¬(other = delay ∧ thing = item) := by
  unfold delete
  by_cases held : bucket.Holds delay item
  · rw [if_pos held]
    dsimp only
    split
    · next emptied =>
        rw [SortedSet.isEmpty_iff] at emptied
        simp only [Holds, items_erase_entry]
        by_cases same : other = delay
        · subst same
          have onlyItem : thing ∈ bucket.items other → thing = item := by
            intro member
            by_contra different
            exact emptied thing (SortedSet.mem_erase.mpr ⟨member, different⟩)
          simp only [if_true, SortedSet.not_mem_empty, true_and, false_iff, not_and, not_not]
          exact onlyItem
        · simp [same]
    · simp only [Holds, items_insert_entry]
      by_cases same : other = delay
      · subst same
        simp only [if_true, SortedSet.mem_erase, true_and]
      · simp [same]
  · rw [if_neg held]
    refine ⟨fun kept => ⟨kept, ?_⟩, And.left⟩
    rintro ⟨rfl, rfl⟩
    exact held kept

section Deleting

variable {bucket : Bucket α} {delay removed : Nat} {item : α}

theorem uses_delete_of_ne (different : delay ≠ removed) (used : bucket.Uses delay) :
    (bucket.delete removed item).bucket.Uses delay := by
  obtain ⟨thing, kept⟩ := used
  exact ⟨thing, holds_delete.mpr ⟨kept, fun same => different same.1⟩⟩

theorem uses_delete_self : (bucket.delete removed item).bucket.Uses removed ↔
    ¬((bucket.items removed).erase item).isEmpty = true := by
  rw [SortedSet.isEmpty_iff]
  simp only [Uses, holds_delete, true_and]
  simp only [Holds, SortedSet.mem_erase, not_forall, not_not, ne_eq]

theorem delete_of_not_holds (missing : ¬bucket.Holds removed item) :
    bucket.delete removed item = ⟨false, none, bucket⟩ := by
  rw [delete, if_neg missing]

theorem event_delete_of_uses (kept : (bucket.delete removed item).bucket.Uses removed) :
    (bucket.delete removed item).event = none := by
  by_cases held : bucket.Holds removed item
  · simp only [delete, if_pos held, if_neg (uses_delete_self.mp kept)]
  · rw [delete_of_not_holds held]

theorem event_delete_of_not_uses (held : bucket.Holds removed item)
    (unused : ¬(bucket.delete removed item).bucket.Uses removed) :
    (bucket.delete removed item).event = some (.cancel removed) := by
  have emptied : ((bucket.items removed).erase item).isEmpty = true := by
    by_contra filled
    exact unused (uses_delete_self.mpr filled)
  simp only [delete, if_pos held, if_pos emptied]

end Deleting

variable [DecidableLT α] [LE α] [Std.IsLinearOrder α] [Std.LawfulOrderLT α]

theorem holds_insert {bucket : Bucket α} {delay other : Nat} {item thing : α} :
    (bucket.insert delay item).bucket.Holds other thing ↔
      (other = delay ∧ thing = item) ∨ bucket.Holds other thing := by
  unfold insert
  by_cases held : bucket.Holds delay item
  · rw [if_pos held]
    refine ⟨.inr, ?_⟩
    rintro (⟨rfl, rfl⟩ | kept)
    · exact held
    · exact kept
  · rw [if_neg held]
    simp only [Holds, items_insert_entry]
    by_cases same : other = delay
    · subst same
      simp only [if_true, SortedSet.mem_insert, true_and]
    · simp [same]

theorem holds_apply (bucket : Bucket α) (change : Change α) :
    (bucket.apply change).bucket.Holds = change.after bucket.Holds := by
  funext delay item
  apply propext
  cases change with
  | insert => exact holds_insert
  | delete => exact holds_delete

theorem tidy_apply {bucket : Bucket α} (tidy : bucket.Tidy) (change : Change α) :
    (bucket.apply change).bucket.Tidy := by
  intro delay items found
  cases change with
  | insert added item =>
      simp only [apply, insert] at found
      split at found
      · exact tidy delay items found
      · rw [SortedMap.get?_insert] at found
        split at found
        · cases found
          by_contra emptied
          rw [Bool.not_eq_false, SortedSet.isEmpty_iff] at emptied
          exact emptied item (SortedSet.mem_insert.mpr (.inl rfl))
        · exact tidy delay items found
  | delete removed item =>
      simp only [apply, delete] at found
      split at found
      · split at found
        · rw [SortedMap.get?_erase] at found
          split at found
          · contradiction
          · exact tidy delay items found
        · next filled =>
            rw [SortedMap.get?_insert] at found
            split at found
            · cases found
              simpa using filled
            · exact tidy delay items found
      · exact tidy delay items found

/-! ### Events -/

variable {bucket : Bucket α} {delay added : Nat} {item : α}

theorem uses_insert : (bucket.insert added item).bucket.Uses delay ↔
    delay = added ∨ bucket.Uses delay := by
  simp only [Uses, holds_insert]
  constructor
  · rintro ⟨thing, ⟨rfl, rfl⟩ | held⟩
    · exact .inl rfl
    · exact .inr ⟨thing, held⟩
  · rintro (rfl | ⟨thing, held⟩)
    · exact ⟨item, .inl ⟨rfl, rfl⟩⟩
    · exact ⟨thing, .inr held⟩

theorem event_insert_of_uses (used : bucket.Uses added) :
    (bucket.insert added item).event = none := by
  have filled : ¬(bucket.items added).isEmpty = true := by
    rw [isEmpty_items_iff]
    exact fun unused => unused used
  by_cases held : bucket.Holds added item
  · rw [insert, if_pos held]
  · simp only [insert, if_neg held, if_neg filled]

theorem event_insert_of_not_uses (unused : ¬bucket.Uses added) :
    (bucket.insert added item).event = some (.start added) := by
  have missing : ¬bucket.Holds added item := fun held => unused ⟨item, held⟩
  simp only [insert, if_neg missing, if_pos (isEmpty_items_iff.mpr unused)]

/-- A start is told exactly when a delay comes into use. -/
theorem event_eq_start_iff {change : Change α} : (bucket.apply change).event = some (.start delay) ↔
    ¬bucket.Uses delay ∧ (bucket.apply change).bucket.Uses delay := by
  cases change with
  | insert added item =>
      change (bucket.insert added item).event = _ ↔ _ ∧ (bucket.insert added item).bucket.Uses delay
      rw [uses_insert]
      by_cases used : bucket.Uses added
      · rw [event_insert_of_uses used]
        constructor
        · intro told
          contradiction
        · rintro ⟨unused, rfl | already⟩
          · exact absurd used unused
          · exact absurd already unused
      · rw [event_insert_of_not_uses used, Option.some.injEq, Event.start.injEq]
        constructor
        · rintro rfl
          exact ⟨used, .inl rfl⟩
        · rintro ⟨unused, rfl | already⟩
          · rfl
          · exact absurd already unused
  | delete removed item =>
      constructor
      · intro told
        simp only [apply, delete] at told
        split at told
        · split at told <;> simp at told
        · simp at told
      · rintro ⟨unused, thing, held⟩
        exact absurd ⟨thing, (holds_delete.mp held).1⟩ unused

/-- A cancel is told exactly when a delay goes out of use. -/
theorem event_eq_cancel_iff {change : Change α} :
    (bucket.apply change).event = some (.cancel delay) ↔
      bucket.Uses delay ∧ ¬(bucket.apply change).bucket.Uses delay := by
  cases change with
  | insert added item =>
      constructor
      · intro told
        simp only [apply, insert] at told
        split at told
        · simp at told
        · split at told <;> simp at told
      · rintro ⟨⟨thing, held⟩, unused⟩
        exact absurd ⟨thing, holds_insert.mpr (.inr held)⟩ unused
  | delete removed item =>
      change (bucket.delete removed item).event = _ ↔
        _ ∧ ¬(bucket.delete removed item).bucket.Uses delay
      by_cases held : bucket.Holds removed item
      · by_cases kept : (bucket.delete removed item).bucket.Uses removed
        · rw [event_delete_of_uses kept]
          constructor
          · intro told
            contradiction
          · rintro ⟨used, unused⟩
            by_cases same : delay = removed
            · exact absurd (same ▸ kept) unused
            · exact absurd (uses_delete_of_ne same used) unused
        · rw [event_delete_of_not_uses held kept, Option.some.injEq, Event.cancel.injEq]
          constructor
          · rintro rfl
            exact ⟨⟨item, held⟩, kept⟩
          · rintro ⟨used, unused⟩
            by_contra different
            exact unused (uses_delete_of_ne (Ne.symm different) used)
      · rw [delete_of_not_holds held]
        constructor
        · intro told
          contradiction
        · rintro ⟨used, unused⟩
          exact absurd used unused

theorem tells_apply (bucket : Bucket α) (change : Change α) :
    Tells (bucket.apply change).event bucket.Uses (bucket.apply change).bucket.Uses :=
  ⟨fun _ => event_eq_start_iff, fun _ => event_eq_cancel_iff⟩

end Ordered

end Bucket

end CheckRounds.Schedule
