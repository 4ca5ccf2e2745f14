import CheckRounds.Proofs.Schedule.Telling
import Mathlib.Data.List.Nodup
import Mathlib.Data.Set.Insert

namespace CheckRounds.Schedule

/-! What a bucket is and tells after any operations.

A plain set of pairs of a delay and an item stands for a bucket.  An operation consists of
single changes, no two of them at the same delay, so it tells of each delay at most once: that
the first pair of it came, or that the last one went.
-/

namespace Change

variable {α : Type}

def delay : Change α → Nat
  | .insert delay _ => delay
  | .delete delay _ => delay

/-- What a change tells if it brings its delay into use or out of it. -/
def event : Change α → Event
  | .insert delay _ => .start delay
  | .delete delay _ => .cancel delay

@[simp] theorem delay_event (change : Change α) : change.event.delay = change.delay := by
  cases change <;> rfl

/-- The event of a change counts for its own delay only. -/
theorem length_about_le {change : Change α} {delay : Nat} {told : Option Event}
    (only : told = none ∨ told = some change.event) :
    (Event.about delay told.toList).length ≤ if change.delay = delay then 1 else 0 := by
  rcases only with rfl | rfl
  · exact Nat.zero_le _
  · by_cases same : change.delay = delay <;> simp [Event.about, same]

/-- What is left after the deletion of one item at some delays. -/
theorem afterAll_map_delete {held : Nat → α → Prop} {delays : List Nat} {delay : Nat} {item thing : α} :
    afterAll held (delays.map fun delay => .delete delay item) delay thing ↔
      held delay thing ∧ ¬(delay ∈ delays ∧ thing = item) := by
  induction delays generalizing held with
  | nil => simp
  | cons first rest ih =>
      rw [List.map_cons, afterAll_cons, ih]
      simp only [after, List.mem_cons]
      grind

end Change

/-! ### Operations -/

inductive Operation (α : Type)
  | add (delay : Nat) (item : α)
  | remove (delay : Nat) (item : α)
  | removeEverywhere (item : α)
  | move (old new : Nat) (item : α)

/-- What an operation returns: a flag, the delays where something was removed, or nothing. -/
inductive Answer
  | changed (did : Bool)
  | affected (delays : List Nat)
  | done

namespace Operation

variable {α : Type}

/-- The pairs that an operation is to leave. -/
def on (pairs : Set (Nat × α)) : Operation α → Set (Nat × α)
  | .add delay item => insert (delay, item) pairs
  | .remove delay item => pairs \ {(delay, item)}
  | .removeEverywhere item => {pair ∈ pairs | pair.2 ≠ item}
  | .move old new item => insert (new, item) (pairs \ {(old, item)})

/-- The pairs that came or went. -/
def differing (before after : Set (Nat × α)) : Set (Nat × α) := {pair | ¬(pair ∈ before ↔ pair ∈ after)}

theorem mem_differing_iff {before after : Set (Nat × α)} {pair : Nat × α} :
    pair ∈ differing before after ↔ ¬(pair ∈ before ↔ pair ∈ after) := Iff.rfl

/-- The answer names exactly the pairs that came or went. -/
def IsAnswered (before after : Set (Nat × α)) : Operation α → Answer → Prop
  | .add delay item, .changed did => differing before after = if did then {(delay, item)} else ∅
  | .remove delay item, .changed did => differing before after = if did then {(delay, item)} else ∅
  | .removeEverywhere item, .affected delays =>
      differing before after = {pair | pair.1 ∈ delays ∧ pair.2 = item} ∧ delays.Pairwise (· < ·)
  | .move _ _ _, .done => True
  | _, _ => False

/-- The single changes that an operation consists of. -/
def changes [LT α] [DecidableEq α] (bucket : Bucket α) : Operation α → List (Change α)
  | .add delay item => [.insert delay item]
  | .remove delay item => [.delete delay item]
  | .removeEverywhere item => bucket.removalChanges item
  | .move old new item => Bucket.moveChanges old new item

end Operation

namespace Bucket

variable {α : Type} [LT α]

/-- What is listed under the delays, as a set of pairs. -/
def pairs (bucket : Bucket α) : Set (Nat × α) :=
  {pair | ∃ items, bucket.entries.get? pair.1 = some items ∧ pair.2 ∈ items}

/-- The delays of some pairs. -/
def InUse (pairs : Set (Nat × α)) (delay : Nat) : Prop := ∃ item, (delay, item) ∈ pairs

/-- What an operation did: its answer, its events, and the bucket it left. -/
structure Deed (α : Type) [LT α] where
  answer : Answer
  events : List Event
  bucket : Bucket α

section Ordered

variable [DecidableEq α] [DecidableLT α] [LE α] [Std.IsLinearOrder α] [Std.LawfulOrderLT α]

/-- Those of some changes that change something when their turn comes. -/
def effective (bucket : Bucket α) : List (Change α) → List (Change α)
  | [] => []
  | change :: rest =>
      let outcome := bucket.apply change
      if outcome.changed then change :: effective outcome.bucket rest
      else effective outcome.bucket rest

def answer (bucket : Bucket α) : Operation α → Answer
  | .add delay item => .changed (bucket.insert delay item).changed
  | .remove delay item => .changed (bucket.delete delay item).changed
  | .removeEverywhere item =>
      .affected ((bucket.effective (bucket.removalChanges item)).map Change.delay)
  | .move _ _ _ => .done

def perform (bucket : Bucket α) (operation : Operation α) : Deed α :=
  let (events, after) := bucket.applyAll (operation.changes bucket)
  ⟨bucket.answer operation, events, after⟩

/-- Performs operations one after the other: all their events, and the bucket they leave. -/
def performAll (bucket : Bucket α) : List (Operation α) → List Event × Bucket α
  | [] => ([], bucket)
  | operation :: rest =>
      let deed := bucket.perform operation
      let (events, final) := deed.bucket.performAll rest
      (deed.events ++ events, final)

end Ordered

/-! ### Changes -/

variable {bucket : Bucket α} {delay : Nat} {item : α}

theorem mem_pairs_iff : (delay, item) ∈ bucket.pairs ↔ bucket.Holds delay item := by
  unfold Holds items
  change (∃ items, bucket.entries.get? delay = some items ∧ item ∈ items) ↔ _
  cases bucket.entries.get? delay with
  | none => exact iff_of_false (by simp) (SortedSet.not_mem_empty item)
  | some items => simp

theorem pairs_empty (name : String) : (empty name : Bucket α).pairs = ∅ := by
  ext ⟨delay, item⟩
  exact iff_of_false (fun listed => not_holds_empty name delay item (mem_pairs_iff.mp listed))
    (Set.notMem_empty _)

theorem inUse_pairs : InUse bucket.pairs = bucket.Uses := by
  funext delay
  exact propext (exists_congr fun _ => mem_pairs_iff)

theorem mem_delays_of_holds (held : bucket.Holds delay item) : delay ∈ bucket.delays := by
  obtain ⟨items, found, _⟩ := mem_pairs_iff.mpr held
  refine SortedMap.get?_isSome_iff_mem_keys.mp ?_
  rw [found]
  rfl

section Ordered

variable [DecidableEq α]

theorem mem_delaysOf_iff : delay ∈ bucket.delaysOf item ↔ bucket.Holds delay item := by
  rw [delaysOf, List.mem_filter, decide_eq_true_iff]
  exact and_iff_right_of_imp mem_delays_of_holds

theorem delaysOf_ascending (bucket : Bucket α) (item : α) :
    (bucket.delaysOf item).Pairwise (· < ·) := bucket.entries.keys_ascending.filter _

theorem map_delay_removalChanges (bucket : Bucket α) (item : α) :
    (bucket.removalChanges item).map Change.delay = bucket.delaysOf item := by
  rw [removalChanges, List.map_map]
  exact List.map_id _

/-- No two changes of an operation are at the same delay. -/
theorem nodup_changes (bucket : Bucket α) (operation : Operation α) :
    ((operation.changes bucket).map Change.delay).Nodup := by
  cases operation with
  | add delay item => exact List.nodup_singleton delay
  | remove delay item => exact List.nodup_singleton delay
  | removeEverywhere item =>
      rw [Operation.changes, map_delay_removalChanges]
      exact (delaysOf_ascending bucket item).imp Nat.ne_of_lt
  | move old new item =>
      rw [Operation.changes, moveChanges]
      split
      · exact List.nodup_singleton new
      · next different => exact List.nodup_cons.mpr ⟨by simpa [Change.delay] using different, List.nodup_singleton new⟩

theorem changed_delete : (bucket.delete delay item).changed = decide (bucket.Holds delay item) := by
  unfold delete
  split
  · next held =>
      rw [decide_eq_true held]
      dsimp only
      split <;> rfl
  · next missing => exact (decide_eq_false missing).symm

variable [DecidableLT α] [LE α] [Std.IsLinearOrder α] [Std.LawfulOrderLT α]
  {change : Change α} {changes : List (Change α)} {operation : Operation α}

theorem changed_insert : (bucket.insert delay item).changed = !decide (bucket.Holds delay item) := by
  unfold insert
  split
  · next held => rw [decide_eq_true held, Bool.not_true]
  · next missing => rw [decide_eq_false missing, Bool.not_false]

/-- A change tells of its own delay or of nothing. -/
theorem event_apply_cases (bucket : Bucket α) (change : Change α) :
    (bucket.apply change).event = none ∨ (bucket.apply change).event = some change.event := by
  cases change with
  | insert added item =>
      by_cases used : bucket.Uses added
      · exact .inl (event_insert_of_uses used)
      · exact .inr (event_insert_of_not_uses used)
  | delete removed item =>
      by_cases held : bucket.Holds removed item
      · by_cases kept : (bucket.delete removed item).bucket.Uses removed
        · exact .inl (event_delete_of_uses kept)
        · exact .inr (event_delete_of_not_uses held kept)
      · refine .inl ?_
        rw [apply, delete_of_not_holds held]

theorem eq_event_of_told {event : Event} (told : (bucket.apply change).event = some event) :
    event = change.event := by
  rcases event_apply_cases bucket change with silent | same
  · rw [silent] at told
    contradiction
  · exact Option.some.inj (told.symm.trans same)

theorem applyAll_cons (rest : List (Change α)) : bucket.applyAll (change :: rest) =
    ((bucket.apply change).event.toList ++ ((bucket.apply change).bucket.applyAll rest).1,
      ((bucket.apply change).bucket.applyAll rest).2) := rfl

theorem holds_applyAll : (bucket.applyAll changes).2.Holds = Change.afterAll bucket.Holds changes := by
  induction changes generalizing bucket with
  | nil => rfl
  | cons change rest ih => rw [applyAll_cons, ih, holds_apply, Change.afterAll_cons]

theorem tidy_applyAll (tidy : bucket.Tidy) : (bucket.applyAll changes).2.Tidy := by
  induction changes generalizing bucket with
  | nil => exact tidy
  | cons change rest ih => exact ih (tidy_apply tidy change)

theorem uses_applyAll : (bucket.applyAll changes).2.Uses =
    Event.afterAll bucket.Uses (bucket.applyAll changes).1 := by
  induction changes generalizing bucket with
  | nil => rfl
  | cons change rest ih =>
      rw [applyAll_cons, ih, Event.afterAll_append, ← (tells_apply bucket change).after_eq]

theorem allFit_applyAll : Event.AllFit bucket.Uses (bucket.applyAll changes).1 := by
  induction changes generalizing bucket with
  | nil => exact trivial
  | cons change rest ih =>
      have tells := tells_apply bucket change
      rw [applyAll_cons]
      refine Event.allFit_append.mpr ⟨tells.allFit, ?_⟩
      rw [← tells.after_eq]
      exact ih

/-- A delay has no more events than changes. -/
theorem length_about_applyAll_le : (Event.about delay (bucket.applyAll changes).1).length ≤
    (changes.map Change.delay).count delay := by
  induction changes generalizing bucket with
  | nil => exact Nat.le_refl _
  | cons change rest ih =>
      have first : (Event.about delay (bucket.apply change).event.toList).length ≤
          if change.delay = delay then 1 else 0 :=
        Change.length_about_le (event_apply_cases bucket change)
      rw [applyAll_cons, Event.about_append, List.length_append, List.map_cons, List.count_cons,
        Nat.add_comm]
      simp only [beq_iff_eq]
      exact Nat.add_le_add ih first

/-! ### What operations do -/

theorem pairs_perform : (bucket.perform operation).bucket.pairs = operation.on bucket.pairs := by
  ext ⟨delay, thing⟩
  rw [mem_pairs_iff, perform, holds_applyAll]
  cases operation with
  | add added item => simp [Operation.changes, Operation.on, Change.after, mem_pairs_iff]
  | remove removed item => simp [Operation.changes, Operation.on, Change.after, mem_pairs_iff]
  | removeEverywhere item =>
      rw [Operation.changes, removalChanges, Change.afterAll_map_delete, mem_delaysOf_iff, Operation.on,
        Set.mem_sep_iff, mem_pairs_iff]
      refine and_congr_right fun held => not_congr ?_
      exact ⟨And.right, fun same => ⟨same ▸ held, same⟩⟩
  | move old new item =>
      rw [Operation.changes, moveChanges]
      split
      · next same =>
          subst same
          simp only [Change.afterAll_cons, Change.afterAll_nil, Change.after, Operation.on, Set.mem_insert_iff,
            Set.mem_sdiff, Set.mem_singleton_iff, Prod.mk.injEq, mem_pairs_iff]
          tauto
      · simp [Operation.on, Change.after, mem_pairs_iff]

theorem effective_cons (rest : List (Change α)) : bucket.effective (change :: rest) =
    if (bucket.apply change).changed then change :: (bucket.apply change).bucket.effective rest
    else (bucket.apply change).bucket.effective rest := rfl

/-- Deletions of what is there all have an effect, if no two of them are the same. -/
theorem effective_deletes {delays : List Nat} (distinct : delays.Nodup)
    (held : ∀ delay ∈ delays, bucket.Holds delay item) :
    bucket.effective (delays.map fun delay => .delete delay item) =
      delays.map fun delay => .delete delay item := by
  induction delays generalizing bucket with
  | nil => rfl
  | cons first rest ih =>
      obtain ⟨fresh, distinctRest⟩ := List.nodup_cons.mp distinct
      have changed : (bucket.apply (.delete first item)).changed = true := by
        rw [apply, changed_delete, decide_eq_true (held first List.mem_cons_self)]
      rw [List.map_cons, effective_cons, if_pos changed, ih distinctRest]
      intro delay later
      refine holds_delete.mpr ⟨held delay (List.mem_cons_of_mem first later), fun same => ?_⟩
      exact fresh (same.1 ▸ later)

/-- The delays that are returned are those that listed the item. -/
theorem answer_removeEverywhere :
    bucket.answer (.removeEverywhere item) = .affected (bucket.delaysOf item) := by
  have held : ∀ delay ∈ bucket.delaysOf item, bucket.Holds delay item :=
    fun _ listed => mem_delaysOf_iff.mp listed
  have distinct := (delaysOf_ascending bucket item).imp Nat.ne_of_lt
  rw [answer, ← map_delay_removalChanges, removalChanges, effective_deletes distinct held]

theorem isAnswered_perform (bucket : Bucket α) (operation : Operation α) :
    operation.IsAnswered bucket.pairs (operation.on bucket.pairs) (bucket.perform operation).answer := by
  cases operation with
  | add delay item =>
      change _ = if (bucket.insert delay item).changed = true then _ else _
      have here : (delay, item) ∈ bucket.pairs ↔ _ := mem_pairs_iff
      rw [changed_insert, Operation.on]
      ext pair
      by_cases held : bucket.Holds delay item <;> grind [Operation.mem_differing_iff]
  | remove delay item =>
      change _ = if (bucket.delete delay item).changed = true then _ else _
      have here : (delay, item) ∈ bucket.pairs ↔ _ := mem_pairs_iff
      rw [changed_delete, Operation.on]
      ext pair
      by_cases held : bucket.Holds delay item <;> grind [Operation.mem_differing_iff]
  | removeEverywhere item =>
      change Operation.IsAnswered _ _ (.removeEverywhere item) (bucket.answer (.removeEverywhere item))
      rw [answer_removeEverywhere]
      refine ⟨?_, delaysOf_ascending bucket item⟩
      ext ⟨delay, thing⟩
      have here : (delay, item) ∈ bucket.pairs ↔ delay ∈ bucket.delaysOf item :=
        mem_pairs_iff.trans mem_delaysOf_iff.symm
      grind [Operation.on, Operation.mem_differing_iff]
  | move old new item => exact trivial

/-- An operation tells of each delay once. -/
theorem tellOnce_perform (bucket : Bucket α) (operation : Operation α) :
    Event.TellOnce (bucket.perform operation).events (InUse bucket.pairs)
      (InUse (operation.on bucket.pairs)) := by
  have single : ∀ delay, (Event.about delay (bucket.perform operation).events).length ≤ 1 := by
    intro delay
    have distinct := nodup_changes bucket operation
    exact Nat.le_trans length_about_applyAll_le (List.nodup_iff_count_le_one.mp distinct delay)
  have after : InUse (operation.on bucket.pairs) =
      Event.afterAll bucket.Uses (bucket.perform operation).events := by
    rw [← pairs_perform, inUse_pairs]
    exact uses_applyAll
  rw [after, inUse_pairs]
  exact allFit_applyAll.tellOnce single

/-! ### Any number of operations -/

theorem performAll_cons (rest : List (Operation α)) : bucket.performAll (operation :: rest) =
    ((bucket.perform operation).events ++ ((bucket.perform operation).bucket.performAll rest).1,
      ((bucket.perform operation).bucket.performAll rest).2) := rfl

theorem performAll_concat (operations : List (Operation α)) (last : Operation α) :
    bucket.performAll (operations ++ [last]) =
      ((bucket.performAll operations).1 ++ ((bucket.performAll operations).2.perform last).events,
        ((bucket.performAll operations).2.perform last).bucket) := by
  induction operations generalizing bucket with
  | nil => simp [performAll]
  | cons operation rest ih =>
      rw [List.cons_append, performAll_cons, ih, performAll_cons, List.append_assoc]

theorem pairs_performAll (operations : List (Operation α)) :
    (bucket.performAll operations).2.pairs = operations.foldl Operation.on bucket.pairs := by
  induction operations generalizing bucket with
  | nil => rfl
  | cons operation rest ih => rw [performAll_cons, ih, pairs_perform, List.foldl_cons]

theorem tidy_performAll (operations : List (Operation α)) (tidy : bucket.Tidy) :
    (bucket.performAll operations).2.Tidy := by
  induction operations generalizing bucket with
  | nil => exact tidy
  | cons operation rest ih => exact ih (tidy_applyAll tidy)

theorem uses_performAll (operations : List (Operation α)) : (bucket.performAll operations).2.Uses =
    Event.afterAll bucket.Uses (bucket.performAll operations).1 := by
  induction operations generalizing bucket with
  | nil => rfl
  | cons operation rest ih =>
      rw [performAll_cons, ih, Event.afterAll_append]
      exact congrArg (Event.afterAll · _) uses_applyAll

theorem allFit_performAll (operations : List (Operation α)) :
    Event.AllFit bucket.Uses (bucket.performAll operations).1 := by
  induction operations generalizing bucket with
  | nil => exact trivial
  | cons operation rest ih =>
      refine Event.allFit_append.mpr ⟨allFit_applyAll, ?_⟩
      have after : (bucket.perform operation).bucket.Uses =
          Event.afterAll bucket.Uses (bucket.perform operation).events := uses_applyAll
      exact after ▸ ih

/-- What a bucket is and has told when a plain set of pairs has come to stand for it. -/
structure StandsFor (bucket : Bucket α) (events : List Event) (pairs : Set (Nat × α)) : Prop where
  pairs : bucket.pairs = pairs
  filled : ∀ delay items, bucket.entries.get? delay = some items → ∃ item, item ∈ items
  alternating : ∀ delay, Event.Alternating delay false (Event.about delay events)
  inUse : ∀ delay, delay ∈ bucket.delays ↔ (Event.about delay events).getLast? = some (.start delay)

/-- What an operation answers and tells is all that it did to the pairs. -/
structure Deed.Accounts (deed : Deed α) (operation : Operation α) (before after : Set (Nat × α)) : Prop where
  answer : operation.IsAnswered before after deed.answer
  events : Event.TellOnce deed.events (InUse before) (InUse after)

/-- A bucket that was empty at first stands for the plain set of pairs that the same operations
make, and each operation answers and tells what it changes about that set. -/
theorem stands_for_pairs (name : String) (operations : List (Operation α)) :
    let done := (empty name : Bucket α).performAll operations
    let pairs := operations.foldl Operation.on ∅
    done.2.StandsFor done.1 pairs ∧ ∀ next : Operation α,
      (empty name : Bucket α).performAll (operations ++ [next]) =
        (done.1 ++ (done.2.perform next).events, (done.2.perform next).bucket) ∧
      (done.2.perform next).Accounts next pairs (next.on pairs) := by
  intro done pairs
  have samePairs : done.2.pairs = pairs := by
    rw [pairs_performAll, pairs_empty]
  have tidy : done.2.Tidy := tidy_performAll operations (tidy_empty name)
  have unused : (empty name : Bucket α).Uses = fun _ => False :=
    funext fun delay => eq_false (not_uses_empty name delay)
  have fit : Event.AllFit (fun _ => False) done.1 := unused ▸ allFit_performAll operations
  have uses : done.2.Uses = Event.afterAll (fun _ => False) done.1 :=
    unused ▸ uses_performAll operations
  refine ⟨⟨samePairs, ?_, ?_, ?_⟩, ?_⟩
  · intro delay items found
    have filled := tidy delay items found
    by_contra none
    rw [SortedSet.isEmpty_iff.mpr (not_exists.mp none)] at filled
    contradiction
  · intro delay
    exact fit.alternating (iff_of_false not_false Bool.false_ne_true)
  · intro delay
    rw [tidy.mem_delays_iff, uses, Event.afterAll_iff_getLast?]
    simp
  · intro next
    refine ⟨performAll_concat operations next, ?_, ?_⟩
    · exact samePairs ▸ isAnswered_perform done.2 next
    · exact samePairs ▸ tellOnce_perform done.2 next

theorem stands_for_pairs_after_move :
    let operations : List (Operation String) :=
      [.add 10 "a", .add 10 "a", .add 20 "b", .move 10 20 "a", .removeEverywhere "b"]
    let done := (empty "mixed").performAll operations
    done.1 = [.start 10, .start 20, .cancel 10] ∧ done.2.delays = [20] ∧
      done.2.StandsFor done.1 (operations.foldl Operation.on ∅) :=
  ⟨by decide +kernel, by decide +kernel, (stands_for_pairs "mixed" _).1⟩

end Ordered

end Bucket

end CheckRounds.Schedule
