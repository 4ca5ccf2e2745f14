import CheckRounds.Proofs.Schedule.Leaves

namespace CheckRounds.Schedule

/-! Items that come, and then others that go.

While items only come, no delay goes out of use, so no bucket tells of a delay twice; and the
same holds while they only go.  A delay that an item has come for stays in use, because that item
is not among those that go; so nobody tells of a delay both times.
-/

open Scheduler (eventsAt rootRef)

/-- Changes by which some items come and then others go, each at a delay. -/
def Change.replace {α : Type} (coming going : List (Nat × α)) : List (Change α) :=
  coming.map (fun pair => .insert pair.1 pair.2) ++ going.map fun pair => .delete pair.1 pair.2

/-- If a delay has events of one kind only, it has at most one. -/
theorem Event.AllFit.length_about_le {used : Nat → Prop} {delay : Nat} {events : List Event}
    (fit : AllFit used events) (kind : Event) (only : ∀ event ∈ about delay events, event = kind) :
    (about delay events).length ≤ 1 := by
  classical
  have alternating : Alternating delay (decide (used delay)) (about delay events) :=
    fit.alternating decide_eq_true_iff.symm
  match told : about delay events with
  | [] => exact Nat.zero_le 1
  | [_] => exact Nat.le_refl 1
  | first :: second :: _ =>
      rw [told] at alternating only
      have same : first = second :=
        (only first (by simp)).trans (only second (by simp)).symm
      cases inUse : decide (used delay) with
      | false =>
          rw [inUse] at alternating
          obtain ⟨rfl, rfl, _⟩ := alternating
          contradiction
      | true =>
          rw [inUse] at alternating
          obtain ⟨rfl, rfl, _⟩ := alternating
          contradiction

theorem Timers.get?_foldl_receive {timers : Timers} {delay : Nat} {events : List Event}
    (silent : Event.about delay events = []) :
    (events.foldl Timers.receive timers).armed.get? delay = timers.armed.get? delay := by
  induction events generalizing timers with
  | nil => rfl
  | cons event rest ih =>
      have different : event.delay ≠ delay := by
        intro same
        rw [Event.about_cons_of_eq same] at silent
        contradiction
      rw [Event.about_cons_of_ne different] at silent
      rw [List.foldl_cons, ih silent]
      cases event with
      | start begun => exact SortedMap.get?_insert.trans (if_neg (Ne.symm different))
      | cancel ended => exact SortedMap.get?_erase.trans (if_neg (Ne.symm different))

namespace Forest

variable {forest : Forest} {ref other : BucketRef} {delay : Nat} {item : String}
  {change : Change String} {changes : List (Change String)} {coming going : List (Nat × String)}

theorem applyAll_append (first second : List (Change String)) :
    forest.applyAll ref (first ++ second) =
      ((forest.applyAll ref first).1 ++ ((forest.applyAll ref first).2.applyAll ref second).1,
        ((forest.applyAll ref first).2.applyAll ref second).2) := by
  rw [← applyEach_map, List.map_append, applyEach_append, applyEach_map, applyEach_map]

theorem allFit_applyAll (descending : forest.Descending) :
    Event.AllFit (forest.bucket other).Uses (eventsAt other (forest.applyAll ref changes).1) := by
  induction changes generalizing forest with
  | nil => exact trivial
  | cons change rest ih =>
      obtain ⟨told, events, tells⟩ := tells_apply ref other change descending
      rw [applyAll_cons, eventsAt_append, events]
      refine Event.allFit_append.mpr ⟨tells.allFit, ?_⟩
      rw [← tells.after_eq]
      exact ih (descending_apply descending)

/-- Whatever a bucket tells, it tells of one of the changes. -/
theorem exists_change_of_told {event : Event} (descending : forest.Descending)
    (told : event ∈ eventsAt other (forest.applyAll ref changes).1) :
    ∃ change ∈ changes, event = change.event := by
  induction changes generalizing forest with
  | nil => contradiction
  | cons change rest ih =>
      rw [applyAll_cons, eventsAt_append, List.mem_append] at told
      rcases told with now | later
      · exact ⟨change, List.mem_cons_self, (rises_apply descending).eq_of_mem (mem_eventsAt now)⟩
      · obtain ⟨change, member, same⟩ := ih (descending_apply descending) later
        exact ⟨change, List.mem_cons_of_mem _ member, same⟩

/-- What the bucket itself does not tell, nobody tells. -/
theorem events_apply_of_silent (silent : ((forest.bucket ref).apply change).event = none) :
    (forest.apply ref change).events = [] := by
  unfold Forest.apply
  split
  · dsimp only
    rw [silent]
  · rfl

/-- A bucket tells of a delay once at most if the changes can only bring it into use, or only out
of use. -/
theorem length_about_applyAll_le (descending : forest.Descending) (kind : Event)
    (only : ∀ change ∈ changes, change.delay = delay → change.event = kind) :
    (Event.about delay (eventsAt other (forest.applyAll ref changes).1)).length ≤ 1 := by
  refine (allFit_applyAll descending).length_about_le kind ?_
  intro event told
  obtain ⟨member, same⟩ := List.mem_filter.mp told
  obtain ⟨change, made, rfl⟩ := exists_change_of_told descending member
  exact only change made (by simpa using same)

/-- Nobody tells of a delay while the bucket keeps an item under it. -/
theorem about_deletes_of_kept (descending : forest.Descending) (inside : ref < forest.size)
    (held : (forest.bucket ref).Holds delay item) (kept : (delay, item) ∉ going) :
    Event.about delay (eventsAt other (forest.applyAll ref
      (going.map fun pair => .delete pair.1 pair.2)).1) = [] := by
  induction going generalizing forest with
  | nil => rfl
  | cons pair rest ih =>
      obtain ⟨another, keptLater⟩ := not_or.mp fun either => kept (List.mem_cons.mpr either)
      have heldNext : ((forest.bucket ref).delete pair.1 pair.2).bucket.Holds delay item :=
        Bucket.holds_delete.mpr ⟨held, fun same => another (Prod.ext same.1 same.2)⟩
      have silent : Event.about delay
          (eventsAt other (forest.apply ref (.delete pair.1 pair.2)).events) = [] := by
        refine Event.about_eq_nil fun event told same => ?_
        obtain rfl : event = .cancel pair.1 := (rises_apply descending).eq_of_mem (mem_eventsAt told)
        obtain rfl : pair.1 = delay := same
        have quiet : ((forest.bucket ref).apply (.delete pair.1 pair.2)).event = none :=
          Bucket.event_delete_of_uses ⟨item, heldNext⟩
        rw [events_apply_of_silent quiet] at told
        contradiction
      rw [List.map_cons, applyAll_cons, eventsAt_append, Event.about_append, silent, List.nil_append]
      refine ih (descending_apply descending) (by rwa [size_apply]) ?_ keptLater
      rw [bucket_apply_self inside]
      exact heldNext

theorem afterAll_inserts {held : Nat → String → Prop} :
    Change.afterAll held (coming.map fun pair => .insert pair.1 pair.2) delay item ↔
      (delay, item) ∈ coming ∨ held delay item := by
  induction coming generalizing held with
  | nil => simp
  | cons pair rest ih =>
      rw [List.map_cons, Change.afterAll_cons, ih, List.mem_cons, Prod.ext_iff]
      simp only [Change.after]
      tauto

/-- If no item goes that has come, every bucket tells of each delay once. -/
theorem tellOnce_replace (descending : forest.Descending) (inside : ref < forest.size)
    (apart : ∀ pair ∈ coming, pair ∉ going) (other : BucketRef) :
    Event.TellOnce (eventsAt other (forest.applyAll ref (Change.replace coming going)).1)
      (forest.bucket other).Uses
      ((forest.applyAll ref (Change.replace coming going)).2.bucket other).Uses := by
  rw [uses_applyAll _ descending]
  refine (allFit_applyAll descending).tellOnce fun delay => ?_
  rw [Change.replace, applyAll_append, eventsAt_append, Event.about_append, List.length_append]
  have onlyStarts : ∀ change ∈ coming.map fun pair => Change.insert pair.1 pair.2,
      change.delay = delay → change.event = .start delay := by
    intro change isInsert same
    obtain ⟨pair, _, rfl⟩ := List.mem_map.mp isInsert
    exact congrArg Event.start same
  have onlyCancels : ∀ change ∈ going.map fun pair => Change.delete pair.1 pair.2,
      change.delay = delay → change.event = .cancel delay := by
    intro change isDelete same
    obtain ⟨pair, _, rfl⟩ := List.mem_map.mp isDelete
    exact congrArg Event.cancel same
  generalize came : forest.applyAll ref (coming.map fun pair => .insert pair.1 pair.2) = between
  have descendingBetween : between.2.Descending := came ▸ descending_applyAll _ descending
  have atMostOne : (Event.about delay (eventsAt other between.1)).length ≤ 1 :=
    came ▸ length_about_applyAll_le descending _ onlyStarts
  by_cases quiet : Event.about delay (eventsAt other between.1) = []
  · rw [quiet, List.length_nil, Nat.zero_add]
    exact length_about_applyAll_le descendingBetween _ onlyCancels
  · -- an item has come for the delay, and keeps it in use from then on
    obtain ⟨event, told⟩ := List.exists_mem_of_ne_nil _ quiet
    obtain ⟨member, same⟩ := List.mem_filter.mp told
    rw [← came] at member
    obtain ⟨change, isInsert, rfl⟩ := exists_change_of_told descending member
    obtain ⟨⟨begun, item⟩, hasCome, rfl⟩ := List.mem_map.mp isInsert
    obtain rfl : begun = delay := of_decide_eq_true same
    have held : (between.2.bucket ref).Holds begun item := by
      rw [← came, holds_applyAll_self _ inside]
      exact afterAll_inserts.mpr (.inl hasCome)
    have insideBetween : ref < between.2.size := by rwa [← came, size_applyAll]
    rw [about_deletes_of_kept descendingBetween insideBetween held (apart _ hasCome)]
    exact atMostOne

end Forest

end CheckRounds.Schedule
