import CheckRounds.Proofs.Host.Reconciliation
import Mathlib.Data.Finset.Card
import Mathlib.Data.Finset.Dedup

namespace CheckRounds

/-! What the counts of a reconciliation say.

Additions and moves are counted order by order, while the checks are still changing.  The
additions come out as the keys that were not there before, whatever the orders are.  The moves
come out as the kept keys with another delay if no two orders with a delay are for one key;
otherwise a key may move to and fro, and each time counts.
-/

/-- The keys of some checks. -/
def keySet (checks : SortedMap String Check) : Finset String := checks.keys.toFinset

/-- The keys that are kept, but with another delay. -/
def movedKeys (before after : SortedMap String Check) : Finset String :=
  (keySet before ∩ keySet after).filter fun key =>
    (before.get? key).map (·.delay) ≠ (after.get? key).map (·.delay)

/-- No two orders with a delay are for the same key. -/
def Order.Distinct (orders : List Order) : Prop :=
  ((orders.filter fun order => order.delay ≠ 0).map (·.key)).Nodup

variable {before checks after : SortedMap String Check} {key : String} {check : Check}

theorem mem_keySet : key ∈ keySet checks ↔ (checks.get? key).isSome := by
  rw [keySet, List.mem_toFinset, SortedMap.get?_isSome_iff_mem_keys]

theorem keySet_insert : keySet (checks.insert key check) = insert key (keySet checks) := by
  ext other
  rw [Finset.mem_insert, mem_keySet, mem_keySet, SortedMap.get?_insert]
  split <;> simp_all

theorem keySet_insert_of_mem (present : (checks.get? key).isSome) :
    keySet (checks.insert key check) = keySet checks := by
  rw [keySet_insert, Finset.insert_eq_of_mem (mem_keySet.mpr present)]

theorem mem_movedKeys : key ∈ movedKeys before checks ↔ ∃ old new, before.get? key = some old ∧
    checks.get? key = some new ∧ old.delay ≠ new.delay := by
  rw [movedKeys, Finset.mem_filter, Finset.mem_inter, mem_keySet, mem_keySet]
  cases before.get? key <;> cases checks.get? key <;> simp

theorem movedKeys_self : movedKeys before before = ∅ := by
  ext key
  rw [mem_movedKeys]
  cases before.get? key <;> simp

/-- A key that was not there before is none that has moved. -/
theorem movedKeys_insert_of_absent (absent : before.get? key = none) :
    movedKeys before (checks.insert key check) = movedKeys before checks := by
  ext other
  rw [mem_movedKeys, mem_movedKeys, SortedMap.get?_insert]
  by_cases same : other = key
  · simp [same, absent]
  · rw [if_neg same]

theorem movedKeys_insert_of_delay {old : Check} (found : before.get? key = some old)
    (untouched : checks.get? key = some old) (unmoved : old.delay = check.delay) :
    movedKeys before (checks.insert key check) = movedKeys before checks := by
  ext other
  rw [mem_movedKeys, mem_movedKeys, SortedMap.get?_insert]
  by_cases same : other = key
  · simp [same, found, untouched, unmoved]
  · rw [if_neg same]

theorem movedKeys_insert_of_moved {old : Check} (found : before.get? key = some old)
    (moved : old.delay ≠ check.delay) :
    movedKeys before (checks.insert key check) = insert key (movedKeys before checks) := by
  ext other
  rw [Finset.mem_insert, mem_movedKeys, mem_movedKeys, SortedMap.get?_insert]
  by_cases same : other = key
  · simp [same, found, moved]
  · rw [if_neg same, or_iff_right same]

namespace Host.Reconciling

variable {progress : Reconciling} {order : Order} {orders : List Order}

/-! ### Additions -/

/-- The additions counted so far are the keys that were not there before. -/
structure CountsAdded (before : SortedMap String Check) (progress : Reconciling) : Prop where
  kept : keySet before ⊆ keySet progress.checks
  added : progress.added = (keySet progress.checks \ keySet before).card

theorem CountsAdded.take (counts : CountsAdded before progress) (order : Order) :
    CountsAdded before (progress.take order) := by
  unfold Reconciling.take
  split
  · exact counts
  · split
    · next absent =>
        have new : order.key ∉ keySet progress.checks := by simp [mem_keySet, absent]
        constructor
        · exact keySet_insert ▸ counts.kept.trans (Finset.subset_insert _ _)
        · change progress.added + 1 = _
          rw [keySet_insert, Finset.insert_sdiff_of_notMem _ fun old => new (counts.kept old),
            Finset.card_insert_of_notMem fun old => new (Finset.mem_sdiff.mp old).1, counts.added]
    · next found =>
        have sameKeys : ∀ check, keySet (progress.checks.insert order.key check) =
            keySet progress.checks := fun _ => keySet_insert_of_mem (by simp [found])
        split
        · exact ⟨(sameKeys _).symm ▸ counts.kept, (sameKeys _).symm ▸ counts.added⟩
        · exact ⟨(sameKeys _).symm ▸ counts.kept, (sameKeys _).symm ▸ counts.added⟩

theorem CountsAdded.foldl_take (counts : CountsAdded before progress) (orders : List Order) :
    CountsAdded before (orders.foldl Reconciling.take progress) := by
  induction orders generalizing progress with
  | nil => exact counts
  | cons order rest ih => exact ih (counts.take order)

/-! ### Moves -/

/-- The first order for a key moves it if the key had another delay before. -/
theorem updated_take (counted : progress.updated = (movedKeys before progress.checks).card)
    (untouched : order.delay ≠ 0 → progress.checks.get? order.key = before.get? order.key) :
    (progress.take order).updated = (movedKeys before (progress.take order).checks).card := by
  unfold Reconciling.take
  split
  · exact counted
  · next scheduled =>
      have sameBefore := untouched scheduled
      split
      · next absent =>
          rw [absent] at sameBefore
          rw [movedKeys_insert_of_absent sameBefore.symm]
          exact counted
      · next check found =>
          rw [found] at sameBefore
          split
          · next unmoved =>
              rw [movedKeys_insert_of_delay sameBefore.symm found unmoved]
              exact counted
          · next moved =>
              have notYet : order.key ∉ movedKeys before progress.checks := by
                simp [mem_movedKeys, ← sameBefore, found]
              change progress.updated + 1 = _
              rw [movedKeys_insert_of_moved sameBefore.symm moved,
                Finset.card_insert_of_notMem notYet, counted]

theorem updated_foldl_take (distinct : Order.Distinct orders)
    (counted : progress.updated = (movedKeys before progress.checks).card)
    (untouched : ∀ order ∈ orders, order.delay ≠ 0 →
      progress.checks.get? order.key = before.get? order.key) :
    (orders.foldl take progress).updated =
      (movedKeys before (orders.foldl take progress).checks).card := by
  induction orders generalizing progress with
  | nil => exact counted
  | cons order rest ih =>
      have distinctRest : Order.Distinct rest := by
        refine distinct.sublist (List.Sublist.map _ ?_)
        exact (List.sublist_cons_self order rest).filter _
      refine ih distinctRest (updated_take counted (untouched order List.mem_cons_self)) ?_
      intro later inRest scheduledLater
      -- a later order is for another key, or the first one has no delay
      have another : ¬(order.delay ≠ 0 ∧ order.key = later.key) := by
        rintro ⟨scheduled, sameKey⟩
        rw [Order.Distinct, List.filter_cons_of_pos (by simpa using scheduled), List.map_cons,
          List.nodup_cons] at distinct
        exact distinct.1 (sameKey ▸ List.mem_map_of_mem (List.mem_filter.mpr
          ⟨inRest, decide_eq_true scheduledLater⟩))
      rw [get?_take_of_not_asks another]
      exact untouched later (List.mem_cons_of_mem order inRest) scheduledLater

end Host.Reconciling

/-! ### What is dropped in the end -/

variable {middle : SortedMap String Check}

/-- To drop old keys makes no new ones. -/
theorem keySet_sdiff_of_or
    (dropped : ∀ key, middle.get? key = (after.get? key).or (before.get? key)) :
    keySet middle \ keySet before = keySet after \ keySet before := by
  ext key
  rw [Finset.mem_sdiff, Finset.mem_sdiff, mem_keySet, mem_keySet, mem_keySet, dropped]
  cases before.get? key <;> simp

/-- The keys that are dropped had not moved. -/
theorem movedKeys_of_or
    (dropped : ∀ key, middle.get? key = (after.get? key).or (before.get? key)) :
    movedKeys before middle = movedKeys before after := by
  ext key
  rw [mem_movedKeys, mem_movedKeys, dropped]
  cases after.get? key with
  | none => simp +contextual
  | some check => rfl

namespace Host

variable {host : Host} {orders : List Order} {now : Instant}

theorem get?_foldl_take_eq_or (present : host.withdrawn = false) (key : String) :
    (orders.foldl Reconciling.take { checks := host.checks }).checks.get? key =
      ((host.reconcile orders now).host.checks.get? key).or (host.checks.get? key) := by
  rw [get?_reconcile present]
  exact Reconciling.get?_foldl_take orders

theorem added_reconcile (present : host.withdrawn = false) :
    (host.reconcile orders now).summary.added =
      (keySet (host.reconcile orders now).host.checks \ keySet host.checks).card := by
  have start : Reconciling.CountsAdded host.checks { checks := host.checks } :=
    ⟨Finset.Subset.refl _, by simp⟩
  rw [← keySet_sdiff_of_or (get?_foldl_take_eq_or present), ← (start.foldl_take orders).added,
    reconcile, if_neg (by simp [present])]

theorem updated_reconcile (present : host.withdrawn = false) (distinct : Order.Distinct orders) :
    (host.reconcile orders now).summary.updated =
      (movedKeys host.checks (host.reconcile orders now).host.checks).card := by
  have start : ({ checks := host.checks } : Reconciling).updated =
      (movedKeys host.checks host.checks).card := by simp [movedKeys_self]
  rw [← movedKeys_of_or (get?_foldl_take_eq_or present),
    ← Reconciling.updated_foldl_take distinct start fun _ _ _ => rfl, reconcile,
    if_neg (by simp [present])]

theorem removed_reconcile (present : host.withdrawn = false) :
    (host.reconcile orders now).summary.removed =
      (keySet host.checks \ keySet (host.reconcile orders now).host.checks).card := by
  have dropped : keySet host.checks \ keySet (host.reconcile orders now).host.checks =
      ((((orders.foldl Reconciling.take { checks := host.checks }).checks.toList.filter fun entry =>
        entry.1 ∉ (orders.foldl Reconciling.take { checks := host.checks }).wanted).map (·.1)).toFinset) := by
    ext key
    rw [List.mem_toFinset, Reconciling.mem_unwanted_iff, Finset.mem_sdiff, mem_keySet, mem_keySet,
      get?_reconcile present, Check.ordered?, and_comm]
    simp
  rw [dropped, List.toFinset_card_of_nodup, reconcile, if_neg (by simp [present])]
  exact (SortedMap.keys_nodup _).sublist (List.filter_sublist.map _)

end Host

end CheckRounds
