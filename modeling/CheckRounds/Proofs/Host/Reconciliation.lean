import CheckRounds.Proofs.Host.Listing

namespace CheckRounds

/-! The checks that marching orders leave a host with.

Orders may name a key more than once and may have a delay of zero.  What becomes of a key is
settled by its last order with a delay: without any the host has no such check afterwards,
and otherwise the check follows that order.
-/

/-- The last order for a key that has a delay. -/
def Order.last? (orders : List Order) (key : String) : Option Order :=
  (orders.filter fun order => order.delay ≠ 0 ∧ order.key = key).getLast?

/-- A check under an order, new if there was none. -/
def Check.under (check : Option Check) (order : Order) : Check :=
  match check with
  | none => .ofOrder order
  | some check => check.follow order

/-- The check that a host is to have under a key, by the check that it had before. -/
def Check.ordered? (before : Option Check) (orders : List Order) (key : String) : Option Check :=
  (Order.last? orders key).map (Check.under before)

/-- What was ordered for the same key earlier leaves no trace. -/
theorem Check.under_under {before : Option Check} {earlier later : Order}
    (sameKey : earlier.key = later.key) :
    Check.under (some (Check.under before earlier)) later = Check.under before later := by
  cases before with
  | none => simp only [under, ofOrder, follow, sameKey]
  | some check => rfl

namespace Order

variable {order : Order} {orders : List Order} {key : String}

theorem last?_cons_of_asks (asks : order.delay ≠ 0 ∧ order.key = key) :
    last? (order :: orders) key = (last? orders key).or (some order) := by
  rw [last?, List.filter_cons_of_pos (by simpa using asks), List.getLast?_cons, last?]
  cases (orders.filter fun order => order.delay ≠ 0 ∧ order.key = key).getLast? <;> rfl

theorem last?_cons_of_not_asks (asksNot : ¬(order.delay ≠ 0 ∧ order.key = key)) :
    last? (order :: orders) key = last? orders key := by
  rw [last?, List.filter_cons_of_neg (by simpa using asksNot), last?]

theorem key_of_last? {found : Order} (last : last? orders key = some found) : found.key = key := by
  have inside := List.mem_of_getLast? last
  have asks := (List.mem_filter.mp inside).2
  exact (of_decide_eq_true asks).2

theorem isSome_last?_iff :
    (last? orders key).isSome ↔ ∃ order ∈ orders, order.delay ≠ 0 ∧ order.key = key := by
  rw [last?, List.getLast?_isSome, Ne, List.filter_eq_nil_iff]
  simp only [decide_eq_true_eq, not_forall, not_not, exists_prop]

end Order

namespace Host

namespace Reconciling

variable {progress : Reconciling} {order : Order} {key : String}

theorem get?_take_of_asks (asks : order.delay ≠ 0 ∧ order.key = key) :
    (progress.take order).checks.get? key = some (Check.under (progress.checks.get? key) order) := by
  obtain ⟨scheduled, rfl⟩ := asks
  unfold take
  rw [if_neg scheduled]
  cases found : progress.checks.get? order.key with
  | none => exact SortedMap.get?_insert.trans (if_pos rfl)
  | some check =>
      dsimp only
      split <;> exact SortedMap.get?_insert.trans (if_pos rfl)

theorem get?_take_of_not_asks (asksNot : ¬(order.delay ≠ 0 ∧ order.key = key)) :
    (progress.take order).checks.get? key = progress.checks.get? key := by
  unfold take
  split
  · rfl
  · next scheduled =>
      have different : key ≠ order.key := fun same => asksNot ⟨scheduled, same.symm⟩
      split
      · exact SortedMap.get?_insert.trans (if_neg different)
      · split <;> exact SortedMap.get?_insert.trans (if_neg different)

theorem mem_wanted_take : key ∈ (progress.take order).wanted ↔
    (order.delay ≠ 0 ∧ order.key = key) ∨ key ∈ progress.wanted := by
  unfold take
  split
  · next unscheduled => simp [unscheduled]
  · next scheduled =>
      have inserted : key ∈ progress.wanted.insert order.key ↔
          (order.delay ≠ 0 ∧ order.key = key) ∨ key ∈ progress.wanted := by
        rw [SortedSet.mem_insert]
        simp [scheduled, eq_comm]
      split
      · exact inserted
      · split <;> exact inserted

theorem get?_foldl_take (orders : List Order) :
    (orders.foldl take progress).checks.get? key =
      (Check.ordered? (progress.checks.get? key) orders key).or (progress.checks.get? key) := by
  induction orders generalizing progress with
  | nil => rfl
  | cons order rest ih =>
      rw [List.foldl_cons, ih]
      by_cases asks : order.delay ≠ 0 ∧ order.key = key
      · rw [get?_take_of_asks asks, Check.ordered?, Check.ordered?, Order.last?_cons_of_asks asks]
        cases last : Order.last? rest key with
        | none => rfl
        | some later =>
            have sameKey : order.key = later.key := asks.2.trans (Order.key_of_last? last).symm
            simp [Check.under_under sameKey]
      · rw [get?_take_of_not_asks asks, Check.ordered?, Check.ordered?,
          Order.last?_cons_of_not_asks asks]

theorem mem_wanted_foldl_take (orders : List Order) :
    key ∈ (orders.foldl take progress).wanted ↔
      (Order.last? orders key).isSome ∨ key ∈ progress.wanted := by
  induction orders generalizing progress with
  | nil => simp [Order.last?]
  | cons order rest ih =>
      rw [List.foldl_cons, ih, mem_wanted_take]
      by_cases asks : order.delay ≠ 0 ∧ order.key = key
      · rw [Order.last?_cons_of_asks asks]
        simp [asks]
      · rw [Order.last?_cons_of_not_asks asks]
        simp [asks]

/-- What is not wanted are the keys without an order that there were before. -/
theorem mem_unwanted_iff {checks : SortedMap String Check} (orders : List Order) :
    key ∈ ((orders.foldl take { checks }).checks.toList.filter fun entry =>
        entry.1 ∉ (orders.foldl take { checks }).wanted).map (·.1) ↔
      Order.last? orders key = none ∧ (checks.get? key).isSome := by
  generalize taken : orders.foldl take { checks } = progress
  have found : progress.checks.get? key =
      (Check.ordered? (checks.get? key) orders key).or (checks.get? key) := by
    rw [← taken]
    exact get?_foldl_take orders
  have wanted : key ∈ progress.wanted ↔ (Order.last? orders key).isSome := by
    rw [← taken, mem_wanted_foldl_take]
    simp [SortedSet.not_mem_empty]
  cases last : Order.last? orders key with
  | some order =>
      have isWanted : key ∈ progress.wanted := wanted.mpr (by simp [last])
      simp [isWanted]
  | none =>
      rw [Check.ordered?, last, Option.map_none, Option.none_or] at found
      have unwanted : key ∉ progress.wanted := by simp [wanted, last]
      rw [← found, SortedMap.get?_isSome_iff_mem_keys, SortedMap.keys, List.mem_map, List.mem_map]
      constructor
      · rintro ⟨entry, inside, rfl⟩
        exact ⟨rfl, entry, (List.mem_filter.mp inside).1, rfl⟩
      · rintro ⟨_, entry, inside, rfl⟩
        exact ⟨entry, List.mem_filter.mpr ⟨inside, decide_eq_true unwanted⟩, rfl⟩

end Reconciling

variable {host : Host} {orders : List Order} {now : Instant} {key : String}

/-- Reconciling leaves a host with exactly the checks that are ordered. -/
theorem get?_reconcile (present : host.withdrawn = false) :
    (host.reconcile orders now).host.checks.get? key =
      Check.ordered? (host.checks.get? key) orders key := by
  rw [reconcile, if_neg (by simp [present])]
  dsimp only
  rw [get?_foldl_erase, Reconciling.get?_foldl_take]
  simp only [Reconciling.mem_unwanted_iff]
  cases last : Order.last? orders key with
  | some order => simp [Check.ordered?, last]
  | none =>
      rw [Check.ordered?, last, Option.map_none, Option.none_or]
      cases host.checks.get? key <;> simp

theorem refresh_reconcile (present : host.withdrawn = false) :
    ∃ removed, (host.reconcile orders now).host.refresh =
        { state := .active, lastRefresh := some now, lastAttempt := some now, removed } ∧
      ∀ key, key ∈ removed ↔ Order.last? orders key = none ∧ (host.checks.get? key).isSome := by
  rw [reconcile, if_neg (by simp [present])]
  refine ⟨_, rfl, ?_⟩
  intro key
  rw [SortedSet.mem_ofList, Reconciling.mem_unwanted_iff]

end Host

end CheckRounds
