import CheckRounds.Host
import CheckRounds.Proofs.Schedule.Usage

namespace CheckRounds

/-! The checks of a host, and what its bucket has to list.

Reconciling and withdrawing return the changes of the bucket beside the new checks.  A
bucket that listed the checks before lists those after once it has taken the changes.
-/

open Schedule (Change Bucket)

/-- The delays of some checks, by their keys. -/
def listed (checks : SortedMap String Check) : Nat → String → Prop := fun delay key =>
  ∃ check, checks.get? key = some check ∧ check.delay = delay

/-- Every check is kept under its own key. -/
def Keyed (checks : SortedMap String Check) : Prop :=
  ∀ key check, checks.get? key = some check → check.key = key

theorem not_listed_empty (delay : Nat) (key : String) : ¬listed .empty delay key := by
  rintro ⟨check, found, _⟩
  rw [SortedMap.get?_empty] at found
  contradiction

theorem keyed_empty : Keyed .empty := by
  intro key check found
  rw [SortedMap.get?_empty] at found
  contradiction

theorem listed_insert {checks : SortedMap String Check} {key other : String} {check : Check}
    {delay : Nat} : listed (checks.insert key check) delay other ↔
      if other = key then check.delay = delay else listed checks delay other := by
  simp only [listed, SortedMap.get?_insert]
  by_cases same : other = key <;> simp [same]

theorem listed_erase {checks : SortedMap String Check} {key other : String} {delay : Nat} :
    listed (checks.erase key) delay other ↔ other ≠ key ∧ listed checks delay other := by
  simp only [listed, SortedMap.get?_erase]
  by_cases same : other = key <;> simp [same]

theorem listed_iff_of_get? {checks : SortedMap String Check} {key : String} {check : Check}
    {delay : Nat} (found : checks.get? key = some check) :
    listed checks delay key ↔ check.delay = delay := by simp [listed, found]

theorem get?_foldl_erase {checks : SortedMap String Check} (keys : List String) {key : String} :
    (keys.foldl SortedMap.erase checks).get? key = if key ∈ keys then none else checks.get? key := by
  induction keys generalizing checks with
  | nil => simp
  | cons first rest ih =>
      rw [List.foldl_cons, ih, SortedMap.get?_erase]
      by_cases inRest : key ∈ rest
      · simp [inRest]
      · by_cases same : key = first <;> simp [inRest, same]

/-- Deleting entries from a bucket follows erasing them from the checks, if the entries
have the delays that the checks have. -/
theorem afterAll_deletes {checks : SortedMap String Check} (entries : List (String × Check))
    (current : ∀ entry ∈ entries, ∀ check, checks.get? entry.1 = some check →
      check.delay = entry.2.delay) :
    Change.afterAll (listed checks) (entries.map fun entry => .delete entry.2.delay entry.1) =
      listed ((entries.map (·.1)).foldl SortedMap.erase checks) := by
  induction entries generalizing checks with
  | nil => rfl
  | cons entry rest ih =>
      have erased : Change.after (listed checks) (.delete entry.2.delay entry.1) =
          listed (checks.erase entry.1) := by
        funext delay key
        apply propext
        rw [listed_erase]
        simp only [Change.after]
        constructor
        · rintro ⟨⟨check, found, rfl⟩, kept⟩
          refine ⟨?_, check, found, rfl⟩
          rintro rfl
          exact kept ⟨current entry (by simp) check found, rfl⟩
        · rintro ⟨different, lists⟩
          exact ⟨lists, fun same => different same.2⟩
      rw [List.map_cons, Change.afterAll_cons, erased, List.map_cons, List.foldl_cons]
      apply ih
      intro later member check found
      rw [SortedMap.get?_erase] at found
      split at found
      · contradiction
      · exact current later (List.mem_cons_of_mem entry member) check found

namespace Host

/-! ### Reconciling -/

namespace Reconciling

variable {progress : Reconciling} {held : Nat → String → Prop}

theorem afterAll_take (order : Order)
    (told : Change.afterAll held progress.changes = listed progress.checks) :
    Change.afterAll held (progress.take order).changes = listed (progress.take order).checks := by
  unfold take
  split
  · exact told
  · split
    · next absent =>
        rw [Change.afterAll_append, told]
        funext delay key
        apply propext
        rw [Change.afterAll_cons, Change.afterAll_nil, listed_insert]
        simp only [Change.after]
        by_cases same : key = order.key
        · subst same
          have unlisted : ¬listed progress.checks delay order.key := by
            rintro ⟨check, found, _⟩
            rw [absent] at found
            contradiction
          simp [unlisted, Check.ofOrder, eq_comm]
        · simp [same]
    · next check found =>
        have followed : listed (progress.checks.insert order.key (check.follow order)) =
            Change.after (Change.after (listed progress.checks) (.delete check.delay order.key))
              (.insert order.delay order.key) := by
          funext delay key
          apply propext
          rw [listed_insert]
          simp only [Change.after]
          by_cases same : key = order.key
          · subst same
            rw [listed_iff_of_get? found]
            simp [Check.follow, eq_comm]
          · simp [same]
        split
        · next unmoved =>
            change Change.afterAll held progress.changes = _
            rw [told, followed]
            funext delay key
            apply propext
            simp only [Change.after]
            by_cases same : key = order.key
            · subst same
              rw [listed_iff_of_get? found, unmoved]
              simp [eq_comm]
            · simp [same]
        · next moved =>
            change Change.afterAll held (progress.changes ++ _) = _
            rw [Change.afterAll_append, told, followed, Bucket.moveChanges, if_neg moved]
            rfl

theorem afterAll_foldl_take (orders : List Order)
    (told : Change.afterAll held progress.changes = listed progress.checks) :
    Change.afterAll held (orders.foldl take progress).changes =
      listed (orders.foldl take progress).checks := by
  induction orders generalizing progress with
  | nil => exact told
  | cons order rest ih => exact ih (afterAll_take order told)

theorem keyed_take (order : Order) (keyed : Keyed progress.checks) :
    Keyed (progress.take order).checks := by
  unfold take
  split
  · exact keyed
  · split
    · intro key check found
      rw [SortedMap.get?_insert] at found
      split at found
      · next same =>
          cases found
          exact same.symm
      · exact keyed key check found
    · next present foundPresent =>
        have keyedFollowed : Keyed (progress.checks.insert order.key (present.follow order)) := by
          intro key check found
          rw [SortedMap.get?_insert] at found
          split at found
          · next same =>
              cases found
              exact (keyed _ _ foundPresent).trans same.symm
          · exact keyed key check found
        split
        · exact keyedFollowed
        · exact keyedFollowed

theorem keyed_foldl_take (orders : List Order) (keyed : Keyed progress.checks) :
    Keyed (orders.foldl take progress).checks := by
  induction orders generalizing progress with
  | nil => exact keyed
  | cons order rest ih => exact ih (keyed_take order keyed)

end Reconciling

variable {host : Host} {orders : List Order} {now : Instant}

theorem reconcile_of_withdrawn (withdrawn : host.withdrawn = true) :
    host.reconcile orders now = ⟨{}, [], host⟩ := by rw [reconcile, if_pos withdrawn]

theorem name_reconcile : (host.reconcile orders now).host.name = host.name := by
  unfold reconcile
  split <;> rfl

theorem withdrawn_reconcile : (host.reconcile orders now).host.withdrawn = host.withdrawn := by
  unfold reconcile
  split <;> rfl

theorem afterAll_reconcile :
    Change.afterAll (listed host.checks) (host.reconcile orders now).changes =
      listed (host.reconcile orders now).host.checks := by
  unfold reconcile
  split
  · rfl
  · have told : Change.afterAll (listed host.checks)
        (orders.foldl Reconciling.take { checks := host.checks }).changes =
          listed (orders.foldl Reconciling.take { checks := host.checks }).checks :=
      Reconciling.afterAll_foldl_take orders rfl
    dsimp only
    rw [Change.afterAll_append, told]
    apply afterAll_deletes
    intro entry member check found
    have listedEntry := (List.mem_filter.mp member).1
    rw [SortedMap.get?_eq_some_iff_mem.mpr listedEntry] at found
    cases found
    rfl

theorem keyed_reconcile (keyed : Keyed host.checks) :
    Keyed (host.reconcile orders now).host.checks := by
  unfold reconcile
  split
  · exact keyed
  · intro key check found
    dsimp only at found
    rw [get?_foldl_erase] at found
    split at found
    · contradiction
    · have keyedTaken : Keyed (orders.foldl Reconciling.take { checks := host.checks }).checks :=
        Reconciling.keyed_foldl_take orders keyed
      exact keyedTaken key check found

/-! ### Withdrawing -/

theorem afterAll_withdraw :
    Change.afterAll (listed host.checks) host.withdraw.1 = listed host.withdraw.2.checks := by
  unfold withdraw
  dsimp only
  rw [afterAll_deletes]
  · funext delay key
    apply propext
    refine iff_of_false ?_ (not_listed_empty delay key)
    rintro ⟨check, found, _⟩
    rw [get?_foldl_erase] at found
    split at found
    · contradiction
    · next absent =>
        have present : (host.checks.get? key).isSome := by rw [found]; rfl
        exact absent (SortedMap.get?_isSome_iff_mem_keys.mp present)
  · intro entry member check found
    rw [SortedMap.get?_eq_some_iff_mem.mpr member] at found
    cases found
    rfl

/-! ### Everything else leaves the listing alone -/

theorem stateAt_eq (host : Host) (now : Instant) :
    ∃ refresh, (host.stateAt now).2 = { host with refresh } := by
  unfold stateAt
  split
  · exact ⟨_, rfl⟩
  · exact ⟨host.refresh, rfl⟩

theorem wantsRefresh_snd (host : Host) (now : Instant) :
    (host.wantsRefresh now).2 = (host.stateAt now).2 := by
  unfold wantsRefresh
  dsimp only
  split <;> rfl

theorem get?_keepValue {key other value : String} :
    (host.keepValue key value now).checks.get? other =
      if other = key then (host.checks.get? other).map fun check => check.record value now
      else host.checks.get? other := SortedMap.get?_modify

theorem listed_keepValue {key value : String} :
    listed (host.keepValue key value now).checks = listed host.checks := by
  funext delay other
  simp only [listed, get?_keepValue]
  by_cases same : other = key <;> simp [same, Check.record]

theorem keyed_keepValue {key value : String} (keyed : Keyed host.checks) :
    Keyed (host.keepValue key value now).checks := by
  intro other check found
  rw [get?_keepValue] at found
  split at found
  · obtain ⟨before, foundBefore, rfl⟩ := Option.map_eq_some_iff.mp found
    exact keyed other before foundBefore
  · exact keyed other check found

end Host

end CheckRounds
