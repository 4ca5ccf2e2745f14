import CheckRounds.Proofs.Host.Reconciliation
import CheckRounds.Proofs.Schedule.Replacement

namespace CheckRounds

/-! Orders that move no check.

If no two orders want different delays for one key, and none wants another delay for a check
that is there, then all that reconciling does to the bucket is to add checks and after that to
drop others.  To reconcile with the same orders once more does nothing to it.
-/

open Schedule (Change)

/-- Orders with a delay that are for the same key want the same delay. -/
def Order.Agree (orders : List Order) : Prop :=
  ∀ first ∈ orders, ∀ second ∈ orders, first.delay ≠ 0 → second.delay ≠ 0 →
    first.key = second.key → first.delay = second.delay

/-- No order wants another delay for a check that is there. -/
def Order.Keep (orders : List Order) (checks : SortedMap String Check) : Prop :=
  ∀ order ∈ orders, order.delay ≠ 0 → ∀ check, checks.get? order.key = some check →
    check.delay = order.delay

theorem Check.delay_under (before : Option Check) (order : Order) :
    (Check.under before order).delay = order.delay := by cases before <;> rfl

/-- No order wants another delay for what the orders have left. -/
theorem Order.Agree.keep {orders : List Order} {checks : SortedMap String Check} (agree : Order.Agree orders)
    {before : String → Option Check}
    (ordered : ∀ key, checks.get? key = Check.ordered? (before key) orders key) :
    Order.Keep orders checks := by
  intro order member scheduled check found
  rw [ordered, Check.ordered?, Option.map_eq_some_iff] at found
  obtain ⟨last, isLast, rfl⟩ := found
  obtain ⟨inside, asks⟩ := List.mem_filter.mp (List.mem_of_getLast? isLast)
  obtain ⟨scheduledLast, sameKey⟩ := of_decide_eq_true asks
  rw [Check.delay_under]
  exact agree last inside order member scheduledLast scheduled sameKey

namespace Host

namespace Reconciling

variable {progress : Reconciling} {order : Order} {orders : List Order} {key : String}

theorem absent_of_absent_take (absent : (progress.take order).checks.get? key = none) :
    progress.checks.get? key = none := by
  by_cases asks : order.delay ≠ 0 ∧ order.key = key
  · rw [get?_take_of_asks asks] at absent
    contradiction
  · rwa [get?_take_of_not_asks asks] at absent

/-- An order that moves nothing adds a check or leaves the bucket alone. -/
theorem changes_take_cases (keep : Order.Keep [order] progress.checks) :
    (progress.take order).changes = progress.changes ∨
      order.delay ≠ 0 ∧ progress.checks.get? order.key = none ∧
        (progress.take order).changes = progress.changes ++ [.insert order.delay order.key] := by
  unfold take
  split
  · exact .inl rfl
  · next scheduled =>
      split
      · next absent => exact .inr ⟨scheduled, absent, rfl⟩
      · next check found =>
          have sameDelay := keep order List.mem_cons_self scheduled check found
          rw [if_pos sameDelay]
          exact .inl rfl

theorem keep_take {rest : List Order} (agree : Order.Agree (order :: rest))
    (keep : Order.Keep (order :: rest) progress.checks) : Order.Keep rest (progress.take order).checks := by
  intro later member scheduledLater check found
  by_cases asks : order.delay ≠ 0 ∧ order.key = later.key
  · rw [get?_take_of_asks asks, Option.some.injEq] at found
    rw [← found, Check.delay_under]
    exact agree order List.mem_cons_self later (List.mem_cons_of_mem order member) asks.1
      scheduledLater asks.2
  · rw [get?_take_of_not_asks asks] at found
    exact keep later (List.mem_cons_of_mem order member) scheduledLater check found

/-- What comes is ordered and was not there before. -/
theorem exists_coming (agree : Order.Agree orders) (keep : Order.Keep orders progress.checks) :
    ∃ coming : List (Nat × String),
      (orders.foldl take progress).changes =
        progress.changes ++ coming.map (fun pair => .insert pair.1 pair.2) ∧
      ∀ pair ∈ coming, (Order.last? orders pair.2).isSome ∧ progress.checks.get? pair.2 = none := by
  induction orders generalizing progress with
  | nil => exact ⟨[], by simp, by simp⟩
  | cons order rest ih =>
      have agreeRest : Order.Agree rest := fun first inFirst second inSecond =>
        agree first (List.mem_cons_of_mem order inFirst) second (List.mem_cons_of_mem order inSecond)
      have keepFirst : Order.Keep [order] progress.checks := fun only member =>
        keep only (List.mem_singleton.mp member ▸ List.mem_cons_self)
      obtain ⟨coming, changes, ordered⟩ := ih agreeRest (keep_take agree keep)
      have orderedLater : ∀ pair ∈ coming, (Order.last? (order :: rest) pair.2).isSome ∧
          progress.checks.get? pair.2 = none := by
        intro pair member
        obtain ⟨last, absent⟩ := ordered pair member
        obtain ⟨later, inRest, asks⟩ := Order.isSome_last?_iff.mp last
        exact ⟨Order.isSome_last?_iff.mpr ⟨later, List.mem_cons_of_mem order inRest, asks⟩,
          absent_of_absent_take absent⟩
      rcases changes_take_cases keepFirst with same | ⟨scheduled, absent, added⟩
      · exact ⟨coming, by rw [List.foldl_cons, changes, same], orderedLater⟩
      · refine ⟨(order.delay, order.key) :: coming, ?_, ?_⟩
        · rw [List.foldl_cons, changes, added, List.append_assoc]
          rfl
        · refine List.forall_mem_cons.mpr ⟨⟨?_, absent⟩, orderedLater⟩
          exact Order.isSome_last?_iff.mpr ⟨order, List.mem_cons_self, scheduled, rfl⟩

end Reconciling

variable {host : Host} {orders : List Order}

/-- What comes is ordered and was not there before; what goes was there and is not ordered. -/
theorem changes_reconcile_of_present (present : host.withdrawn = false) (agree : Order.Agree orders)
    (keep : Order.Keep orders host.checks) (now : Instant) :
    ∃ coming going : List (Nat × String),
      (host.reconcile orders now).changes = Change.replace coming going ∧
      (∀ pair ∈ coming, (Order.last? orders pair.2).isSome ∧ host.checks.get? pair.2 = none) ∧
      ∀ pair ∈ going, Order.last? orders pair.2 = none ∧ (host.checks.get? pair.2).isSome := by
  have start : Order.Keep orders ({ checks := host.checks } : Reconciling).checks := keep
  obtain ⟨coming, changes, ordered⟩ := Reconciling.exists_coming agree start
  let unwanted := (orders.foldl Reconciling.take { checks := host.checks }).checks.toList.filter
    fun entry => entry.1 ∉ (orders.foldl Reconciling.take { checks := host.checks }).wanted
  refine ⟨coming, unwanted.map fun entry => (entry.2.delay, entry.1), ?_, ordered, ?_⟩
  · rw [reconcile, if_neg (by simp [present])]
    dsimp only
    rw [changes, List.nil_append, Change.replace, List.map_map]
    rfl
  · intro pair member
    obtain ⟨entry, isUnwanted, rfl⟩ := List.mem_map.mp member
    exact (Reconciling.mem_unwanted_iff orders).mp (List.mem_map_of_mem isUnwanted)

/-- All that happens to the bucket is that checks come and that others go. -/
theorem changes_reconcile (agree : Order.Agree orders) (keep : Order.Keep orders host.checks)
    (now : Instant) : ∃ coming going : List (Nat × String),
      (host.reconcile orders now).changes = Change.replace coming going ∧
      ∀ pair ∈ coming, pair ∉ going := by
  cases withdrawn : host.withdrawn with
  | true => exact ⟨[], [], by rw [reconcile_of_withdrawn withdrawn]; rfl, by simp⟩
  | false =>
      obtain ⟨coming, going, changes, ordered, unordered⟩ :=
        changes_reconcile_of_present withdrawn agree keep now
      refine ⟨coming, going, changes, fun pair comes goes => ?_⟩
      have last := (ordered pair comes).1
      rw [(unordered pair goes).1] at last
      contradiction

/-- The same orders once more change nothing about the bucket. -/
theorem changes_reconcile_again (agree : Order.Agree orders) (now later : Instant) :
    ((host.reconcile orders now).host.reconcile orders later).changes = [] := by
  cases withdrawn : host.withdrawn with
  | true => rw [reconcile_of_withdrawn withdrawn, reconcile_of_withdrawn withdrawn]
  | false =>
      have checks : ∀ key, (host.reconcile orders now).host.checks.get? key =
          Check.ordered? (host.checks.get? key) orders key := fun _ => get?_reconcile withdrawn
      have present : ∀ key, ((host.reconcile orders now).host.checks.get? key).isSome ↔
          (Order.last? orders key).isSome := by
        intro key
        rw [checks, Check.ordered?, Option.isSome_map]
      obtain ⟨coming, going, changes, ordered, unordered⟩ :=
        changes_reconcile_of_present (withdrawn_reconcile.trans withdrawn) agree (agree.keep checks) later
      have noneComes : coming = [] := by
        refine List.eq_nil_iff_forall_not_mem.mpr fun pair comes => ?_
        obtain ⟨last, absent⟩ := ordered pair comes
        have found := (present pair.2).mpr last
        rw [absent] at found
        contradiction
      have noneGoes : going = [] := by
        refine List.eq_nil_iff_forall_not_mem.mpr fun pair goes => ?_
        obtain ⟨unasked, found⟩ := unordered pair goes
        have last := (present pair.2).mp found
        rw [unasked] at last
        contradiction
      rw [changes, noneComes, noneGoes]
      rfl

end Host

end CheckRounds
