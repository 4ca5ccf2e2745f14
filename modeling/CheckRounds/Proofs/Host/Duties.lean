import CheckRounds.Proofs.Host.Listing

namespace CheckRounds

/-! A host without what its checks have collected.

Values are collected at any time, and nothing that is decided about a host looks at them.
So orders, faults and a withdrawal do the same to a host with and without its values, and
collecting a value cannot be told once the values are left out.
-/

open Schedule (Change)

namespace SortedMap

variable {α : Type} {change : String → α → α} {entries : SortedMap String α}

theorem mapValues_insert (key : String) (value : α) :
    (entries.insert key value).mapValues change = (entries.mapValues change).insert key (change key value) := by
  refine ext_get? fun other => ?_
  simp only [get?_mapValues, get?_insert]
  by_cases same : other = key <;> simp [same]

theorem mapValues_erase (key : String) :
    (entries.erase key).mapValues change = (entries.mapValues change).erase key := by
  refine ext_get? fun other => ?_
  simp only [get?_mapValues, get?_erase]
  by_cases same : other = key <;> simp [same]

theorem mapValues_foldl_erase (keys : List String) :
    (keys.foldl erase entries).mapValues change = keys.foldl erase (entries.mapValues change) := by
  induction keys generalizing entries with
  | nil => rfl
  | cons key rest ih => rw [List.foldl_cons, ih, mapValues_erase, List.foldl_cons]

theorem toList_mapValues : (entries.mapValues change).toList =
    entries.toList.map fun entry => (entry.1, change entry.1 entry.2) := rfl

end SortedMap

/-- What a check is there for: when it is due, and where it goes on reading. -/
structure Duty where
  delay : Nat
  lastLogSize : Nat
  mtime : Nat
deriving DecidableEq, Repr

namespace Check

def duty (check : Check) : Duty := ⟨check.delay, check.lastLogSize, check.mtime⟩

/-- The check as if it had never had a value. -/
def bare (check : Check) : Check := { check with lastValue := none, lastCheck := none }

end Check

namespace Host

/-- Checks as if none of them had ever had a value. -/
def bareChecks (checks : SortedMap String Check) : SortedMap String Check :=
  checks.mapValues fun _ check => check.bare

theorem get?_bareChecks {checks : SortedMap String Check} {key : String} :
    (bareChecks checks).get? key = (checks.get? key).map Check.bare := SortedMap.get?_mapValues

theorem bareChecks_insert {checks : SortedMap String Check} (key : String) (check : Check) :
    bareChecks (checks.insert key check) = (bareChecks checks).insert key check.bare :=
  SortedMap.mapValues_insert key check

/-- The host as if none of its checks had ever had a value. -/
def bare (host : Host) : Host := { host with checks := bareChecks host.checks }

/-! ### Reconciling -/

def Reconciling.bare (progress : Reconciling) : Reconciling :=
  { progress with checks := bareChecks progress.checks }

theorem Reconciling.bare_take (progress : Reconciling) (order : Order) :
    (progress.take order).bare = progress.bare.take order := by
  have known : progress.bare.checks.get? order.key = (progress.checks.get? order.key).map Check.bare :=
    get?_bareChecks
  unfold take
  by_cases skipped : order.delay = 0
  · rw [if_pos skipped, if_pos skipped]
  · rw [if_neg skipped, if_neg skipped, known]
    cases progress.checks.get? order.key with
    | none =>
        dsimp only [Option.map_none]
        rw [bare, bareChecks_insert]
        rfl
    | some check =>
        dsimp only [Option.map_some]
        have sameDelay : check.bare.delay = check.delay := rfl
        rw [sameDelay]
        by_cases unmoved : check.delay = order.delay
        · rw [if_pos unmoved, if_pos unmoved, bare, bareChecks_insert]
          rfl
        · rw [if_neg unmoved, if_neg unmoved, bare, bareChecks_insert]
          rfl

theorem Reconciling.bare_foldl_take (progress : Reconciling) (orders : List Order) :
    (orders.foldl take progress).bare = orders.foldl take progress.bare := by
  induction orders generalizing progress with
  | nil => rfl
  | cons order rest ih => rw [List.foldl_cons, ih, bare_take, List.foldl_cons]

/-- The entries that are not wanted are the same ones, with or without their values. -/
theorem filter_bareChecks (checks : SortedMap String Check) (wanted : String → Bool) :
    (bareChecks checks).toList.filter (fun entry => wanted entry.1) =
      (checks.toList.filter fun entry => wanted entry.1).map fun entry => (entry.1, entry.2.bare) := by
  rw [bareChecks, SortedMap.toList_mapValues, List.filter_map]
  rfl

variable (host : Host)

/-- Orders do the same to a host with or without its values. -/
theorem bare_reconcile (orders : List Order) (now : Instant) : host.bare.reconcile orders now =
    { host.reconcile orders now with host := (host.reconcile orders now).host.bare } := by
  unfold reconcile
  have sameWithdrawn : host.bare.withdrawn = host.withdrawn := rfl
  rw [sameWithdrawn]
  by_cases withdrawn : host.withdrawn = true
  · rw [if_pos withdrawn, if_pos withdrawn]
  · rw [if_neg withdrawn, if_neg withdrawn]
    have folded := Reconciling.bare_foldl_take { checks := host.checks } orders
    have start : Reconciling.bare { checks := host.checks } = { checks := host.bare.checks } := rfl
    rw [start] at folded
    rw [← folded]
    generalize orders.foldl Reconciling.take { checks := host.checks } = progress
    dsimp only [Reconciling.bare]
    rw [filter_bareChecks progress.checks fun key => decide (key ∉ progress.wanted), List.map_map,
      List.map_map]
    simp only [bare, bareChecks, SortedMap.mapValues_foldl_erase, List.length_map]
    rfl

theorem bare_noteFault (fault : Fault) (now : Instant) :
    host.bare.noteFault fault now = (host.noteFault fault now).bare := rfl

theorem bare_withdraw : host.bare.withdraw = (host.withdraw.1, host.withdraw.2.bare) := by
  have sameChanges : host.bare.withdraw.1 = host.withdraw.1 := by
    rw [withdraw, withdraw, bare, bareChecks, SortedMap.toList_mapValues, List.map_map]
    rfl
  exact Prod.ext sameChanges rfl

/-! ### Collecting -/

theorem bareChecks_modify {checks : SortedMap String Check} (key value : String) (now : Instant) :
    bareChecks (checks.modify key fun check => check.record value now) = bareChecks checks := by
  refine SortedMap.ext_get? fun other => ?_
  rw [get?_bareChecks, get?_bareChecks, SortedMap.get?_modify]
  by_cases same : other = key
  · rw [if_pos same, Option.map_map]
    rfl
  · rw [if_neg same]

/-- Without the values it cannot be told that one was kept. -/
theorem bare_keepValue (key value : String) (now : Instant) :
    (host.keepValue key value now).bare = host.bare := by
  rw [bare, keepValue, bareChecks_modify]
  rfl

end Host

end CheckRounds
