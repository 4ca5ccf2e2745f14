import CheckRounds.Proofs.Host.Counting
import CheckRounds.Proofs.Refresh

namespace CheckRounds

/-! What marching orders make of a host.

The checks, the bucket and the counts are changed order by order, and a later order for a key
sees what an earlier one did.  In the end none of that shows: the checks, the bucket and what
the host keeps as dropped depend on the last order with a delay for each key only, and so do
the counts, but for moves that later orders took further or back.
-/

namespace Host

/-- The checks are those of the orders, values are kept, and the counts and the dropped keys tell
what has changed. -/
structure Obeys (orders : List Order) (before after : Host) (summary : ReconcileCounts) : Prop where
  keys : ∀ key, (after.checks.get? key).isSome ↔
    ∃ order ∈ orders, order.delay ≠ 0 ∧ order.key = key
  duty : ∀ key check, after.checks.get? key = some check →
    ∃ order, Order.last? orders key = some order ∧ check.delay = order.delay ∧
      check.lastLogSize = order.lastLogSize ∧ check.mtime = order.mtime
  kept : ∀ key old check, before.checks.get? key = some old → after.checks.get? key = some check →
    check.lastValue = old.lastValue ∧ check.lastCheck = old.lastCheck
  fresh : ∀ key check, before.checks.get? key = none → after.checks.get? key = some check →
    check.lastValue = none ∧ check.lastCheck = none
  dropped : ∀ key, key ∈ after.refresh.removed ↔
    (before.checks.get? key).isSome ∧ after.checks.get? key = none
  added : summary.added = (keySet after.checks \ keySet before.checks).card
  removed : summary.removed = (keySet before.checks \ keySet after.checks).card
  updated : Order.Distinct orders →
    summary.updated = (movedKeys before.checks after.checks).card

variable {host : Host}

theorem obeys_reconcile (present : host.withdrawn = false) (orders : List Order) (now : Instant) :
    Obeys orders host (host.reconcile orders now).host (host.reconcile orders now).summary := by
  have checks : ∀ key, (host.reconcile orders now).host.checks.get? key =
      (Order.last? orders key).map (Check.under (host.checks.get? key)) :=
    fun _ => get?_reconcile present
  constructor
  case keys =>
    intro key
    rw [checks, Option.isSome_map, Order.isSome_last?_iff]
  case duty =>
    intro key check found
    rw [checks, Option.map_eq_some_iff] at found
    obtain ⟨order, last, rfl⟩ := found
    refine ⟨order, last, ?_⟩
    cases host.checks.get? key <;> exact ⟨rfl, rfl, rfl⟩
  case kept =>
    intro key old check foundOld found
    rw [checks, Option.map_eq_some_iff] at found
    obtain ⟨order, _, rfl⟩ := found
    rw [foundOld]
    exact ⟨rfl, rfl⟩
  case fresh =>
    intro key check absent found
    rw [checks, Option.map_eq_some_iff] at found
    obtain ⟨order, _, rfl⟩ := found
    rw [absent]
    exact ⟨rfl, rfl⟩
  case dropped =>
    intro key
    obtain ⟨removed, same, inRemoved⟩ : ∃ removed, (host.reconcile orders now).host.refresh = _ ∧ _ :=
      refresh_reconcile present
    rw [same, inRemoved, checks, Option.map_eq_none_iff, and_comm]
  case added => exact added_reconcile present
  case removed => exact removed_reconcile present
  case updated => exact updated_reconcile present

end Host

namespace Agent

open Schedule (Forest)

variable {agent : Agent} {ref : HostRef} {station : Station}

/-- A host that is not withdrawn, and whose bucket is there and lists its checks, obeys whatever
orders it gets, and the bucket then lists each check under its new delay only. -/
theorem applyOrders_obeys (found : agent.stations[ref]? = some station)
    (present : station.host.withdrawn = false)
    (planted : station.bucket < agent.scheduler.forest.size)
    (agrees : ∀ delay key, (agent.bucketOf ref).Holds delay key ↔
      listed station.host.checks delay key) (orders : List Order) (now : Instant) :
    ∃ host, (agent.applyOrders ref orders now).2.host? ref = some host ∧
      Host.Obeys orders station.host host (agent.applyOrders ref orders now).1 ∧
      ∀ delay key, ((agent.applyOrders ref orders now).2.bucketOf ref).Holds delay key ↔
        listed host.checks delay key := by
  have foundAfter := getElem?_applyOrders found orders now
  refine ⟨_, host?_eq_some_iff.mpr ⟨_, foundAfter, rfl⟩, ?_, ?_⟩
  · rw [applyOrders_eq found]
    exact Host.obeys_reconcile present orders now
  · intro delay key
    have held : (agent.scheduler.bucket station.bucket).Holds = listed station.host.checks := by
      funext delay key
      rw [← agrees delay key, bucketOf, found]
    have heldAfter := Forest.holds_applyAll_self (station.host.reconcile orders now).changes planted
    rw [show (agent.scheduler.forest.bucket station.bucket).Holds = _ from held,
      Host.afterAll_reconcile] at heldAfter
    rw [bucketOf, foundAfter, applyOrders_eq found, ← heldAfter]
    rfl

/-- One check moves, one is dropped, one is new, and an order without a delay counts for nothing. -/
theorem applyOrders_obeys_of_one_each :
    let agent := ((empty {}).perform (.registerServer { address := "a", hosts := [{ name := "h" }] })).perform
      (.applyOrders 0 [{ key := "moved", delay := 60 }, { key := "dropped", delay := 60 }] default)
    let orders : List Order := [{ key := "moved", delay := 30 }, { key := "new", delay := 60 },
      { key := "dropped", delay := 0 }]
    let after := agent.applyOrders 0 orders default
    (∃ station host, agent.stations[0]? = some station ∧ after.2.host? 0 = some host ∧
      Host.Obeys orders station.host host after.1 ∧
      ∀ delay key, (after.2.bucketOf 0).Holds delay key ↔ listed host.checks delay key) ∧
    after.1 = { added := 1, updated := 1, removed := 1 } := by
  intro agent orders after
  have created : create { servers := [] } = .ok (empty {}) := rfl
  have reachable : agent.Reachable := .perform (.perform (.create created) _) _
  have enrolled : agent.stations[0]?.isSome = true := by decide +kernel
  obtain ⟨station, found⟩ := Option.isSome_iff_exists.mp enrolled
  have foundHost : agent.host? 0 = some station.host := host?_eq_some_iff.mpr ⟨station, found, rfl⟩
  have present : station.host.withdrawn = false := by
    rw [← hasWithdrawn_of_found foundHost]
    decide +kernel
  obtain ⟨host, foundAfter, obeys, lists⟩ := applyOrders_obeys found present
    (reachable.sound.wired.station_inside found)
    (fun _ _ => (reachable.inStep.host 0 _ _).trans (checks_iff_of_found found)) orders default
  exact ⟨⟨station, host, found, foundAfter, obeys, lists⟩, by decide +kernel⟩

end Agent

end CheckRounds
