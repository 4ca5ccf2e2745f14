import CheckRounds.Proofs.Agent.Reachable
import CheckRounds.Proofs.Host.Renewal
import CheckRounds.Proofs.Refresh

namespace CheckRounds

/-! Marching orders that move no check.

What a host, its server and the agent then tell of a delay is only that it came into use or that
it went out of use.  So a timer that is needed before and after a refresh stays as it was armed.
-/

open Schedule (BucketRef Change Event Forest Scheduler Timers)
open Schedule.Scheduler (eventsAt rootRef)

namespace Agent

/-- At each of three levels there is one event for a delay that came into or went out of use and
none for any other; no timer that is needed all the time is touched; and the same orders once
more leave the whole schedule alone. -/
structure Renews (before after : Agent) (ref : HostRef) (owner : ServerRef) (orders : List Order)
    (events : List (BucketRef × Event)) : Prop where
  journal : after.scheduler.journal = before.scheduler.journal ++ events
  host : ∃ station : Station, before.stations[ref]? = some station ∧ Event.TellOnce
    (eventsAt station.bucket events) (before.bucketOf ref).Uses (after.bucketOf ref).Uses
  server : ∃ server, before.server? owner = some server ∧ Event.TellOnce
    (eventsAt server.bucket events) (before.serverBucketOf owner).Uses (after.serverBucketOf owner).Uses
  root : Event.TellOnce (eventsAt rootRef events) before.scheduler.root.Uses after.scheduler.root.Uses
  timers : ∀ delay, (∃ id, before.Needs delay id) → (∃ id, after.Needs delay id) →
    Event.about delay (eventsAt rootRef events) = [] ∧
      after.scheduler.timers.armed.get? delay = before.scheduler.timers.armed.get? delay
  again : ∀ later, (after.applyOrders ref orders later).2.scheduler = after.scheduler

variable {agent : Agent} {ref : HostRef} {owner : ServerRef} {id name : String} {orders : List Order}

/-- Where orders for a registered host ask for one delay a key and move no check that is kept, the
host, its server and the agent each tell exactly what came into use and what went out of it. -/
theorem applyOrders_renews (reachable : agent.Reachable) (named : agent.serverNamed? id = some owner)
    (enrolled : agent.hostNamed? owner name = some ref) (agree : Order.Agree orders)
    (keep : Order.Keep orders (agent.host ref).checks) (now : Instant) :
    ∃ events, agent.Renews (agent.applyOrders ref orders now).2 ref owner orders events := by
  have sound := reachable.sound
  obtain ⟨server, foundServer, rfl⟩ := sound.registered named
  rw [hostNamed?, foundServer, Option.bind_some] at enrolled
  obtain ⟨station, found, _⟩ := sound.enrolled foundServer enrolled
  have foundHost : agent.host? ref = some station.host := host?_eq_some_iff.mpr ⟨station, found, rfl⟩
  rw [host_of_found foundHost] at keep
  obtain ⟨coming, going, changes, apart⟩ := Host.changes_reconcile agree keep now
  have scheduler : (agent.applyOrders ref orders now).2.scheduler =
      agent.scheduler.applyAll station.bucket (Change.replace coming going) := by
    rw [applyOrders_eq found, changes]
  have tellOnce : ∀ level, Event.TellOnce
      (eventsAt level (agent.scheduler.forest.applyAll station.bucket (Change.replace coming going)).1)
      (agent.scheduler.bucket level).Uses
      ((agent.applyOrders ref orders now).2.scheduler.bucket level).Uses := by
    intro level
    rw [scheduler]
    exact Forest.tellOnce_replace sound.schedule.orderly.descending (sound.wired.station_inside found)
      apart level
  have soundAfter : (agent.applyOrders ref orders now).2.Sound := sound.applyOrders orders now
  refine ⟨(agent.scheduler.forest.applyAll station.bucket (Change.replace coming going)).1, ?_⟩
  constructor
  case journal =>
    rw [scheduler]
    rfl
  case host =>
    refine ⟨station, found, ?_⟩
    rw [bucketOf, found, bucketOf, getElem?_applyOrders found orders now]
    exact tellOnce station.bucket
  case server =>
    refine ⟨server, foundServer, ?_⟩
    have foundAfter : (agent.applyOrders ref orders now).2.server? owner = some server := by
      rw [applyOrders_eq found]
      exact foundServer
    rw [serverBucketOf, foundServer, serverBucketOf, foundAfter]
    exact tellOnce server.bucket
  case root => exact tellOnce rootRef
  case timers =>
    intro delay neededBefore neededAfter
    have silent := (tellOnce rootRef).silent delay (iff_of_true
      (sound.uses_root_iff_needs.mpr neededBefore) (soundAfter.uses_root_iff_needs.mpr neededAfter))
    refine ⟨silent, ?_⟩
    rw [scheduler]
    exact Timers.get?_foldl_receive silent
  case again =>
    intro later
    rw [applyOrders_eq (getElem?_applyOrders found orders now)]
    dsimp only
    rw [Host.changes_reconcile_again agree, Scheduler.applyAll_nil]

/-- One delay stays in use, one is new, and one is needed no more. -/
theorem applyOrders_renews_of_one_each :
    let agent := ((empty {}).perform (.registerServer { address := "a", hosts := [{ name := "h" }] })).perform
      (.applyOrders 0 [{ key := "kept", delay := 60 }, { key := "dropped", delay := 30 }] default)
    let orders : List Order := [{ key := "kept", delay := 60 }, { key := "new", delay := 10 },
      { key := "kept", delay := 60 }]
    let after := (agent.applyOrders 0 orders default).2
    (∃ events, agent.Renews after 0 0 orders events) ∧
      after.scheduler.journal = agent.scheduler.journal ++
        [(2, .start 10), (1, .start 10), (0, .start 10), (2, .cancel 30), (1, .cancel 30), (0, .cancel 30)] := by
  intro agent orders after
  have created : create { servers := [] } = .ok (empty {}) := rfl
  have reachable : agent.Reachable := .perform (.perform (.create created) _) _
  have named : agent.serverNamed? "a:10051" = some 0 := by decide +kernel
  have enrolled : agent.hostNamed? 0 "h" = some 0 := by decide +kernel
  have agree : Order.Agree orders := by
    unfold Order.Agree
    decide
  have keep : Order.Keep orders (agent.host 0).checks := by
    have kept : (agent.host 0).checks.get? "kept" = some { key := "kept", delay := 60 } := by
      decide +kernel
    have new : (agent.host 0).checks.get? "new" = none := by decide +kernel
    simp [Order.Keep, orders, kept, new]
  exact ⟨applyOrders_renews reachable named enrolled agree keep default, by decide +kernel⟩

end Agent

end CheckRounds
