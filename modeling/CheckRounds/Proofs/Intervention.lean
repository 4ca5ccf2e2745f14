import CheckRounds.Proofs.Agent.Reachable
import CheckRounds.World

namespace CheckRounds

/-! What can happen to an agent while it waits.

Whatever happens is made of few kinds of writes, so what all of these keep is the same when
a reply is there.  None of it leads an agent into a state that it cannot get into anyway.
-/

open Schedule (Scheduler)

namespace Agent

/-- Writes to hosts and to the schedule, and hosts and servers that are forgotten, leave a
property of agents alone. -/
structure Kept (property : Agent → Prop) : Prop where
  setHost : ∀ {agent : Agent} (ref : HostRef) (host : Host), property agent →
    property (agent.setHost ref host)
  setScheduler : ∀ {agent : Agent} (scheduler : Scheduler), property agent →
    property { agent with scheduler }
  forgetHost : ∀ {agent : Agent} (owner : ServerRef) (name : String), property agent →
    property (agent.modifyServer owner fun server => { server with hosts := server.hosts.erase name })
  forgetServer : ∀ {agent : Agent} (id : String), property agent →
    property { agent with registered := agent.registered.erase id }

namespace Kept

variable {property : Agent → Prop} {agent : Agent} {ref : HostRef} {owner : ServerRef}

theorem reschedule (kept : Kept property) (changes : List (Schedule.Change String))
    (holds : property agent) : property (agent.reschedule ref changes) := by
  unfold Agent.reschedule
  split
  · exact holds
  · exact kept.setScheduler _ holds

theorem withdraw (kept : Kept property) (holds : property agent) :
    property (agent.withdraw ref) := by
  unfold Agent.withdraw
  split
  · exact holds
  · exact kept.reschedule _ (kept.setHost ref _ holds)

theorem unregisterHost (kept : Kept property) (name : String) (holds : property agent) :
    property (agent.unregisterHost owner name).2 := by
  unfold Agent.unregisterHost
  split
  · exact holds
  · exact kept.withdraw (kept.forgetHost owner name holds)

theorem unregisterHosts (kept : Kept property) (names : List String) (holds : property agent) :
    property (names.foldl (fun agent name => (agent.unregisterHost owner name).2) agent) := by
  induction names generalizing agent with
  | nil => exact holds
  | cons name rest ih => exact ih (kept.unregisterHost name holds)

theorem unregisterServer (kept : Kept property) (id : String) (holds : property agent) :
    property (agent.unregisterServer id).2 := by
  unfold Agent.unregisterServer
  split
  · exact holds
  · exact kept.setScheduler _ (kept.unregisterHosts _ (kept.forgetServer id holds))

theorem applyOrders (kept : Kept property) (orders : List Order) (now : Instant)
    (holds : property agent) : property (agent.applyOrders ref orders now).2 := by
  unfold Agent.applyOrders
  split
  · exact holds
  · exact kept.reschedule _ (kept.setHost ref _ holds)

theorem noteFault (kept : Kept property) (fault : Fault) (now : Instant) (holds : property agent) :
    property (agent.noteFault ref fault now).2 := by
  unfold Agent.noteFault
  split
  · exact holds
  · exact kept.setHost ref _ holds

end Kept

/-- No host is ever lost, only withdrawn. -/
theorem kept_host? (ref : HostRef) : Kept fun agent => ∃ host, agent.host? ref = some host where
  setHost {agent} other host := by
    intro ⟨before, found⟩
    obtain ⟨station, foundStation, rfl⟩ := host?_eq_some_iff.mp found
    rw [host?, getElem?_setHost, foundStation]
    split <;> exact ⟨_, rfl⟩
  setScheduler _ found := found
  forgetHost _ _ found := found
  forgetServer _ found := found

end Agent

namespace World

variable {world : World}

theorem interveneAll_induct {motive : World → Prop} (interventions : List Intervention)
    (step : ∀ {world : World} (intervention : Intervention), motive world →
      motive (world.intervene intervention))
    (start : motive world) : motive (world.interveneAll interventions) := by
  induction interventions generalizing world with
  | nil => exact start
  | cons intervention rest ih => exact ih (step intervention start)

theorem intervene_keeps {property : Agent → Prop} (kept : Agent.Kept property)
    (intervention : Intervention) (holds : property world.agent) :
    property (world.intervene intervention).agent := by
  cases intervention with
  | setClock now => exact holds
  | unregisterServer id => exact kept.unregisterServer id holds
  | unregisterHost server host =>
      unfold intervene
      dsimp only
      split
      · exact kept.unregisterHost host holds
      · exact holds
  | applyOrders server host orders =>
      unfold intervene
      dsimp only
      split
      · exact kept.applyOrders orders world.clock holds
      · exact holds
  | applyOrdersTo ref orders => exact kept.applyOrders orders world.clock holds
  | noteFault ref fault => exact kept.noteFault fault world.clock holds
  | withdrawHost ref => exact kept.withdraw holds

theorem interveneAll_keeps {property : Agent → Prop} (kept : Agent.Kept property)
    (interventions : List Intervention) (holds : property world.agent) :
    property (world.interveneAll interventions).agent :=
  interveneAll_induct interventions (motive := fun world => property world.agent)
    (intervene_keeps kept) holds

theorem reachable_intervene (intervention : Intervention) (reachable : world.agent.Reachable) :
    (world.intervene intervention).agent.Reachable := by
  cases intervention with
  | setClock now => exact reachable
  | unregisterServer id => exact reachable.perform (.unregisterServer id)
  | unregisterHost server host =>
      unfold intervene
      dsimp only
      split
      · exact reachable.perform (.unregisterHost _ host)
      · exact reachable
  | applyOrders server host orders =>
      unfold intervene
      dsimp only
      split
      · exact reachable.perform (.applyOrders _ orders world.clock)
      · exact reachable
  | applyOrdersTo ref orders => exact reachable.perform (.applyOrders ref orders world.clock)
  | noteFault ref fault => exact reachable.perform (.noteFault ref fault world.clock)
  | withdrawHost ref => exact reachable.perform (.withdraw ref)

theorem reachable_interveneAll (interventions : List Intervention)
    (reachable : world.agent.Reachable) : (world.interveneAll interventions).agent.Reachable :=
  interveneAll_induct interventions (motive := fun world => world.agent.Reachable)
    reachable_intervene reachable

end World

end CheckRounds
