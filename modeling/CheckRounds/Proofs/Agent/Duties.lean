import CheckRounds.Proofs.Agent.MapHosts
import CheckRounds.Proofs.Exchange
import CheckRounds.Proofs.Host.Duties
import CheckRounds.Proofs.Refresh

namespace CheckRounds

/-! An agent without what its checks have collected.

Whatever is done to the hosts, the servers and the schedule is done in the same way when
the values are left out.  So agents that differ in values only stay such agents, and what
they schedule and what they know of their hosts is the same.
-/

namespace Agent

/-- The agent as if no check had ever had a value. -/
def bare (agent : Agent) : Agent :=
  { agent with stations := agent.stations.map fun station => { station with host := station.host.bare } }

variable (agent : Agent) (ref : HostRef)

theorem bare_eq : agent.bare = agent.mapHosts fun _ => Host.bare := by
  have sameStations : agent.bare.stations = (agent.mapHosts fun _ => Host.bare).stations := by
    refine List.ext_getElem? fun other => ?_
    rw [getElem?_mapHosts]
    exact List.getElem?_map
  exact congrArg (fun stations => { agent with stations }) sameStations

theorem host_bare : agent.bare.host ref = (agent.host ref).bare := by
  rw [bare_eq, host, host, host?_mapHosts]
  cases agent.host? ref <;> rfl

/-! ### Changes to hosts -/

theorem bare_withdraw : (agent.withdraw ref).bare = agent.bare.withdraw ref := by
  rw [bare_eq, bare_eq, mapHosts_withdraw fun host => host.bare_withdraw]

theorem bare_applyOrders (orders : List Order) (now : Instant) :
    (agent.applyOrders ref orders now).2.bare = (agent.bare.applyOrders ref orders now).2 := by
  rw [bare_eq, bare_eq, mapHosts_applyOrders orders now fun host _ => host.bare_reconcile orders now]

theorem bare_noteFault (fault : Fault) (now : Instant) :
    (agent.noteFault ref fault now).2.bare = (agent.bare.noteFault ref fault now).2 := by
  rw [bare_eq, bare_eq, mapHosts_noteFault fault now fun host => host.bare_noteFault fault now]

variable {agent ref} in
/-- To put a host in its own place changes nothing. -/
theorem setHost_of_found {host : Host} (found : agent.host? ref = some host) :
    agent.setHost ref host = agent := by
  obtain ⟨station, foundStation, rfl⟩ := host?_eq_some_iff.mp found
  have sameStations : (agent.setHost ref station.host).stations = agent.stations := by
    refine List.ext_getElem? fun other => ?_
    rw [getElem?_setHost]
    split
    · next same =>
        rw [← same, foundStation]
        rfl
    · rfl
  exact congrArg (fun stations => { agent with stations }) sameStations

/-- Without the values it cannot be told that one was kept. -/
theorem bare_keepValue (key value : String) (now : Instant) :
    (agent.keepValue ref key value now).bare = agent.bare := by
  unfold keepValue
  cases found : agent.host? ref with
  | none => rfl
  | some host =>
      have foundBare : (agent.mapHosts fun _ => Host.bare).host? ref = some host.bare := by
        rw [host?_mapHosts, found]
        rfl
      dsimp only
      rw [bare_eq, bare_eq, mapHosts_setHost, host.bare_keepValue, setHost_of_found foundBare]

/-! ### Removals -/

theorem bare_unregisterHost (owner : ServerRef) (name : String) :
    (agent.unregisterHost owner name).2.bare = (agent.bare.unregisterHost owner name).2 := by
  rw [bare_eq, bare_eq, mapHosts_unregisterHost (fun _ host => host.bare_withdraw)]

theorem bare_unregisterServer (id : String) :
    (agent.unregisterServer id).2.bare = (agent.bare.unregisterServer id).2 := by
  rw [bare_eq, bare_eq, mapHosts_unregisterServer (fun _ host => host.bare_withdraw)]

/-! ### Duties -/

/-- The hosts have the same checks with the same duties, what is known of their refreshes is the
same, and so are the buckets at all levels and the timers. -/
structure SameDuties (before after : Agent) : Prop where
  scheduler : after.scheduler = before.scheduler
  bucketOf : ∀ ref, after.bucketOf ref = before.bucketOf ref
  serverBucketOf : ∀ ref, after.serverBucketOf ref = before.serverBucketOf ref
  keys : ∀ ref, (after.host ref).checks.keys = (before.host ref).checks.keys
  duty : ∀ ref key, ((after.host ref).checks.get? key).map Check.duty =
    ((before.host ref).checks.get? key).map Check.duty
  refresh : ∀ ref, (after.host ref).refresh = (before.host ref).refresh
  withdrawn : ∀ ref, (after.host ref).withdrawn = (before.host ref).withdrawn

variable {agent ref} {before middle after : Agent}

theorem SameDuties.trans (first : before.SameDuties middle) (second : middle.SameDuties after) :
    before.SameDuties after where
  scheduler := second.scheduler.trans first.scheduler
  bucketOf ref := (second.bucketOf ref).trans (first.bucketOf ref)
  serverBucketOf ref := (second.serverBucketOf ref).trans (first.serverBucketOf ref)
  keys ref := (second.keys ref).trans (first.keys ref)
  duty ref key := (second.duty ref key).trans (first.duty ref key)
  refresh ref := (second.refresh ref).trans (first.refresh ref)
  withdrawn ref := (second.withdrawn ref).trans (first.withdrawn ref)

theorem servers_of_bare (same : after.bare = before.bare) : after.servers = before.servers := by
  have servers : after.bare.servers = before.bare.servers := congrArg Agent.servers same
  exact servers

theorem registered_of_bare (same : after.bare = before.bare) :
    after.registered = before.registered := by
  have registered : after.bare.registered = before.bare.registered := congrArg Agent.registered same
  exact registered

/-- An agent has the duties that it has without its values. -/
theorem sameDuties_bare (agent : Agent) : agent.SameDuties agent.bare where
  scheduler := rfl
  bucketOf _ := by rw [bare_eq, bucketOf_mapHosts]
  serverBucketOf _ := rfl
  keys ref := by
    rw [host_bare, Host.bare, Host.bareChecks, SortedMap.keys, SortedMap.toList_mapValues, List.map_map]
    rfl
  duty ref key := by
    rw [host_bare, Host.bare, Host.get?_bareChecks, Option.map_map]
    rfl
  refresh ref := by rw [host_bare, Host.bare]
  withdrawn ref := by rw [host_bare, Host.bare]

theorem SameDuties.symm (same : before.SameDuties after) : after.SameDuties before where
  scheduler := same.scheduler.symm
  bucketOf ref := (same.bucketOf ref).symm
  serverBucketOf ref := (same.serverBucketOf ref).symm
  keys ref := (same.keys ref).symm
  duty ref key := (same.duty ref key).symm
  refresh ref := (same.refresh ref).symm
  withdrawn ref := (same.withdrawn ref).symm

/-- Agents that differ in values only have the same duties. -/
theorem SameDuties.of_bare (same : after.bare = before.bare) : before.SameDuties after := by
  refine before.sameDuties_bare.trans ?_
  rw [← same]
  exact after.sameDuties_bare.symm

/-- What is counted of the submissions to a server has no part in the duties. -/
theorem sameDuties_setStats (agent : Agent) (owner : ServerRef)
    (count : SubmissionTotals → SubmissionTotals) : agent.SameDuties
      (agent.modifyServer owner fun server => { server with stats := count server.stats }) where
  scheduler := rfl
  bucketOf _ := rfl
  serverBucketOf ref := by
    rw [serverBucketOf, serverBucketOf, server?_modifyServer]
    by_cases same : owner = ref
    · rw [if_pos same]
      cases agent.server? ref <;> rfl
    · rw [if_neg same]
      rfl
  keys _ := rfl
  duty _ _ := rfl
  refresh _ := rfl
  withdrawn _ := rfl

end Agent

namespace World

/-- It is the same time, and the agents differ in values only. -/
structure Alike (left right : World) : Prop where
  agent : left.agent.bare = right.agent.bare
  clock : left.clock = right.clock

variable {left right : World}

theorem Alike.mapAgent {change : Agent → Agent} (alike : left.Alike right)
    (bare_change : ∀ agent, (change agent).bare = change agent.bare) :
    (left.mapAgent change).Alike (right.mapAgent change) := by
  refine ⟨?_, alike.clock⟩
  change (change left.agent).bare = (change right.agent).bare
  rw [bare_change, alike.agent, bare_change]

theorem Alike.hostNamed?_eq (alike : left.Alike right) (owner : ServerRef) (name : String) :
    left.agent.hostNamed? owner name = right.agent.hostNamed? owner name := by
  rw [Agent.hostNamed?, Agent.hostNamed?, Agent.server?, Agent.server?, Agent.servers_of_bare alike.agent]

theorem Alike.serverNamed?_eq (alike : left.Alike right) (id : String) :
    left.agent.serverNamed? id = right.agent.serverNamed? id := by
  rw [Agent.serverNamed?, Agent.serverNamed?, Agent.registered_of_bare alike.agent]

/-- Whatever else happens, happens to both in the same way. -/
theorem Alike.intervene (alike : left.Alike right) (intervention : Intervention) :
    (left.intervene intervention).Alike (right.intervene intervention) := by
  cases intervention with
  | setClock now => exact ⟨alike.agent, rfl⟩
  | unregisterServer id => exact alike.mapAgent fun agent => agent.bare_unregisterServer id
  | unregisterHost server host =>
      unfold World.intervene
      dsimp only
      rw [alike.serverNamed?_eq]
      split
      · next owner _ => exact alike.mapAgent fun agent => agent.bare_unregisterHost owner host
      · exact alike
  | applyOrders server host orders =>
      have sameHost : left.hostNamed? server host = right.hostNamed? server host := by
        rw [World.hostNamed?, World.hostNamed?, alike.serverNamed?_eq]
        cases right.agent.serverNamed? server with
        | none => rfl
        | some owner => exact alike.hostNamed?_eq owner host
      unfold World.intervene
      dsimp only
      rw [sameHost, alike.clock]
      split
      · next ref _ => exact alike.mapAgent fun agent => agent.bare_applyOrders ref orders right.clock
      · exact alike
  | applyOrdersTo ref orders =>
      unfold World.intervene
      rw [alike.clock]
      exact alike.mapAgent fun agent => agent.bare_applyOrders ref orders right.clock
  | noteFault ref fault =>
      unfold World.intervene
      rw [alike.clock]
      exact alike.mapAgent fun agent => agent.bare_noteFault ref fault right.clock
  | withdrawHost ref => exact alike.mapAgent fun agent => agent.bare_withdraw ref

theorem Alike.interveneAll (alike : left.Alike right) (interventions : List Intervention) :
    (left.interveneAll interventions).Alike (right.interveneAll interventions) := by
  induction interventions generalizing left right with
  | nil => exact alike
  | cons intervention rest ih => exact ih (alike.intervene intervention)

end World

end CheckRounds
