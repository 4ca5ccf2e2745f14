import CheckRounds.Proofs.Agent.Enrolment
import Mathlib.Data.List.Basic

namespace CheckRounds

/-! Changing what is kept of every host, whatever the schedule is.

What commutes with an operation on one host commutes with that operation on the agent.
-/

open Schedule (Change)

namespace Agent

/-- The agent with every host changed, each in a way that may go by its number. -/
def mapHosts (change : HostRef → Host → Host) (agent : Agent) : Agent :=
  { agent with
    stations := agent.stations.mapIdx fun ref station =>
      { station with host := change ref station.host } }

variable {change : HostRef → Host → Host} {agent : Agent} {ref : HostRef} {owner : ServerRef}

theorem getElem?_mapHosts : (agent.mapHosts change).stations[ref]? =
    agent.stations[ref]?.map fun station => { station with host := change ref station.host } :=
  List.getElem?_mapIdx

theorem length_mapHosts : (agent.mapHosts change).stations.length = agent.stations.length :=
  List.length_mapIdx

theorem host?_mapHosts : (agent.mapHosts change).host? ref = (agent.host? ref).map (change ref) := by
  rw [host?, host?, getElem?_mapHosts]
  cases agent.stations[ref]? <;> rfl

theorem bucketOf_mapHosts : (agent.mapHosts change).bucketOf ref = agent.bucketOf ref := by
  rw [bucketOf, bucketOf, getElem?_mapHosts]
  cases agent.stations[ref]? <;> rfl

theorem mapHosts_eq_self (same : ∀ ref host, change ref host = host) :
    agent.mapHosts change = agent := by
  have sameStations : (agent.mapHosts change).stations = agent.stations := by
    refine List.ext_getElem? fun other => ?_
    rw [getElem?_mapHosts]
    cases agent.stations[other]? with
    | none => rfl
    | some station => rw [Option.map_some, same]
  exact congrArg (fun stations => { agent with stations }) sameStations

/-! ### Changes to one host -/

theorem mapHosts_setHost (host : Host) : (agent.setHost ref host).mapHosts change =
    (agent.mapHosts change).setHost ref (change ref host) := by
  have sameStations : ((agent.setHost ref host).mapHosts change).stations =
      ((agent.mapHosts change).setHost ref (change ref host)).stations := by
    refine List.ext_getElem? fun other => ?_
    rw [getElem?_mapHosts, getElem?_setHost, getElem?_setHost, getElem?_mapHosts]
    split
    · next same =>
        subst same
        cases agent.stations[ref]? <;> rfl
    · rfl
  exact congrArg (fun stations => { agent with stations }) sameStations

theorem mapHosts_reschedule (changes : List (Change String)) :
    (agent.reschedule ref changes).mapHosts change = (agent.mapHosts change).reschedule ref changes := by
  unfold reschedule
  rw [getElem?_mapHosts]
  cases agent.stations[ref]? <;> rfl

theorem mapHosts_withdraw
    (commutes : ∀ host, (change ref host).withdraw = (host.withdraw.1, change ref host.withdraw.2)) :
    (agent.withdraw ref).mapHosts change = (agent.mapHosts change).withdraw ref := by
  unfold withdraw
  rw [host?_mapHosts]
  cases agent.host? ref with
  | none => rfl
  | some host =>
      dsimp only [Option.map_some]
      rw [commutes host, mapHosts_reschedule, mapHosts_setHost]

theorem mapHosts_applyOrders (orders : List Order) (now : Instant)
    (commutes : ∀ host, agent.host? ref = some host → (change ref host).reconcile orders now =
      { host.reconcile orders now with host := change ref (host.reconcile orders now).host }) :
    (agent.applyOrders ref orders now).2.mapHosts change =
      ((agent.mapHosts change).applyOrders ref orders now).2 := by
  unfold applyOrders
  rw [host?_mapHosts]
  cases found : agent.host? ref with
  | none => rfl
  | some host =>
      dsimp only [Option.map_some]
      rw [commutes host found, mapHosts_reschedule, mapHosts_setHost]

/-- The agent with a host, if it is there, set to what a function makes of it. -/
def modifyHost (agent : Agent) (ref : HostRef) (modify : Host → Host) : Agent :=
  match agent.host? ref with
  | none => agent
  | some host => agent.setHost ref (modify host)

theorem noteFault_eq (fault : Fault) (now : Instant) : (agent.noteFault ref fault now).2 =
    agent.modifyHost ref fun host => host.noteFault fault now := by
  unfold noteFault modifyHost
  cases agent.host? ref <;> rfl

theorem hostState_eq (now : Instant) : (agent.hostState ref now).2 =
    agent.modifyHost ref fun host => (host.stateAt now).2 := by
  unfold hostState modifyHost
  cases agent.host? ref <;> rfl

theorem wantsRefresh_eq (now : Instant) : (agent.wantsRefresh ref now).2 =
    agent.modifyHost ref fun host => (host.wantsRefresh now).2 := by
  unfold wantsRefresh modifyHost
  cases agent.host? ref <;> rfl

theorem keepValue_eq_modifyHost (key value : String) (now : Instant) :
    agent.keepValue ref key value now = agent.modifyHost ref fun host => host.keepValue key value now := rfl

theorem mapHosts_modifyHost {modify : Host → Host}
    (commutes : ∀ host, modify (change ref host) = change ref (modify host)) :
    (agent.modifyHost ref modify).mapHosts change = (agent.mapHosts change).modifyHost ref modify := by
  unfold modifyHost
  rw [host?_mapHosts]
  cases agent.host? ref with
  | none => rfl
  | some host =>
      dsimp only [Option.map_some]
      rw [commutes host, mapHosts_setHost]

theorem mapHosts_noteFault (fault : Fault) (now : Instant)
    (commutes : ∀ host, (change ref host).noteFault fault now = change ref (host.noteFault fault now)) :
    (agent.noteFault ref fault now).2.mapHosts change =
      ((agent.mapHosts change).noteFault ref fault now).2 := by
  rw [noteFault_eq, noteFault_eq, mapHosts_modifyHost commutes]

theorem mapHosts_hostState (now : Instant)
    (commutes : ∀ host, ((change ref host).stateAt now).2 = change ref (host.stateAt now).2) :
    (agent.hostState ref now).2.mapHosts change = ((agent.mapHosts change).hostState ref now).2 := by
  rw [hostState_eq, hostState_eq, mapHosts_modifyHost commutes]

theorem mapHosts_wantsRefresh (now : Instant)
    (commutes : ∀ host, ((change ref host).wantsRefresh now).2 = change ref (host.wantsRefresh now).2) :
    (agent.wantsRefresh ref now).2.mapHosts change =
      ((agent.mapHosts change).wantsRefresh ref now).2 := by
  rw [wantsRefresh_eq, wantsRefresh_eq, mapHosts_modifyHost commutes]

theorem mapHosts_keepValue (key value : String) (now : Instant)
    (commutes : ∀ host, (change ref host).keepValue key value now =
      change ref (host.keepValue key value now)) :
    (agent.keepValue ref key value now).mapHosts change =
      (agent.mapHosts change).keepValue ref key value now := by
  rw [keepValue_eq_modifyHost, keepValue_eq_modifyHost, mapHosts_modifyHost commutes]

/-! ### Removals -/

section

variable (commutes : ∀ ref host,
  (change ref host).withdraw = (host.withdraw.1, change ref host.withdraw.2))
include commutes

theorem mapHosts_unregisterHost (name : String) :
    (agent.unregisterHost owner name).2.mapHosts change =
      ((agent.mapHosts change).unregisterHost owner name).2 := by
  have sameName : (agent.mapHosts change).hostNamed? owner name = agent.hostNamed? owner name := rfl
  unfold unregisterHost
  rw [sameName]
  cases agent.hostNamed? owner name with
  | none => rfl
  | some host => exact mapHosts_withdraw (commutes host)

theorem mapHosts_unregisterHosts (names : List String) :
    (agent.unregisterHosts owner names).mapHosts change =
      (agent.mapHosts change).unregisterHosts owner names := by
  unfold unregisterHosts
  induction names generalizing agent with
  | nil => rfl
  | cons name rest ih => rw [List.foldl_cons, ih, mapHosts_unregisterHost commutes, List.foldl_cons]

theorem mapHosts_unregisterServer (id : String) :
    (agent.unregisterServer id).2.mapHosts change = ((agent.mapHosts change).unregisterServer id).2 := by
  have sameServer : (agent.mapHosts change).serverNamed? id = agent.serverNamed? id := rfl
  unfold unregisterServer
  rw [sameServer]
  cases agent.serverNamed? id with
  | none => rfl
  | some owner =>
      let unregistered : Agent := { agent with registered := agent.registered.erase id }
      let names := ((agent.server? owner).map fun server => server.hosts.keys).getD []
      have emptied := @mapHosts_unregisterHosts _ unregistered owner commutes names
      let after := unregistered.unregisterHosts owner names
      change { after.mapHosts change with
          scheduler := (after.mapHosts change).scheduler.applyAll Schedule.Scheduler.rootRef
            ((after.mapHosts change).scheduler.root.removalChanges id) } = _
      rw [emptied]
      rfl

end

/-! ### Registrations -/

/-- Hosts that are yet to come are left as they are. -/
def Spares (change : HostRef → Host → Host) (agent : Agent) : Prop :=
  ∀ ref host, agent.stations.length ≤ ref → change ref host = host

theorem mapHosts_withHost (spares : Spares change agent) (server : Server) (config : HostConfig) :
    (agent.withHost owner server config).mapHosts change =
      (agent.mapHosts change).withHost owner server config := by
  unfold withHost enrolHost mapHosts modifyServer
  dsimp only
  rw [List.mapIdx_concat, List.length_mapIdx, spares _ _ (Nat.le_refl _)]

theorem registerHost_mapHosts (spares : Spares change agent) (config : HostConfig) :
    (agent.mapHosts change).registerHost owner config =
      (agent.registerHost owner config).map fun done => (done.1, done.2.mapHosts change) := by
  have sameServer : (agent.mapHosts change).server? owner = agent.server? owner := rfl
  unfold registerHost
  rw [sameServer]
  cases agent.server? owner with
  | none => rfl
  | some server =>
      dsimp only
      split
      · rfl
      · split
        · rfl
        · refine congrArg Except.ok (Prod.ext length_mapHosts ?_)
          exact (mapHosts_withHost spares server config).symm

theorem length_registerHost {config : HostConfig} {after : Agent}
    (done : agent.registerHost owner config = .ok (ref, after)) :
    ref = agent.stations.length ∧ after.stations.length = agent.stations.length + 1 := by
  have number : ref = agent.stations.length := by
    unfold registerHost at done
    split at done
    · contradiction
    · split at done
      · contradiction
      · split at done
        · contradiction
        · rw [Except.ok.injEq, Prod.mk.injEq] at done
          exact done.1.symm
  obtain ⟨server, _, _, rfl⟩ := registerHost_eq_ok done
  exact ⟨number, List.length_append⟩

theorem registerHosts_mapHosts (spares : Spares change agent) (configs : List HostConfig) :
    (agent.mapHosts change).registerHosts owner configs =
      (agent.registerHosts owner configs).map (mapHosts change) := by
  induction configs generalizing agent with
  | nil => rfl
  | cons config rest ih =>
      rw [registerHosts, registerHosts, registerHost_mapHosts spares]
      cases registering : agent.registerHost owner config with
      | error fault => rfl
      | ok done =>
          obtain ⟨ref, after⟩ := done
          obtain ⟨_, longer⟩ := length_registerHost registering
          have more : agent.stations.length ≤ after.stations.length := by omega
          exact ih fun ref host later => spares ref host (Nat.le_trans more later)

theorem registerServer_mapHosts (spares : Spares change agent) (config : ServerConfig) :
    (agent.mapHosts change).registerServer config =
      (agent.registerServer config).map fun done => (done.1, done.2.mapHosts change) := by
  have sparesEnrolled : Spares change (agent.enrolServer config) := spares
  have filled : ((agent.enrolServer config).mapHosts change).registerHosts agent.servers.length
      config.hosts = ((agent.enrolServer config).registerHosts agent.servers.length config.hosts).map
        (mapHosts change) := registerHosts_mapHosts sparesEnrolled config.hosts
  have sameRegistered : (agent.mapHosts change).registered = agent.registered := rfl
  have sameEnrolled : (agent.mapHosts change).enrolServer config =
      (agent.enrolServer config).mapHosts change := rfl
  have sameServers : (agent.mapHosts change).servers = agent.servers := rfl
  unfold registerServer
  rw [sameRegistered, sameEnrolled, sameServers, filled]
  split
  · rfl
  · split
    · rfl
    · cases (agent.enrolServer config).registerHosts agent.servers.length config.hosts <;> rfl

end Agent

end CheckRounds
