import CheckRounds.Proofs.Agent.Registration

namespace CheckRounds

/-! Adding servers and hosts keeps an agent sound, and an agent is sound when it starts. -/

open Schedule (BucketRef Bucket Change Forest Scheduler)
open Schedule.Scheduler (rootRef)

namespace Agent

variable {agent : Agent} {ref : HostRef} {owner : ServerRef} {station : Station}

theorem getElem?_concat_eq_some_iff {α : Type} {list : List α} {added item : α} {index : Nat} :
    (list ++ [added])[index]? = some item ↔
      list[index]? = some item ∨ (index = list.length ∧ item = added) := by
  rw [List.getElem?_append]
  split
  · next before =>
      constructor
      · exact .inl
      · rintro (found | ⟨same, _⟩)
        · exact found
        · omega
  · next after =>
      have outside : list[index]? = none := List.getElem?_eq_none (by omega)
      rw [outside, List.getElem?_singleton]
      constructor
      · intro found
        split at found
        · next first =>
            rw [Option.some.injEq] at found
            exact .inr ⟨by omega, found.symm⟩
        · contradiction
      · rintro (found | ⟨same, rfl⟩)
        · contradiction
        · rw [if_pos (by omega)]

/-! ### Servers -/

/-- What a server starts with. -/
def newServer (agent : Agent) (config : ServerConfig) : Server :=
  { address := config.address
    portNumber := config.portNumber
    id := config.id
    refreshPeriod := config.refreshPeriod
    bucket := agent.scheduler.forest.size }

theorem server?_enrolServer {config : ServerConfig} {other : ServerRef} {server : Server} :
    (agent.enrolServer config).server? other = some server ↔
      agent.server? other = some server ∨
        (other = agent.servers.length ∧ server = agent.newServer config) :=
  getElem?_concat_eq_some_iff

theorem serverNamed?_enrolServer {config : ServerConfig} {id : String} :
    (agent.enrolServer config).serverNamed? id =
      if id = config.id then some agent.servers.length else agent.serverNamed? id :=
  SortedMap.get?_insert

theorem parent_enrolServer {config : ServerConfig} {ref : BucketRef} :
    (agent.enrolServer config).scheduler.forest.parent ref =
      if ref = agent.scheduler.forest.size then some (rootRef, config.id)
      else agent.scheduler.forest.parent ref := Forest.parent_plant

theorem parent_enrolServer_of_lt {config : ServerConfig} {ref : BucketRef}
    (inside : ref < agent.scheduler.forest.size) :
    (agent.enrolServer config).scheduler.forest.parent ref = agent.scheduler.forest.parent ref :=
  Forest.parent_plant_of_lt inside

theorem bucket_enrolServer_of_lt {config : ServerConfig} {ref : BucketRef}
    (inside : ref < agent.scheduler.forest.size) :
    (agent.enrolServer config).scheduler.forest.bucket ref = agent.scheduler.forest.bucket ref :=
  Forest.bucket_plant_of_lt inside

theorem Wired.enrolServer (wired : agent.Wired) (config : ServerConfig) :
    (agent.enrolServer config).Wired := by
  constructor
  case planted =>
    change rootRef < (Forest.plant _ _ _).size
    rw [Forest.size_plant]
    exact Nat.lt_succ_of_lt wired.planted
  case root => exact (parent_enrolServer_of_lt wired.planted).trans wired.root
  case server =>
    intro other server found
    rcases server?_enrolServer.mp found with before | ⟨_, rfl⟩
    · exact (parent_enrolServer_of_lt (wired.server_inside before)).trans (wired.server before)
    · exact parent_enrolServer.trans (if_pos rfl)
  case station =>
    intro ref station found
    obtain ⟨owner, server, foundServer, reporting⟩ := wired.station found
    exact ⟨owner, server, server?_enrolServer.mpr (.inl foundServer),
      (parent_enrolServer_of_lt (wired.station_inside found)).trans reporting⟩
  case serverApart =>
    intro first second server server' found found' same
    rcases server?_enrolServer.mp found with before | ⟨rfl, rfl⟩ <;>
      rcases server?_enrolServer.mp found' with before' | ⟨rfl, rfl⟩
    · exact wired.serverApart before before' same
    · exact absurd same (Nat.ne_of_lt (wired.server_inside before))
    · exact absurd same.symm (Nat.ne_of_lt (wired.server_inside before'))
    · rfl
  case stationApart => exact wired.stationApart
  case child =>
    intro ref link reporting
    rw [parent_enrolServer] at reporting
    split at reporting
    · next same =>
        exact .inl ⟨agent.servers.length, agent.newServer config,
          server?_enrolServer.mpr (.inr ⟨rfl, rfl⟩), same.symm⟩
    · rcases wired.child reporting with ⟨owner, server, found, same⟩ | host
      · exact .inl ⟨owner, server, server?_enrolServer.mpr (.inl found), same⟩
      · exact .inr host

theorem isInner_enrolServer {config : ServerConfig} {ref : BucketRef}
    (isInner : (agent.enrolServer config).IsInner ref) :
    agent.IsInner ref ∨ ref = agent.scheduler.forest.size := by
  rcases isInner with same | ⟨owner, server, found, rfl⟩
  · exact .inl (.inl same)
  · rcases server?_enrolServer.mp found with before | ⟨_, rfl⟩
    · exact .inl (.inr ⟨owner, server, before, rfl⟩)
    · exact .inr rfl

theorem Sound.enrolServer {config : ServerConfig} (sound : agent.Sound)
    (unknown : agent.serverNamed? config.id = none) : (agent.enrolServer config).Sound := by
  constructor
  case wired => exact sound.wired.enrolServer config
  case schedule =>
    exact sound.schedule.plant (fun _ isInner => isInner_enrolServer isInner) sound.wired.planted
  case listing =>
    intro ref station found
    rw [bucket_enrolServer_of_lt (sound.wired.station_inside found)]
    exact sound.listing found
  case keyed => exact sound.keyed
  case registered =>
    intro id other named
    rw [serverNamed?_enrolServer] at named
    split at named
    · next same =>
        rw [Option.some.injEq] at named
        exact ⟨agent.newServer config, server?_enrolServer.mpr (.inr ⟨named.symm, rfl⟩), same.symm⟩
    · obtain ⟨server, found, sameId⟩ := sound.registered named
      exact ⟨server, server?_enrolServer.mpr (.inl found), sameId⟩
  case enrolled =>
    intro other server name ref found enrolled
    rcases server?_enrolServer.mp found with before | ⟨_, rfl⟩
    · obtain ⟨station, foundStation, reporting⟩ := sound.enrolled before enrolled
      exact ⟨station, foundStation,
        (parent_enrolServer_of_lt (sound.wired.station_inside foundStation)).trans reporting⟩
    · contradiction
  case active =>
    intro ref station found present
    obtain ⟨id, other, server, named, foundServer, enrolled⟩ := sound.active found present
    refine ⟨id, other, server, ?_, server?_enrolServer.mpr (.inl foundServer), enrolled⟩
    rw [serverNamed?_enrolServer, if_neg]
    · exact named
    · rintro rfl
      rw [unknown] at named
      contradiction
  case idle => exact sound.idle

/-! ### Hosts -/

/-- What a host starts with on a server. -/
def newStation (agent : Agent) (server : Server) (config : HostConfig) : Station :=
  { host := { name := config.name, refreshPeriod := config.effectivePeriod server.refreshPeriod }
    bucket := agent.scheduler.forest.size }

/-- The agent after a host was added to a server. -/
def withHost (agent : Agent) (owner : ServerRef) (server : Server) (config : HostConfig) : Agent :=
  (agent.enrolHost server.bucket config server.refreshPeriod).modifyServer owner fun server =>
    { server with hosts := server.hosts.insert config.name agent.stations.length }

theorem getElem?_withHost {server : Server} {config : HostConfig} :
    (agent.withHost owner server config).stations[ref]? = some station ↔
      agent.stations[ref]? = some station ∨
        (ref = agent.stations.length ∧ station = agent.newStation server config) :=
  getElem?_concat_eq_some_iff

theorem server?_withHost {server : Server} {config : HostConfig} {other : ServerRef} :
    (agent.withHost owner server config).server? other =
      if owner = other then
        (agent.server? other).map fun server =>
          { server with hosts := server.hosts.insert config.name agent.stations.length }
      else agent.server? other := server?_modifyServer

/-- A server is still there after a host was added, with all its hosts. -/
theorem server?_withHost_of_before {server before : Server} {config : HostConfig} {other : ServerRef}
    (found : agent.server? owner = some server) (unknown : server.hosts.get? config.name = none)
    (foundBefore : agent.server? other = some before) :
    ∃ after, (agent.withHost owner server config).server? other = some after ∧
      after.bucket = before.bucket ∧ after.id = before.id ∧
        ∀ name ref, before.hosts.get? name = some ref → after.hosts.get? name = some ref := by
  rw [server?_withHost, foundBefore]
  split
  · next same =>
      refine ⟨_, rfl, rfl, rfl, ?_⟩
      intro name ref enrolled
      rw [SortedMap.get?_insert, if_neg]
      · exact enrolled
      · rintro rfl
        rw [← same, found, Option.some.injEq] at foundBefore
        rw [← foundBefore, unknown] at enrolled
        contradiction
  · exact ⟨before, rfl, rfl, rfl, fun _ _ enrolled => enrolled⟩

/-- A server after a host was added was there before, and has no other new host. -/
theorem before_of_server?_withHost {server after : Server} {config : HostConfig} {other : ServerRef}
    (foundAfter : (agent.withHost owner server config).server? other = some after) :
    ∃ before, agent.server? other = some before ∧ after.bucket = before.bucket ∧
      after.id = before.id ∧ ∀ name ref, after.hosts.get? name = some ref →
        before.hosts.get? name = some ref ∨
          (other = owner ∧ name = config.name ∧ ref = agent.stations.length) := by
  rw [server?_withHost] at foundAfter
  split at foundAfter
  · next same =>
      obtain ⟨before, foundBefore, rfl⟩ := Option.map_eq_some_iff.mp foundAfter
      refine ⟨before, foundBefore, rfl, rfl, ?_⟩
      intro name ref enrolled
      rw [SortedMap.get?_insert] at enrolled
      split at enrolled
      · next sameName =>
          rw [Option.some.injEq] at enrolled
          exact .inr ⟨same.symm, sameName, enrolled.symm⟩
      · exact .inl enrolled
  · exact ⟨after, foundAfter, rfl, rfl, fun _ _ enrolled => .inl enrolled⟩

theorem parent_withHost {server : Server} {config : HostConfig} {ref : BucketRef} :
    (agent.withHost owner server config).scheduler.forest.parent ref =
      if ref = agent.scheduler.forest.size then some (server.bucket, config.name)
      else agent.scheduler.forest.parent ref := Forest.parent_plant

theorem parent_withHost_of_lt {server : Server} {config : HostConfig} {ref : BucketRef}
    (inside : ref < agent.scheduler.forest.size) :
    (agent.withHost owner server config).scheduler.forest.parent ref =
      agent.scheduler.forest.parent ref := Forest.parent_plant_of_lt inside

theorem bucket_withHost_of_lt {server : Server} {config : HostConfig} {ref : BucketRef}
    (inside : ref < agent.scheduler.forest.size) :
    (agent.withHost owner server config).scheduler.forest.bucket ref =
      agent.scheduler.forest.bucket ref := Forest.bucket_plant_of_lt inside

/-- The new host is registered on the server, and its bucket reports to that of the server. -/
theorem hosting_withHost {server : Server} (config : HostConfig)
    (found : agent.server? owner = some server) :
    ∃ hosting, (agent.withHost owner server config).server? owner = some hosting ∧
      hosting.hosts.get? config.name = some agent.stations.length ∧
      (agent.withHost owner server config).scheduler.forest.parent
        (agent.newStation server config).bucket = some (hosting.bucket, config.name) := by
  refine ⟨{ server with hosts := server.hosts.insert config.name agent.stations.length }, ?_, ?_, ?_⟩
  · rw [server?_withHost, if_pos rfl, found]
    rfl
  · rw [SortedMap.get?_insert, if_pos rfl]
  · exact parent_withHost.trans (if_pos rfl)

theorem Wired.withHost {server : Server} {config : HostConfig} (wired : agent.Wired)
    (found : agent.server? owner = some server) (unknown : server.hosts.get? config.name = none) :
    (agent.withHost owner server config).Wired := by
  constructor
  case planted =>
    change rootRef < (Forest.plant _ _ _).size
    rw [Forest.size_plant]
    exact Nat.lt_succ_of_lt wired.planted
  case root => exact (parent_withHost_of_lt wired.planted).trans wired.root
  case server =>
    intro other after foundAfter
    obtain ⟨before, foundBefore, sameBucket, sameId, _⟩ := before_of_server?_withHost foundAfter
    rw [sameBucket, sameId, parent_withHost_of_lt (wired.server_inside foundBefore)]
    exact wired.server foundBefore
  case station =>
    intro ref station foundStation
    rcases getElem?_withHost.mp foundStation with before | ⟨_, rfl⟩
    · obtain ⟨other, server', foundServer, reporting⟩ := wired.station before
      obtain ⟨after, foundAfter, sameBucket, _⟩ :=
        server?_withHost_of_before found unknown foundServer
      refine ⟨other, after, foundAfter, ?_⟩
      rw [sameBucket, parent_withHost_of_lt (wired.station_inside before)]
      exact reporting
    · obtain ⟨hosting, foundHosting, _, reporting⟩ := hosting_withHost config found
      exact ⟨owner, hosting, foundHosting, reporting⟩
  case serverApart =>
    intro first second after after' foundAfter foundAfter' same
    obtain ⟨before, foundBefore, sameBucket, _⟩ := before_of_server?_withHost foundAfter
    obtain ⟨before', foundBefore', sameBucket', _⟩ := before_of_server?_withHost foundAfter'
    rw [sameBucket, sameBucket'] at same
    exact wired.serverApart foundBefore foundBefore' same
  case stationApart =>
    intro first second station station' foundStation foundStation' same
    rcases getElem?_withHost.mp foundStation with before | ⟨rfl, rfl⟩ <;>
      rcases getElem?_withHost.mp foundStation' with before' | ⟨rfl, rfl⟩
    · exact wired.stationApart before before' same
    · exact absurd same (Nat.ne_of_lt (wired.station_inside before))
    · exact absurd same.symm (Nat.ne_of_lt (wired.station_inside before'))
    · rfl
  case child =>
    intro ref link reporting
    rw [parent_withHost] at reporting
    split at reporting
    · next same =>
        exact .inr ⟨agent.stations.length, agent.newStation server config,
          getElem?_withHost.mpr (.inr ⟨rfl, rfl⟩), same.symm⟩
    · rcases wired.child reporting with ⟨other, before, foundBefore, rfl⟩ | ⟨host, station, before, same⟩
      · obtain ⟨after, foundAfter, sameBucket, _⟩ :=
          server?_withHost_of_before found unknown foundBefore
        exact .inl ⟨other, after, foundAfter, sameBucket⟩
      · exact .inr ⟨host, station, getElem?_withHost.mpr (.inl before), same⟩

theorem Wired.withStation {server : Server} {config : HostConfig} {new : Station} (wired : agent.Wired)
    (found : agent.server? owner = some server) (unknown : server.hosts.get? config.name = none)
    (sameBucket : new.bucket = agent.scheduler.forest.size) (sameName : new.host.name = config.name) :
    Wired { agent.withHost owner server config with stations := agent.stations ++ [new] } := by
  refine (wired.withHost found unknown).of_same ?_
  constructor
  case size => rfl
  case parent => exact fun _ => rfl
  case serverBefore => exact fun found => ⟨_, found, rfl, rfl⟩
  case serverAfter => exact fun found => ⟨_, found, rfl⟩
  case stationBefore =>
    intro ref station foundStation
    rcases getElem?_concat_eq_some_iff.mp foundStation with before | ⟨rfl, rfl⟩
    · exact ⟨station, getElem?_withHost.mpr (.inl before), rfl, rfl⟩
    · exact ⟨_, getElem?_withHost.mpr (.inr ⟨rfl, rfl⟩), sameBucket, sameName⟩
  case stationAfter =>
    intro ref station foundStation
    rcases getElem?_withHost.mp foundStation with before | ⟨rfl, rfl⟩
    · exact ⟨station, getElem?_concat_eq_some_iff.mpr (.inl before), rfl⟩
    · exact ⟨new, getElem?_concat_eq_some_iff.mpr (.inr ⟨rfl, rfl⟩), sameBucket⟩

/-- A new host without checks may be withdrawn from the start; any other one needs a registered
server. -/
theorem Sound.withStation {server : Server} {config : HostConfig} {new : Station} (sound : agent.Sound)
    (found : agent.server? owner = some server) (unknown : server.hosts.get? config.name = none)
    (sameBucket : new.bucket = agent.scheduler.forest.size) (sameName : new.host.name = config.name)
    (unchecked : new.host.checks = .empty)
    (named : new.host.withdrawn = false → agent.serverNamed? server.id = some owner) :
    Sound { agent.withHost owner server config with stations := agent.stations ++ [new] } := by
  obtain ⟨hosting, foundHosting, hosts, reportingNew⟩ := hosting_withHost config found
  have stations : ∀ {ref : HostRef} {station : Station}, (agent.stations ++ [new])[ref]? = some station ↔
      agent.stations[ref]? = some station ∨ (ref = agent.stations.length ∧ station = new) :=
    getElem?_concat_eq_some_iff
  constructor
  case wired => exact sound.wired.withStation found unknown sameBucket sameName
  case schedule =>
    refine sound.schedule.plant ?_ (sound.wired.server_inside found)
    rintro ref (same | ⟨other, after, foundAfter, rfl⟩)
    · exact .inl (.inl same)
    · obtain ⟨before, foundBefore, sameBucket, _⟩ := before_of_server?_withHost foundAfter
      exact .inl (.inr ⟨other, before, foundBefore, sameBucket.symm⟩)
  case listing =>
    intro ref station foundStation
    rcases stations.mp foundStation with before | ⟨_, rfl⟩
    · have kept : (agent.withHost owner server config).scheduler.forest.bucket station.bucket =
          agent.scheduler.forest.bucket station.bucket :=
        bucket_withHost_of_lt (sound.wired.station_inside before)
      exact (congrArg Bucket.Holds kept).trans (sound.listing before)
    · have fresh : (agent.withHost owner server config).scheduler.forest.bucket station.bucket =
          .empty ("host:" ++ config.name) := Forest.bucket_plant.trans (if_pos sameBucket)
      refine (congrArg Bucket.Holds fresh).trans ?_
      rw [unchecked]
      funext delay key
      apply propext
      exact iff_of_false (Bucket.not_holds_empty _ _ _) (not_listed_empty delay key)
  case keyed =>
    intro ref station foundStation
    rcases stations.mp foundStation with before | ⟨_, rfl⟩
    · exact sound.keyed before
    · rw [unchecked]
      exact keyed_empty
  case registered =>
    intro id other named
    obtain ⟨before, foundBefore, sameId⟩ := sound.registered named
    obtain ⟨after, foundAfter, _, sameId', _⟩ :=
      server?_withHost_of_before found unknown foundBefore
    exact ⟨after, foundAfter, sameId'.trans sameId⟩
  case enrolled =>
    intro other after name ref foundAfter enrolled
    obtain ⟨before, foundBefore, sameServer, _, hostsBefore⟩ :=
      before_of_server?_withHost foundAfter
    rcases hostsBefore name ref enrolled with enrolled | ⟨rfl, rfl, rfl⟩
    · obtain ⟨station, foundStation, reporting⟩ := sound.enrolled foundBefore enrolled
      have kept : (agent.withHost owner server config).scheduler.forest.parent station.bucket =
          agent.scheduler.forest.parent station.bucket :=
        parent_withHost_of_lt (sound.wired.station_inside foundStation)
      exact ⟨station, stations.mpr (.inl foundStation), kept.trans (sameServer ▸ reporting)⟩
    · cases foundHosting.symm.trans foundAfter
      exact ⟨new, stations.mpr (.inr ⟨rfl, rfl⟩), sameBucket ▸ reportingNew⟩
  case active =>
    intro ref station foundStation present
    rcases stations.mp foundStation with before | ⟨rfl, rfl⟩
    · obtain ⟨id, other, server', named', foundServer, enrolled⟩ := sound.active before present
      obtain ⟨after, foundAfter, _, _, hostsAfter⟩ :=
        server?_withHost_of_before found unknown foundServer
      exact ⟨id, other, after, named', foundAfter, hostsAfter _ _ enrolled⟩
    · exact ⟨server.id, owner, hosting, named present, foundHosting, sameName ▸ hosts⟩
  case idle =>
    intro ref station foundStation withdrawn
    rcases stations.mp foundStation with before | ⟨_, rfl⟩
    · exact sound.idle before withdrawn
    · exact unchecked

theorem Sound.withHost {server : Server} {config : HostConfig} (sound : agent.Sound)
    (found : agent.server? owner = some server) (named : agent.serverNamed? server.id = some owner)
    (unknown : server.hosts.get? config.name = none) :
    (agent.withHost owner server config).Sound :=
  sound.withStation found unknown rfl rfl rfl fun _ => named

/-- The server with a number is registered under its name. -/
def Registered (agent : Agent) (owner : ServerRef) : Prop :=
  ∃ server, agent.server? owner = some server ∧ agent.serverNamed? server.id = some owner

instance (agent : Agent) (owner : ServerRef) : Decidable (agent.Registered owner) :=
  decidable_of_iff ((agent.server? owner).any fun server => agent.serverNamed? server.id = some owner) <| by
    simp [Registered, Option.any_eq_true]

theorem registerHost_eq_ok {config : HostConfig} {after : Agent}
    (done : agent.registerHost owner config = .ok (ref, after)) :
    ∃ server, agent.server? owner = some server ∧ server.hosts.get? config.name = none ∧
      after = agent.withHost owner server config := by
  unfold registerHost at done
  split at done
  · contradiction
  · next server found =>
      split at done
      · contradiction
      · next unknown =>
          split at done
          · contradiction
          · rw [Except.ok.injEq, Prod.mk.injEq] at done
            refine ⟨server, found, ?_, done.2.symm⟩
            simpa [SortedMap.contains] using unknown

theorem Sound.registerHost {config : HostConfig} {after : Agent} (sound : agent.Sound)
    (registered : agent.Registered owner)
    (done : agent.registerHost owner config = .ok (ref, after)) :
    after.Sound ∧ after.Registered owner := by
  obtain ⟨server, found, unknown, rfl⟩ := registerHost_eq_ok done
  obtain ⟨server', found', named⟩ := registered
  rw [found, Option.some.injEq] at found'
  subst found'
  refine ⟨sound.withHost found named unknown, ?_⟩
  refine ⟨{ server with hosts := server.hosts.insert config.name agent.stations.length }, ?_, named⟩
  rw [server?_withHost, if_pos rfl, found]
  rfl

theorem Sound.registerHosts {after : Agent} (sound : agent.Sound)
    (registered : agent.Registered owner) (configs : List HostConfig)
    (done : agent.registerHosts owner configs = .ok after) : after.Sound := by
  induction configs generalizing agent with
  | nil =>
      rw [Agent.registerHosts, Except.ok.injEq] at done
      exact done ▸ sound
  | cons config rest ih =>
      rw [Agent.registerHosts] at done
      split at done
      · contradiction
      · next between registering =>
          obtain ⟨soundBetween, registeredBetween⟩ := sound.registerHost registered registering
          exact ih soundBetween registeredBetween done

theorem Sound.registerServer {config : ServerConfig} {after : Agent} (sound : agent.Sound)
    (done : agent.registerServer config = .ok (owner, after)) : after.Sound := by
  unfold Agent.registerServer at done
  split at done
  · contradiction
  · next unknown =>
      split at done
      · contradiction
      · split at done
        · contradiction
        · next filled filling =>
            rw [Except.ok.injEq, Prod.mk.injEq] at done
            have new : agent.serverNamed? config.id = none := by
              simpa [serverNamed?, SortedMap.contains] using unknown
            refine done.2 ▸ (sound.enrolServer new).registerHosts ?_ config.hosts filling
            refine ⟨agent.newServer config, server?_enrolServer.mpr (.inr ⟨rfl, rfl⟩), ?_⟩
            exact serverNamed?_enrolServer.trans (if_pos rfl)

theorem Sound.registerServers {after : Agent} (sound : agent.Sound) (configs : List ServerConfig)
    (done : agent.registerServers configs = .ok after) : after.Sound := by
  induction configs generalizing agent with
  | nil =>
      rw [Agent.registerServers, Except.ok.injEq] at done
      exact done ▸ sound
  | cons config rest ih =>
      rw [Agent.registerServers] at done
      split at done
      · contradiction
      · next registering => exact ih (sound.registerServer registering) done

/-! ### Starting -/

theorem sound_empty (config : AgentConfig) : (empty config).Sound := by
  have inner : (empty config).IsInner = (· = rootRef) := by
    funext ref
    apply propext
    constructor
    · rintro (same | ⟨_, _, found, _⟩)
      · exact same
      · contradiction
    · exact .inl
  have unlinked : ∀ ref, (empty config).scheduler.forest.parent ref = none := by
    intro ref
    refine Forest.parent_plant.trans ?_
    split <;> rfl
  constructor
  case wired =>
    constructor
    case planted => exact Nat.zero_lt_one
    case root => exact unlinked rootRef
    case child =>
      intro ref link reporting
      rw [unlinked] at reporting
      contradiction
    all_goals
      intros
      contradiction
  case schedule => exact inner ▸ Scheduler.sound_withRoot "root"
  all_goals
    intros
    contradiction

theorem sound_create {config : Config} (done : create config = .ok agent) : agent.Sound := by
  unfold create at done
  split at done
  · contradiction
  · exact (sound_empty config.agent).registerServers config.servers done

end Agent

end CheckRounds
