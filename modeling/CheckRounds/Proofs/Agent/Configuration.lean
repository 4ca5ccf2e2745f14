import CheckRounds.Proofs.Agent.Reachable
import CheckRounds.Proofs.Config

namespace CheckRounds

/-! Registering servers and hosts succeeds exactly when what is to be registered is valid and
new.  It never fails half way, adds what is configured, and touches nothing that is there.
-/

open Schedule (BucketRef Forest)
open Schedule.Scheduler (rootRef)

/-- A host as it was configured, with nothing known of it yet. -/
def HostConfig.asHost (config : HostConfig) (inherited : Nat) : Host :=
  { name := config.name
    refreshPeriod := config.refreshPeriod.getD inherited
    refresh := { state := .init } }

namespace Agent

variable {agent between after : Agent} {owner : ServerRef}

/-- What was there is there as it was.  Buckets that are new are empty. -/
structure Keeps (before after : Agent) : Prop where
  host : ∀ ref host, before.host? ref = some host → after.host? ref = some host
  bucket : ∀ ref, (after.scheduler.bucket ref).entries = (before.scheduler.bucket ref).entries
  timers : after.scheduler.timers = before.scheduler.timers
  journal : after.scheduler.journal = before.scheduler.journal
  settings : after.settings = before.settings
  refreshSweep : after.refreshSweep = before.refreshSweep
  timeout : after.timeout = before.timeout

/-- The server with a number is as it was configured, and so are its hosts. -/
structure HasServer (agent : Agent) (owner : ServerRef) (config : ServerConfig) : Prop where
  server : ∃ server, agent.server? owner = some server ∧ server.address = config.address ∧
    server.portNumber = config.portNumber ∧ server.id = config.id ∧
      server.refreshPeriod = config.refreshPeriod ∧ server.stats = {}
  names : ∀ name, (agent.hostNamed? owner name).isSome ↔ name ∈ config.hosts.map (·.name)
  host : ∀ host ∈ config.hosts, ∃ ref, agent.hostNamed? owner host.name = some ref ∧
    agent.host? ref = some (host.asHost config.refreshPeriod)

structure AddsServer (before after : Agent) (owner : ServerRef) (config : ServerConfig) : Prop where
  keeps : before.Keeps after
  new : before.server? owner = none
  named : ∀ id, after.serverNamed? id = if id = config.id then some owner else before.serverNamed? id
  others : ∀ other ≠ owner, after.server? other = before.server? other
  added : after.HasServer owner config

structure AddsHost (before after : Agent) (owner : ServerRef) (ref : HostRef) (config : HostConfig) :
    Prop where
  keeps : before.Keeps after
  new : before.host? ref = none
  named : ∀ id, after.serverNamed? id = before.serverNamed? id
  others : ∀ other ≠ owner, after.server? other = before.server? other
  added : ∃ server hosts, before.server? owner = some server ∧
    after.server? owner = some { server with hosts } ∧
    (∀ name, hosts.get? name = if name = config.name then some ref else server.hosts.get? name) ∧
    after.host? ref = some (config.asHost server.refreshPeriod)

/-- An agent whose servers and hosts are those of a configuration, and on which nothing is
scheduled. -/
structure StartsAs (agent : Agent) (config : Config) : Prop where
  names : ∀ id, (agent.serverNamed? id).isSome ↔ id ∈ config.servers.map (·.id)
  server : ∀ server ∈ config.servers, ∃ owner, agent.serverNamed? server.id = some owner ∧
    agent.HasServer owner server
  buckets : ∀ ref, (agent.scheduler.bucket ref).entries = .empty
  timers : agent.timerDelays = []
  settings : agent.settings = ⟨config.agent.policy, config.agent.collation, config.agent.collationDir⟩
  refreshSweep : agent.refreshSweep = config.agent.refreshSweep
  timeout : agent.timeout = .ofSeconds config.agent.timeout

/-! ### What is kept -/

theorem Keeps.refl (agent : Agent) : agent.Keeps agent :=
  ⟨fun _ _ found => found, fun _ => rfl, rfl, rfl, rfl, rfl, rfl⟩

theorem Keeps.trans (first : agent.Keeps between) (second : between.Keeps after) :
    agent.Keeps after where
  host ref host found := second.host ref host (first.host ref host found)
  bucket ref := (second.bucket ref).trans (first.bucket ref)
  timers := second.timers.trans first.timers
  journal := second.journal.trans first.journal
  settings := second.settings.trans first.settings
  refreshSweep := second.refreshSweep.trans first.refreshSweep
  timeout := second.timeout.trans first.timeout

theorem entries_plant {forest : Forest} {name : String} {link : Option (BucketRef × String)}
    {ref : BucketRef} : ((forest.plant name link).bucket ref).entries = (forest.bucket ref).entries := by
  rw [Forest.bucket_plant]
  split
  · next same =>
      rw [same, Forest.bucket_of_size_le (Nat.le_refl _)]
      rfl
  · rfl

theorem keeps_enrolServer (config : ServerConfig) : agent.Keeps (agent.enrolServer config) where
  host _ _ found := found
  bucket _ := entries_plant
  timers := rfl
  journal := rfl
  settings := rfl
  refreshSweep := rfl
  timeout := rfl

theorem keeps_withHost (server : Server) (config : HostConfig) :
    agent.Keeps (agent.withHost owner server config) where
  host ref host found := by
    obtain ⟨station, foundStation, rfl⟩ := Option.map_eq_some_iff.mp found
    exact Option.map_eq_some_iff.mpr ⟨station, getElem?_withHost.mpr (.inl foundStation), rfl⟩
  bucket _ := entries_plant
  timers := rfl
  journal := rfl
  settings := rfl
  refreshSweep := rfl
  timeout := rfl

/-- A server stays as configured while it and its hosts are left alone. -/
theorem HasServer.of_keeps {config : ServerConfig} (has : agent.HasServer owner config)
    (keeps : agent.Keeps after) (same : after.server? owner = agent.server? owner) :
    after.HasServer owner config where
  server := by
    rw [same]
    exact has.server
  names name := by
    rw [hostNamed?, same]
    exact has.names name
  host host member := by
    obtain ⟨ref, named, found⟩ := has.host host member
    refine ⟨ref, ?_, keeps.host ref _ found⟩
    rw [hostNamed?, same]
    exact named

/-! ### Hosts -/

theorem host?_withHost (server : Server) (config : HostConfig) :
    (agent.withHost owner server config).host? agent.stations.length =
      some (config.asHost server.refreshPeriod) := by
  rw [host?, getElem?_withHost.mpr (.inr ⟨rfl, rfl⟩)]
  rfl

theorem server?_withHost_self {server : Server} {config : HostConfig}
    (found : agent.server? owner = some server) :
    (agent.withHost owner server config).server? owner =
      some { server with hosts := server.hosts.insert config.name agent.stations.length } := by
  rw [server?_withHost, if_pos rfl, found]
  rfl

theorem server?_withHost_of_ne {server : Server} {config : HostConfig} {other : ServerRef}
    (different : other ≠ owner) :
    (agent.withHost owner server config).server? other = agent.server? other := by
  rw [server?_withHost, if_neg different.symm]

theorem addsHost_withHost {server : Server} (config : HostConfig)
    (found : agent.server? owner = some server) :
    agent.AddsHost (agent.withHost owner server config) owner agent.stations.length config where
  keeps := keeps_withHost server config
  new := by rw [host?, List.getElem?_eq_none (Nat.le_refl _), Option.map_none]
  named _ := rfl
  others _ different := server?_withHost_of_ne different
  added := ⟨server, _, found, server?_withHost_self found, fun _ => SortedMap.get?_insert,
    host?_withHost server config⟩

theorem registerHost_of_valid {server : Server} {config : HostConfig}
    (found : agent.server? owner = some server) (new : server.hosts.get? config.name = none)
    (valid : config.Valid) : agent.registerHost owner config =
      .ok (agent.stations.length, agent.withHost owner server config) := by
  rw [registerHost, found]
  dsimp only
  rw [SortedMap.contains, new, if_neg (by decide), HostConfig.validate_iff.mpr valid]
  rfl

/-- Hosts with valid and new names are all registered, and nothing else happens. -/
theorem registerHosts_of_valid {server : Server} (configs : List HostConfig)
    (found : agent.server? owner = some server) (valid : ∀ config ∈ configs, config.Valid)
    (distinct : (configs.map (·.name)).Nodup)
    (new : ∀ config ∈ configs, server.hosts.get? config.name = none) :
    ∃ after hosts, agent.registerHosts owner configs = .ok after ∧ agent.Keeps after ∧
      after.registered = agent.registered ∧
      (∀ other ≠ owner, after.server? other = agent.server? other) ∧
      after.server? owner = some { server with hosts } ∧
      (∀ name, (hosts.get? name).isSome ↔
        (server.hosts.get? name).isSome ∨ name ∈ configs.map (·.name)) ∧
      (∀ name ref, server.hosts.get? name = some ref → hosts.get? name = some ref) ∧
      ∀ config ∈ configs, ∃ ref, hosts.get? config.name = some ref ∧
        after.host? ref = some (config.asHost server.refreshPeriod) := by
  induction configs generalizing agent server with
  | nil =>
      refine ⟨agent, server.hosts, rfl, .refl agent, rfl, fun _ _ => rfl, found, ?_, ?_, ?_⟩
      · simp
      · exact fun _ _ enrolled => enrolled
      · simp
  | cons config rest ih =>
      rw [List.forall_mem_cons] at valid new
      rw [List.map_cons, List.nodup_cons] at distinct
      have foundNext : (agent.withHost owner server config).server? owner =
          some { server with hosts := server.hosts.insert config.name agent.stations.length } :=
        server?_withHost_self found
      have newNext : ∀ other ∈ rest,
          (server.hosts.insert config.name agent.stations.length).get? other.name = none := by
        intro other member
        rw [SortedMap.get?_insert, if_neg]
        · exact new.2 other member
        · intro same
          exact distinct.1 (List.mem_map.mpr ⟨other, member, same⟩)
      obtain ⟨after, hosts, filled, keeps, registered, others, foundAfter, names, stays, enrolled⟩ :=
        ih foundNext valid.2 distinct.2 newNext
      have first : hosts.get? config.name = some agent.stations.length :=
        stays _ _ (SortedMap.get?_insert.trans (if_pos rfl))
      refine ⟨after, hosts, ?_, (keeps_withHost server config).trans keeps, registered, ?_, foundAfter,
        ?_, ?_, ?_⟩
      · rw [registerHosts, registerHost_of_valid found new.1 valid.1]
        exact filled
      · exact fun other different => (others other different).trans (server?_withHost_of_ne different)
      · intro name
        rw [names, SortedMap.get?_insert, List.map_cons, List.mem_cons]
        by_cases same : name = config.name <;> simp [same]
      · intro name ref before
        refine stays name ref ?_
        rw [SortedMap.get?_insert, if_neg]
        · exact before
        · rintro rfl
          rw [new.1] at before
          contradiction
      · rw [List.forall_mem_cons]
        exact ⟨⟨_, first, keeps.host _ _ (host?_withHost server config)⟩, enrolled⟩

/-- A host is refused by one of the guards, or added. -/
theorem registerHost_cases (agent : Agent) (owner : ServerRef) (config : HostConfig) :
    (agent.server? owner = none ∧ agent.registerHost owner config = .error (.other "no server")) ∨
    (∃ server, agent.server? owner = some server ∧ server.hosts.get? config.name ≠ none ∧
      agent.registerHost owner config = .error (.registeredHost config.name server.id)) ∨
    (∃ fault, config.validate = .error fault ∧ agent.registerHost owner config = .error fault) ∨
    ∃ server after, agent.server? owner = some server ∧ server.hosts.get? config.name = none ∧
      config.Valid ∧ agent.registerHost owner config = .ok (agent.stations.length, after) ∧
        agent.AddsHost after owner agent.stations.length config := by
  cases found : agent.server? owner with
  | none => exact .inl ⟨rfl, by rw [registerHost, found]⟩
  | some server =>
      cases known : server.hosts.get? config.name with
      | some ref =>
          refine .inr (.inl ⟨server, rfl, by rw [known]; exact Option.some_ne_none ref, ?_⟩)
          rw [registerHost, found]
          simp [SortedMap.contains, known]
      | none =>
          cases checked : config.validate with
          | error fault =>
              refine .inr (.inr (.inl ⟨fault, rfl, ?_⟩))
              rw [registerHost, found]
              simp [SortedMap.contains, known, checked]
          | ok _ =>
              have valid := HostConfig.validate_iff.mp checked
              exact .inr (.inr (.inr ⟨server, _, rfl, known, valid,
                registerHost_of_valid found known valid, addsHost_withHost config found⟩))

/-! ### Servers -/

theorem server?_enrolServer_of_ne {config : ServerConfig} {other : ServerRef}
    (different : other ≠ agent.servers.length) :
    (agent.enrolServer config).server? other = agent.server? other := by
  apply Option.ext
  intro server
  rw [server?_enrolServer]
  exact or_iff_left fun ⟨same, _⟩ => different same

theorem server?_enrolServer_self (agent : Agent) (config : ServerConfig) :
    (agent.enrolServer config).server? agent.servers.length = some (agent.newServer config) :=
  server?_enrolServer.mpr (.inr ⟨rfl, rfl⟩)

theorem registerServer_of_valid {config : ServerConfig} (new : agent.serverNamed? config.id = none)
    (valid : config.Valid) : ∃ after, agent.registerServer config = .ok (agent.servers.length, after) ∧
      agent.AddsServer after agent.servers.length config := by
  obtain ⟨after, hosts, filled, keeps, registered, others, found, names, _, enrolled⟩ :=
    registerHosts_of_valid config.hosts (agent.server?_enrolServer_self config) valid.hosts
      valid.distinct fun _ _ => rfl
  have hostNamed (name : String) : after.hostNamed? agent.servers.length name = hosts.get? name := by
    rw [hostNamed?, found, Option.bind_some]
  refine ⟨after, ?_, ?_⟩
  · rw [serverNamed?] at new
    rw [registerServer, SortedMap.contains, new, if_neg (by decide),
      ServerConfig.validate_iff.mpr valid]
    dsimp only
    rw [filled]
  · constructor
    case keeps => exact (keeps_enrolServer config).trans keeps
    case new => exact List.getElem?_eq_none (Nat.le_refl _)
    case named =>
      intro id
      rw [serverNamed?, registered]
      exact serverNamed?_enrolServer
    case others =>
      exact fun other different => (others other different).trans (server?_enrolServer_of_ne different)
    case added =>
      constructor
      case server => exact ⟨_, found, rfl, rfl, rfl, rfl, rfl⟩
      case names =>
        intro name
        rw [hostNamed, names]
        exact or_iff_right Bool.false_ne_true
      case host =>
        intro host member
        obtain ⟨ref, named, kept⟩ := enrolled host member
        exact ⟨ref, (hostNamed host.name).trans named, kept⟩

/-- A server is refused by one of the guards, or added with all its hosts. -/
theorem registerServer_cases (agent : Agent) (config : ServerConfig) :
    (agent.serverNamed? config.id ≠ none ∧
      agent.registerServer config = .error (.registeredServer config.id)) ∨
    (∃ fault, config.validate = .error fault ∧ agent.registerServer config = .error fault) ∨
    ∃ after, agent.serverNamed? config.id = none ∧ config.Valid ∧
      agent.registerServer config = .ok (agent.servers.length, after) ∧
        agent.AddsServer after agent.servers.length config := by
  cases known : agent.serverNamed? config.id with
  | some owner =>
      rw [serverNamed?] at known
      exact .inl ⟨Option.some_ne_none owner, by rw [registerServer, SortedMap.contains, known]; rfl⟩
  | none =>
      cases checked : config.validate with
      | error fault =>
          refine .inr (.inl ⟨fault, rfl, ?_⟩)
          rw [serverNamed?] at known
          rw [registerServer, SortedMap.contains, known, checked]
          rfl
      | ok _ =>
          have valid := ServerConfig.validate_iff.mp checked
          obtain ⟨after, done, adds⟩ := registerServer_of_valid known valid
          exact .inr (.inr ⟨after, rfl, valid, done, adds⟩)

/-! ### Agents -/

theorem registerServers_of_valid (agent : Agent) (configs : List ServerConfig)
    (valid : ∀ config ∈ configs, config.Valid) (distinct : (configs.map (·.id)).Nodup)
    (new : ∀ config ∈ configs, agent.serverNamed? config.id = none) :
    ∃ after, agent.registerServers configs = .ok after ∧ agent.Keeps after ∧
      (∀ id, (after.serverNamed? id).isSome ↔
        (agent.serverNamed? id).isSome ∨ id ∈ configs.map (·.id)) ∧
      (∀ id owner, agent.serverNamed? id = some owner → after.serverNamed? id = some owner) ∧
      (∀ owner server, agent.server? owner = some server → after.server? owner = some server) ∧
      ∀ config ∈ configs, ∃ owner, after.serverNamed? config.id = some owner ∧
        after.HasServer owner config := by
  induction configs generalizing agent with
  | nil =>
      refine ⟨agent, rfl, .refl agent, ?_, fun _ _ named => named, fun _ _ found => found, ?_⟩
      · simp
      · simp
  | cons config rest ih =>
      rw [List.forall_mem_cons] at valid new
      rw [List.map_cons, List.nodup_cons] at distinct
      obtain ⟨next, registered, adds⟩ := registerServer_of_valid new.1 valid.1
      have newNext : ∀ other ∈ rest, next.serverNamed? other.id = none := by
        intro other member
        rw [adds.named, if_neg]
        · exact new.2 other member
        · intro same
          exact distinct.1 (List.mem_map.mpr ⟨other, member, same⟩)
      obtain ⟨after, done, keeps, names, named, found, all⟩ := ih next valid.2 distinct.2 newNext
      refine ⟨after, ?_, adds.keeps.trans keeps, ?_, ?_, ?_, ?_⟩
      · rw [registerServers, registered]
        exact done
      · intro id
        rw [names, adds.named, List.map_cons, List.mem_cons]
        by_cases same : id = config.id <;> simp [same]
      · intro id owner before
        refine named id owner ?_
        rw [adds.named, if_neg]
        · exact before
        · rintro rfl
          rw [new.1] at before
          contradiction
      · intro owner server before
        refine found owner server ?_
        rw [adds.others]
        · exact before
        · rintro rfl
          rw [adds.new] at before
          contradiction
      · rw [List.forall_mem_cons]
        refine ⟨⟨agent.servers.length, named _ _ ((adds.named _).trans (if_pos rfl)), ?_⟩, all⟩
        obtain ⟨server, foundServer, _⟩ := adds.added.server
        exact adds.added.of_keeps keeps ((found _ _ foundServer).trans foundServer.symm)

theorem create_of_valid {config : Config} (valid : config.Valid) :
    ∃ agent, create config = .ok agent ∧ agent.StartsAs config := by
  obtain ⟨agent, done, keeps, names, _, _, all⟩ := registerServers_of_valid
    (empty config.agent) config.servers valid.servers (Config.nodup_ids_iff.mpr valid.distinct)
    fun _ _ => rfl
  refine ⟨agent, ?_, ?_⟩
  · rw [create, Config.validate_iff.mpr valid]
    exact done
  · constructor
    case names =>
      intro id
      rw [names]
      exact or_iff_right Bool.false_ne_true
    case server => exact all
    case buckets =>
      intro ref
      rw [keeps.bucket]
      exact entries_plant
    case timers =>
      rw [timerDelays, Schedule.Scheduler.timerDelays, keeps.timers]
      rfl
    case settings => exact keeps.settings
    case refreshSweep => exact keeps.refreshSweep
    case timeout => exact keeps.timeout

/-- The checks of a configuration say whether it is valid, and an agent starts from each valid
one and from no other.  When a server or host is added later, either exactly that one is added
or a guard refuses it before anything is changed. -/
theorem registers_exactly_valid (config : Config) (agent : Agent) (server : ServerConfig)
    (owner : ServerRef) (host : HostConfig) :
    (config.validate = .ok () ↔ config.Valid) ∧
    (∀ other : ServerConfig, server.id = other.id ↔
      server.address = other.address ∧ server.portNumber = other.portNumber) ∧
    (match create config with
      | .ok started => config.Valid ∧ started.StartsAs config
      | .error fault => config.validate = .error fault) ∧
    (match agent.registerServer server with
      | .ok (added, after) => server.Valid ∧ agent.serverNamed? server.id = none ∧
          agent.AddsServer after added server ∧ agent.perform (.registerServer server) = after
      | .error fault => (agent.serverNamed? server.id ≠ none ∧ fault = .registeredServer server.id ∨
            server.validate = .error fault) ∧
          agent.perform (.registerServer server) = agent) ∧
    match agent.registerHost owner host with
      | .ok (added, after) => host.Valid ∧ agent.hostNamed? owner host.name = none ∧
          agent.AddsHost after owner added host ∧
          ∀ id, agent.serverNamed? id = some owner → agent.perform (.registerHost id host) = after
      | .error fault => (agent.server? owner = none ∨ agent.hostNamed? owner host.name ≠ none ∨
            host.validate = .error fault) ∧
          ∀ id, agent.serverNamed? id = some owner → agent.perform (.registerHost id host) = agent := by
  refine ⟨Config.validate_iff, fun _ => ServerConfig.id_eq_id_iff, ?_, ?_, ?_⟩
  · cases checked : config.validate with
    | error fault =>
        rw [create, checked]
    | ok _ =>
        have valid := Config.validate_iff.mp checked
        obtain ⟨started, done, starts⟩ := create_of_valid valid
        rw [done]
        exact ⟨valid, starts⟩
  · obtain ⟨known, done⟩ | ⟨fault, refused, done⟩ | ⟨after, new, valid, done, adds⟩ :=
      agent.registerServer_cases server
    · rw [done]
      exact ⟨.inl ⟨known, rfl⟩, by rw [perform, done]⟩
    · rw [done]
      exact ⟨.inr refused, by rw [perform, done]⟩
    · rw [done]
      exact ⟨valid, new, adds, by rw [perform, done]⟩
  · obtain ⟨absent, done⟩ | ⟨hosting, found, known, done⟩ | ⟨fault, refused, done⟩ |
        ⟨hosting, after, found, new, valid, done, adds⟩ := agent.registerHost_cases owner host
    · rw [done]
      exact ⟨.inl absent, fun id named => by simp only [perform, named, done]⟩
    · rw [done]
      refine ⟨.inr (.inl ?_), fun id named => by simp only [perform, named, done]⟩
      rw [hostNamed?, found]
      exact known
    · rw [done]
      exact ⟨.inr (.inr refused), fun id named => by simp only [perform, named, done]⟩
    · rw [done]
      refine ⟨valid, ?_, adds, fun id named => by simp only [perform, named, done]⟩
      rw [hostNamed?, found]
      exact new

end Agent

end CheckRounds
