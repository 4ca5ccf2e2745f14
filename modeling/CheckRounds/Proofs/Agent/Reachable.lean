import CheckRounds.Exchange
import CheckRounds.Proofs.Agent.Enrolment

namespace CheckRounds

/-! The states that an agent can get into, and what its buckets and timers are in all of
them.

An agent starts from a configuration.  After that servers come and go by name; hosts are
added to a server that is registered at that moment, and whoever has kept the number of a
server or host may go on using it when it was removed long ago.
-/

open Schedule (BucketRef Bucket Change Forest Scheduler)
open Schedule.Scheduler (rootRef)

namespace Agent

/-! ### Operations -/

/-- What can be done to an agent. -/
inductive Operation
  | registerServer (config : ServerConfig)
  | unregisterServer (id : String)
  | registerHost (server : String) (config : HostConfig)
  | unregisterHost (server : ServerRef) (name : String)
  | applyOrders (host : HostRef) (orders : List Order) (now : Instant)
  | noteFault (host : HostRef) (fault : Fault) (now : Instant)
  | withdraw (host : HostRef)
  | askState (host : HostRef) (now : Instant)
  | askRefresh (host : HostRef) (now : Instant)
  | keepValue (host : HostRef) (key value : String) (now : Instant)
  | noteSubmission (server : ServerRef) (stats : SubmissionTotals)
  | usePolicy (policy : WorkPolicy)
  | useCollation (collation : CollationMode)
  | advanceTimers (seconds : Nat)
  | dropTicks

/-- The agent after an operation; one that is refused leaves it alone. -/
def perform (agent : Agent) : Operation → Agent
  | .registerServer config =>
      match agent.registerServer config with
      | .ok (_, after) => after
      | .error _ => agent
  | .unregisterServer id => (agent.unregisterServer id).2
  | .registerHost server config =>
      match agent.serverNamed? server with
      | none => agent
      | some owner =>
          match agent.registerHost owner config with
          | .ok (_, after) => after
          | .error _ => agent
  | .unregisterHost server name => (agent.unregisterHost server name).2
  | .applyOrders host orders now => (agent.applyOrders host orders now).2
  | .noteFault host fault now => (agent.noteFault host fault now).2
  | .withdraw host => agent.withdraw host
  | .askState host now => (agent.hostState host now).2
  | .askRefresh host now => (agent.wantsRefresh host now).2
  | .keepValue host key value now => agent.keepValue host key value now
  | .noteSubmission server stats => agent.modifyServer server fun server => { server with stats }
  | .usePolicy policy => agent.usePolicy policy
  | .useCollation collation => agent.useCollation collation
  | .advanceTimers seconds => (agent.advanceTimers seconds).2
  | .dropTicks => agent.dropTicks

inductive Reachable : Agent → Prop
  | create {config : Config} {agent : Agent} (done : Agent.create config = .ok agent) :
      Reachable agent
  | perform {agent : Agent} (reachable : Reachable agent) (operation : Operation) :
      Reachable (agent.perform operation)

variable {agent : Agent}

/-- What is not kept in the scheduler, the servers or the hosts does not matter. -/
theorem Sound.reschedule {after : Agent} (sound : agent.Sound)
    (sameForest : after.scheduler.forest = agent.scheduler.forest)
    (schedule : after.scheduler.Sound agent.IsInner) (sameStations : after.stations = agent.stations)
    (sameServers : after.servers = agent.servers)
    (sameRegistered : after.registered = agent.registered) : after.Sound := by
  obtain ⟨⟨forest, timers, journal⟩, stations, servers, registered, settings, refreshSweep, timeout⟩ := after
  dsimp only at sameForest sameStations sameServers sameRegistered schedule
  subst sameForest sameStations sameServers sameRegistered
  exact
    { wired := ⟨sound.wired.planted, sound.wired.root, sound.wired.server, sound.wired.station,
        sound.wired.serverApart, sound.wired.stationApart, sound.wired.child⟩
      schedule
      listing := sound.listing
      keyed := sound.keyed
      registered := sound.registered
      enrolled := sound.enrolled
      active := sound.active
      idle := sound.idle }

theorem Sound.perform (sound : agent.Sound) (operation : Operation) :
    (agent.perform operation).Sound := by
  cases operation with
  | registerServer config =>
      simp only [Agent.perform]
      split
      · next registering => exact sound.registerServer registering
      · exact sound
  | unregisterServer id => exact sound.unregisterServer id
  | registerHost server config =>
      simp only [Agent.perform]
      split
      · exact sound
      · next owner named =>
          split
          · next registering =>
              obtain ⟨found, foundServer, sameId⟩ := sound.registered named
              exact (sound.registerHost ⟨found, foundServer, sameId ▸ named⟩ registering).1
          · exact sound
  | unregisterHost server name => exact sound.unregisterHost name
  | applyOrders host orders now => exact sound.applyOrders orders now
  | noteFault host fault now => exact sound.noteFault fault now
  | withdraw host => exact sound.withdraw
  | askState host now => exact sound.hostState now
  | askRefresh host now => exact sound.wantsRefresh now
  | keepValue host key value now => exact sound.keepValue key value now
  | noteSubmission server stats =>
      exact sound.modifyServer (fun _ => rfl) (fun _ => rfl) (fun _ => rfl)
  | usePolicy policy => exact sound.reschedule rfl sound.schedule rfl rfl rfl
  | useCollation collation => exact sound.reschedule rfl sound.schedule rfl rfl rfl
  | advanceTimers seconds => exact sound.reschedule rfl (sound.schedule.advance seconds) rfl rfl rfl
  | dropTicks => exact sound.reschedule rfl sound.schedule.dropReceiver rfl rfl rfl

theorem Reachable.sound (reachable : Reachable agent) : agent.Sound := by
  induction reachable with
  | create done => exact sound_create done
  | perform _ operation ih => exact ih.perform operation

/-! ### Buckets and timers -/

/-- A host has a check under a key, with a delay. -/
def Checks (agent : Agent) (host : HostRef) (delay : Nat) (key : String) : Prop :=
  ∃ check, (agent.host host).checks.get? key = some check ∧ check.delay = delay

/-- A host that is registered on a server under a name has a check with a delay. -/
def Serves (agent : Agent) (server : ServerRef) (delay : Nat) (name : String) : Prop :=
  ∃ host, agent.hostNamed? server name = some host ∧ ∃ key, agent.Checks host delay key

/-- A server that is registered under a name has a host that has a check with a delay. -/
def Needs (agent : Agent) (delay : Nat) (id : String) : Prop :=
  ∃ server, agent.serverNamed? id = some server ∧ ∃ name, agent.Serves server delay name

/-- The buckets list what they should, and the timers follow the root. -/
structure InStep (agent : Agent) : Prop where
  host : ∀ host delay key, (agent.bucketOf host).Holds delay key ↔ agent.Checks host delay key
  server : ∀ id server, agent.serverNamed? id = some server → ∀ delay name,
    (agent.serverBucketOf server).Holds delay name ↔ agent.Serves server delay name
  root : ∀ delay id, agent.scheduler.root.Holds delay id ↔ agent.Needs delay id
  timers : agent.timerDelays = agent.scheduler.root.delays
  single : agent.timerDelays.Nodup
  armed : ∀ delay, delay ∈ agent.timerDelays ↔ ∃ id, agent.Needs delay id

theorem checks_iff_of_found {ref : HostRef} {station : Station} {delay : Nat} {key : String}
    (found : agent.stations[ref]? = some station) :
    agent.Checks ref delay key ↔ listed station.host.checks delay key := by
  rw [Checks, host, host?, found]
  rfl

theorem not_checks_of_absent {ref : HostRef} {delay : Nat} {key : String}
    (absent : agent.stations[ref]? = none) : ¬agent.Checks ref delay key := by
  rw [Checks, host, host?, absent]
  rintro ⟨check, found, _⟩
  contradiction

theorem Sound.holds_bucketOf_iff (sound : agent.Sound) {ref : HostRef} {delay : Nat} {key : String} :
    (agent.bucketOf ref).Holds delay key ↔ agent.Checks ref delay key := by
  unfold bucketOf
  split
  · next station found =>
      rw [checks_iff_of_found found, ← sound.listing found]
      rfl
  · next absent =>
      exact iff_of_false (Bucket.not_holds_empty _ _ _) (not_checks_of_absent absent)

theorem Sound.serves_iff (sound : agent.Sound) {owner : ServerRef} {server : Server} {delay : Nat}
    {name : String} (foundServer : agent.server? owner = some server) :
    agent.Serves owner delay name ↔ ∃ (ref : HostRef) (station : Station),
      server.hosts.get? name = some ref ∧ agent.stations[ref]? = some station ∧
        ∃ key, listed station.host.checks delay key := by
  rw [Serves, hostNamed?, foundServer, Option.bind_some]
  constructor
  · rintro ⟨ref, enrolled, key, checks⟩
    obtain ⟨station, found, _⟩ := sound.enrolled foundServer enrolled
    exact ⟨ref, station, enrolled, found, key, (checks_iff_of_found found).mp checks⟩
  · rintro ⟨ref, station, enrolled, found, key, lists⟩
    exact ⟨ref, enrolled, key, (checks_iff_of_found found).mpr lists⟩

theorem Sound.holds_serverBucketOf_iff (sound : agent.Sound) {id : String} {owner : ServerRef}
    {delay : Nat} {name : String} (named : agent.serverNamed? id = some owner) :
    (agent.serverBucketOf owner).Holds delay name ↔ agent.Serves owner delay name := by
  obtain ⟨server, foundServer, rfl⟩ := sound.registered named
  rw [sound.serves_iff foundServer, serverBucketOf, foundServer]
  exact (sound.holds_server_iff foundServer).trans (and_iff_right named)

theorem Sound.holds_root_iff_needs (sound : agent.Sound) {delay : Nat} {id : String} :
    agent.scheduler.root.Holds delay id ↔ agent.Needs delay id := by
  rw [sound.holds_root_iff]
  constructor
  · rintro ⟨owner, server, named, foundServer, name, held⟩
    have serves := (sound.holds_server_iff foundServer).mp held
    exact ⟨owner, named, name, (sound.serves_iff foundServer).mpr serves.2⟩
  · rintro ⟨owner, named, name, serves⟩
    obtain ⟨server, foundServer, rfl⟩ := sound.registered named
    refine ⟨owner, server, named, foundServer, name, ?_⟩
    exact (sound.holds_server_iff foundServer).mpr ⟨named, (sound.serves_iff foundServer).mp serves⟩

theorem Sound.uses_root_iff_needs (sound : agent.Sound) {delay : Nat} :
    agent.scheduler.root.Uses delay ↔ ∃ id, agent.Needs delay id :=
  exists_congr fun _ => sound.holds_root_iff_needs

theorem Sound.mem_timerDelays_iff (sound : agent.Sound) {delay : Nat} :
    delay ∈ agent.timerDelays ↔ ∃ id, agent.Needs delay id := by
  rw [timerDelays, sound.schedule.timerDelays_eq]
  exact (sound.schedule.orderly.tidy rootRef).mem_delays_iff.trans sound.uses_root_iff_needs

/-- However an agent came to be as it is, its buckets list exactly the checks of the hosts
below them, and a timer is armed exactly while a check of a registered host needs it. -/
theorem Reachable.inStep (reachable : Reachable agent) : agent.InStep where
  host _ _ _ := reachable.sound.holds_bucketOf_iff
  server _ _ named _ _ := reachable.sound.holds_serverBucketOf_iff named
  root _ _ := reachable.sound.holds_root_iff_needs
  timers := reachable.sound.schedule.timerDelays_eq
  single := by
    rw [timerDelays, reachable.sound.schedule.timerDelays_eq]
    exact SortedMap.keys_nodup _
  armed _ := reachable.sound.mem_timerDelays_iff

theorem inStep_after_first_orders :
    let ordered := ((empty {}).perform (.registerServer { address := "a", hosts := [{ name := "h" }] })).perform
      (.applyOrders 0 [{ key := "k", delay := 60 }] default)
    ordered.InStep ∧ ordered.timerDelays = [60] := by
  have created : create { servers := [] } = .ok (empty {}) := rfl
  refine ⟨Reachable.inStep (.perform (.perform (.create created) _) _), ?_⟩
  decide +kernel

end Agent

end CheckRounds
