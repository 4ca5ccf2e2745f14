import CheckRounds.Agent
import CheckRounds.Proofs.Host.Listing
import CheckRounds.Proofs.Schedule.Orderly

namespace CheckRounds

/-! What holds of an agent at all times.

The buckets of the servers report to the root and those of the hosts to their servers.
Every host that is not withdrawn is registered under its name on a registered server; all
others have no checks.  So no two buckets that report under the same name to the same
bucket have something in use, and reports never get in each other's way.
-/

open Schedule (BucketRef Bucket Change Forest Scheduler)
open Schedule.Scheduler (rootRef)

namespace Agent

/-- The buckets that others report to. -/
def IsInner (agent : Agent) (ref : BucketRef) : Prop :=
  ref = rootRef ∨ ∃ owner server, agent.server? owner = some server ∧ server.bucket = ref

/-- Where the buckets are, and where they report. -/
structure Wired (agent : Agent) : Prop where
  planted : rootRef < agent.scheduler.forest.size
  root : agent.scheduler.forest.parent rootRef = none
  server : ∀ {ref server}, agent.server? ref = some server →
    agent.scheduler.forest.parent server.bucket = some (rootRef, server.id)
  station : ∀ {ref : HostRef} {station : Station}, agent.stations[ref]? = some station →
    ∃ owner server, agent.server? owner = some server ∧
      agent.scheduler.forest.parent station.bucket = some (server.bucket, station.host.name)
  serverApart : ∀ {ref other server server'}, agent.server? ref = some server →
    agent.server? other = some server' → server.bucket = server'.bucket → ref = other
  stationApart : ∀ {ref other : HostRef} {station station' : Station}, agent.stations[ref]? = some station →
    agent.stations[other]? = some station' → station.bucket = station'.bucket → ref = other
  child : ∀ {ref link}, agent.scheduler.forest.parent ref = some link →
    (∃ owner server, agent.server? owner = some server ∧ server.bucket = ref) ∨
      ∃ (host : HostRef) (station : Station), agent.stations[host]? = some station ∧ station.bucket = ref

structure Sound (agent : Agent) : Prop where
  wired : agent.Wired
  schedule : agent.scheduler.Sound agent.IsInner
  listing : ∀ {ref : HostRef} {station : Station}, agent.stations[ref]? = some station →
    (agent.scheduler.forest.bucket station.bucket).Holds = listed station.host.checks
  keyed : ∀ {ref : HostRef} {station : Station}, agent.stations[ref]? = some station → Keyed station.host.checks
  registered : ∀ {id ref}, agent.serverNamed? id = some ref →
    ∃ server, agent.server? ref = some server ∧ server.id = id
  enrolled : ∀ {owner server name ref}, agent.server? owner = some server →
    server.hosts.get? name = some ref → ∃ station : Station, agent.stations[ref]? = some station ∧
      agent.scheduler.forest.parent station.bucket = some (server.bucket, name)
  active : ∀ {ref : HostRef} {station : Station}, agent.stations[ref]? = some station →
    station.host.withdrawn = false → ∃ id owner server, agent.serverNamed? id = some owner ∧
      agent.server? owner = some server ∧ server.hosts.get? station.host.name = some ref
  idle : ∀ {ref : HostRef} {station : Station}, agent.stations[ref]? = some station →
    station.host.withdrawn = true → station.host.checks = .empty

variable {agent : Agent}

/-! ### Consequences of the wiring -/

namespace Wired

variable {ref : HostRef} {owner : ServerRef} {server : Server} {station : Station}

theorem server_ne_root (wired : agent.Wired) (found : agent.server? owner = some server) :
    server.bucket ≠ rootRef := by
  intro same
  have reporting := wired.server found
  rw [same, wired.root] at reporting
  contradiction

theorem server_inside (wired : agent.Wired) (found : agent.server? owner = some server) :
    server.bucket < agent.scheduler.forest.size := Forest.lt_size_of_parent (wired.server found)

theorem station_inside (wired : agent.Wired) (found : agent.stations[ref]? = some station) :
    station.bucket < agent.scheduler.forest.size :=
  have ⟨_, _, _, reporting⟩ := wired.station found
  Forest.lt_size_of_parent reporting

/-- The bucket of a host is a leaf. -/
theorem station_leaf (wired : agent.Wired) (found : agent.stations[ref]? = some station) :
    ¬agent.IsInner station.bucket := by
  obtain ⟨owner, server, foundServer, reporting⟩ := wired.station found
  rintro (same | ⟨other, server', foundOther, same⟩)
  · rw [same, wired.root] at reporting
    contradiction
  · rw [← same, wired.server foundOther, Option.some.injEq, Prod.mk.injEq] at reporting
    exact wired.server_ne_root foundServer reporting.1.symm

/-- From the bucket of a host a way leads only to that of its server and to the root. -/
theorem eq_of_path (wired : agent.Wired) (foundServer : agent.server? owner = some server)
    {child top : BucketRef} {name : String}
    (reporting : agent.scheduler.forest.parent child = some (server.bucket, name))
    (path : agent.scheduler.forest.Path child top) :
    top = child ∨ top = server.bucket ∨ top = rootRef := by
  cases path with
  | here => exact .inl rfl
  | up parent rest =>
      rw [reporting, Option.some.injEq, Prod.mk.injEq] at parent
      obtain ⟨rfl, _⟩ := parent
      cases rest with
      | here => exact .inr (.inl rfl)
      | up parent rest =>
          rw [wired.server foundServer, Option.some.injEq, Prod.mk.injEq] at parent
          obtain ⟨rfl, _⟩ := parent
          cases rest with
          | here => exact .inr (.inr rfl)
          | up parent _ =>
              rw [wired.root] at parent
              contradiction

theorem not_path_station (wired : agent.Wired) (found : agent.stations[ref]? = some station)
    {other : HostRef} {station' : Station} (foundOther : agent.stations[other]? = some station')
    (different : other ≠ ref) :
    ¬agent.scheduler.forest.Path station.bucket station'.bucket := by
  intro path
  obtain ⟨owner, server, foundServer, reporting⟩ := wired.station found
  rcases wired.eq_of_path foundServer reporting path with same | same | same
  · exact different (wired.stationApart foundOther found same)
  · exact wired.station_leaf foundOther (.inr ⟨owner, server, foundServer, same.symm⟩)
  · exact wired.station_leaf foundOther (.inl same)

/-- What reports to a server is the bucket of a host. -/
theorem station_of_child (wired : agent.Wired) (foundServer : agent.server? owner = some server)
    {child : BucketRef} {name : String}
    (reporting : agent.scheduler.forest.parent child = some (server.bucket, name)) :
    ∃ (host : HostRef) (station : Station), agent.stations[host]? = some station ∧ station.bucket = child ∧
      station.host.name = name := by
  rcases wired.child reporting with ⟨other, server', foundOther, rfl⟩ | ⟨host, station, found, rfl⟩
  · rw [wired.server foundOther, Option.some.injEq, Prod.mk.injEq] at reporting
    exact absurd reporting.1.symm (wired.server_ne_root foundServer)
  · obtain ⟨_, _, _, reporting'⟩ := wired.station found
    rw [reporting, Option.some.injEq, Prod.mk.injEq] at reporting'
    exact ⟨host, station, found, rfl, reporting'.2.symm⟩

/-- What reports to the root is the bucket of a server. -/
theorem server_of_child (wired : agent.Wired) {child : BucketRef} {name : String}
    (reporting : agent.scheduler.forest.parent child = some (rootRef, name)) :
    ∃ owner server, agent.server? owner = some server ∧ server.bucket = child ∧
      server.id = name := by
  rcases wired.child reporting with ⟨owner, server, found, rfl⟩ | ⟨host, station, found, rfl⟩
  · rw [wired.server found, Option.some.injEq, Prod.mk.injEq] at reporting
    exact ⟨owner, server, found, rfl, reporting.2⟩
  · obtain ⟨owner, server, foundServer, reporting'⟩ := wired.station found
    rw [reporting, Option.some.injEq, Prod.mk.injEq] at reporting'
    exact absurd reporting'.1.symm (wired.server_ne_root foundServer)

end Wired

/-! ### Wiring that stays -/

/-- The servers and hosts of an agent have the names and the buckets of those of another
one, and the buckets report where they did. -/
structure SameWiring (before after : Agent) : Prop where
  size : after.scheduler.forest.size = before.scheduler.forest.size
  parent : ∀ ref, after.scheduler.forest.parent ref = before.scheduler.forest.parent ref
  serverBefore : ∀ {owner server}, after.server? owner = some server →
    ∃ earlier, before.server? owner = some earlier ∧ server.bucket = earlier.bucket ∧
      server.id = earlier.id
  serverAfter : ∀ {owner earlier}, before.server? owner = some earlier →
    ∃ server, after.server? owner = some server ∧ server.bucket = earlier.bucket
  stationBefore : ∀ {ref : HostRef} {station : Station}, after.stations[ref]? = some station →
    ∃ earlier : Station, before.stations[ref]? = some earlier ∧ station.bucket = earlier.bucket ∧
      station.host.name = earlier.host.name
  stationAfter : ∀ {ref : HostRef} {earlier : Station}, before.stations[ref]? = some earlier →
    ∃ station : Station, after.stations[ref]? = some station ∧ station.bucket = earlier.bucket

section Wiring

variable {before after : Agent}

theorem SameWiring.isInner_eq (same : before.SameWiring after) : after.IsInner = before.IsInner := by
  funext ref
  apply propext
  constructor
  · rintro (isRoot | ⟨owner, server, found, rfl⟩)
    · exact .inl isRoot
    · obtain ⟨earlier, foundEarlier, sameBucket, _⟩ := same.serverBefore found
      exact .inr ⟨owner, earlier, foundEarlier, sameBucket.symm⟩
  · rintro (isRoot | ⟨owner, earlier, foundEarlier, rfl⟩)
    · exact .inl isRoot
    · obtain ⟨server, found, sameBucket⟩ := same.serverAfter foundEarlier
      exact .inr ⟨owner, server, found, sameBucket⟩

theorem Wired.of_same (wired : before.Wired) (same : before.SameWiring after) : after.Wired := by
  constructor
  case planted => exact same.size ▸ wired.planted
  case root => exact (same.parent rootRef).trans wired.root
  case server =>
    intro owner server found
    obtain ⟨earlier, foundEarlier, sameBucket, sameId⟩ := same.serverBefore found
    rw [same.parent, sameBucket, sameId]
    exact wired.server foundEarlier
  case station =>
    intro ref station found
    obtain ⟨earlier, foundEarlier, sameBucket, sameName⟩ := same.stationBefore found
    obtain ⟨owner, server, foundServer, reporting⟩ := wired.station foundEarlier
    obtain ⟨server', foundServer', sameServer⟩ := same.serverAfter foundServer
    refine ⟨owner, server', foundServer', ?_⟩
    rw [same.parent, sameBucket, sameName, sameServer]
    exact reporting
  case serverApart =>
    intro first second server server' found found' sameBucket
    obtain ⟨earlier, foundEarlier, bucket, _⟩ := same.serverBefore found
    obtain ⟨earlier', foundEarlier', bucket', _⟩ := same.serverBefore found'
    rw [bucket, bucket'] at sameBucket
    exact wired.serverApart foundEarlier foundEarlier' sameBucket
  case stationApart =>
    intro first second station station' found found' sameBucket
    obtain ⟨earlier, foundEarlier, bucket, _⟩ := same.stationBefore found
    obtain ⟨earlier', foundEarlier', bucket', _⟩ := same.stationBefore found'
    rw [bucket, bucket'] at sameBucket
    exact wired.stationApart foundEarlier foundEarlier' sameBucket
  case child =>
    intro ref link reporting
    rw [same.parent] at reporting
    rcases wired.child reporting with ⟨owner, earlier, found, rfl⟩ | ⟨host, earlier, found, rfl⟩
    · obtain ⟨server, foundAfter, sameBucket⟩ := same.serverAfter found
      exact .inl ⟨owner, server, foundAfter, sameBucket⟩
    · obtain ⟨station, foundAfter, sameBucket⟩ := same.stationAfter found
      exact .inr ⟨host, station, foundAfter, sameBucket⟩

end Wiring

/-! ### Consequences of soundness -/

namespace Sound

variable {ref : HostRef} {owner : ServerRef} {delay : Nat} {server : Server} {station : Station} {name id : String}

theorem name_of_enrolled (sound : agent.Sound) (foundServer : agent.server? owner = some server)
    (enrolled : server.hosts.get? name = some ref)
    (found : agent.stations[ref]? = some station) : station.host.name = name := by
  obtain ⟨station', found', reporting⟩ := sound.enrolled foundServer enrolled
  rw [found, Option.some.injEq] at found'
  subst found'
  obtain ⟨_, _, _, reporting'⟩ := sound.wired.station found
  rw [reporting, Option.some.injEq, Prod.mk.injEq] at reporting'
  exact reporting'.2.symm

/-- A host that is not withdrawn is registered on the server that its bucket reports to,
and that server is registered. -/
theorem registered_of_active (sound : agent.Sound) (found : agent.stations[ref]? = some station)
    (present : station.host.withdrawn = false) (foundServer : agent.server? owner = some server)
    (reporting : agent.scheduler.forest.parent station.bucket = some (server.bucket, name)) :
    agent.serverNamed? server.id = some owner ∧ server.hosts.get? name = some ref := by
  obtain ⟨id, other, server', named, foundOther, enrolled⟩ := sound.active found present
  obtain ⟨station', found', reporting'⟩ := sound.enrolled foundOther enrolled
  rw [found, Option.some.injEq] at found'
  subst found'
  rw [reporting, Option.some.injEq, Prod.mk.injEq] at reporting'
  have same := sound.wired.serverApart foundServer foundOther reporting'.1
  subst same
  rw [foundServer, Option.some.injEq] at foundOther
  subst foundOther
  obtain ⟨server'', found'', sameId⟩ := sound.registered named
  rw [foundServer, Option.some.injEq] at found''
  subst found''
  exact ⟨sameId ▸ named, reporting'.2 ▸ enrolled⟩

theorem present_of_listed (sound : agent.Sound) (found : agent.stations[ref]? = some station)
    (lists : listed station.host.checks delay name) : station.host.withdrawn = false := by
  by_contra withdrawn
  rw [Bool.not_eq_false] at withdrawn
  rw [sound.idle found withdrawn] at lists
  exact not_listed_empty delay name lists

theorem uses_station_iff (sound : agent.Sound) (found : agent.stations[ref]? = some station) :
    (agent.scheduler.forest.bucket station.bucket).Uses delay ↔
      ∃ key, listed station.host.checks delay key := by
  rw [Bucket.Uses, sound.listing found]

/-- The bucket of a server lists the hosts whose buckets have the delay in use; all of
them are registered. -/
theorem holds_server_iff (sound : agent.Sound) (foundServer : agent.server? owner = some server) :
    (agent.scheduler.forest.bucket server.bucket).Holds delay name ↔
      agent.serverNamed? server.id = some owner ∧ ∃ (ref : HostRef) (station : Station),
        server.hosts.get? name = some ref ∧ agent.stations[ref]? = some station ∧
          ∃ key, listed station.host.checks delay key := by
  have reported := sound.schedule.orderly.reported server.bucket (.inr ⟨owner, server, foundServer, rfl⟩)
  rw [reported]
  constructor
  · rintro ⟨child, reporting, used⟩
    obtain ⟨host, station, found, rfl, rfl⟩ := sound.wired.station_of_child foundServer reporting
    obtain ⟨key, lists⟩ := (sound.uses_station_iff found).mp used
    have present := sound.present_of_listed found lists
    obtain ⟨named, enrolled⟩ := sound.registered_of_active found present foundServer reporting
    exact ⟨named, host, station, enrolled, found, key, lists⟩
  · rintro ⟨_, host, station, enrolled, found, lists⟩
    obtain ⟨station', found', reporting⟩ := sound.enrolled foundServer enrolled
    rw [found, Option.some.injEq] at found'
    subst found'
    exact ⟨station.bucket, reporting, (sound.uses_station_iff found).mpr lists⟩

/-- The root lists the registered servers whose buckets have the delay in use. -/
theorem holds_root_iff (sound : agent.Sound) :
    agent.scheduler.root.Holds delay id ↔ ∃ owner server, agent.serverNamed? id = some owner ∧
      agent.server? owner = some server ∧
        (agent.scheduler.forest.bucket server.bucket).Uses delay := by
  have reported := sound.schedule.orderly.reported rootRef (.inl rfl)
  rw [Scheduler.root, reported]
  constructor
  · rintro ⟨child, reporting, used⟩
    obtain ⟨owner, server, foundServer, rfl, rfl⟩ := sound.wired.server_of_child reporting
    obtain ⟨name, held⟩ := used
    exact ⟨owner, server, ((sound.holds_server_iff foundServer).mp held).1, foundServer, name, held⟩
  · rintro ⟨owner, server, named, foundServer, used⟩
    obtain ⟨server', found', rfl⟩ := sound.registered named
    rw [foundServer, Option.some.injEq] at found'
    subst found'
    exact ⟨server.bucket, sound.wired.server foundServer, used⟩

/-- Beside a host that is not withdrawn nothing else reports in its place. -/
theorem lone_of_path (sound : agent.Sound) (found : agent.stations[ref]? = some station)
    (present : station.host.withdrawn = false) {top : BucketRef}
    (path : agent.scheduler.forest.Path station.bucket top) : agent.scheduler.forest.Lone top := by
  obtain ⟨owner, server, foundServer, reporting⟩ := sound.wired.station found
  obtain ⟨named, enrolled⟩ := sound.registered_of_active found present foundServer reporting
  intro link other reportingTop reportingOther different delay used
  rcases sound.wired.eq_of_path foundServer reporting path with rfl | rfl | rfl
  · rw [reporting, Option.some.injEq] at reportingTop
    subst reportingTop
    obtain ⟨host, station', found', rfl, sameName⟩ :=
      sound.wired.station_of_child foundServer reportingOther
    obtain ⟨key, lists⟩ := (sound.uses_station_iff found').mp used
    have present' := sound.present_of_listed found' lists
    have enrolled' := (sound.registered_of_active found' present' foundServer reportingOther).2
    rw [enrolled, Option.some.injEq] at enrolled'
    subst enrolled'
    rw [found, Option.some.injEq] at found'
    exact different (congrArg Station.bucket found').symm
  · rw [sound.wired.server foundServer, Option.some.injEq] at reportingTop
    subst reportingTop
    obtain ⟨owner', server', foundServer', rfl, sameId⟩ :=
      sound.wired.server_of_child reportingOther
    obtain ⟨name, held⟩ := used
    have named' := ((sound.holds_server_iff foundServer').mp held).1
    rw [sameId, named, Option.some.injEq] at named'
    subst named'
    rw [foundServer, Option.some.injEq] at foundServer'
    exact different (congrArg Server.bucket foundServer').symm
  · rw [sound.wired.root] at reportingTop
    contradiction

end Sound

end Agent

end CheckRounds
