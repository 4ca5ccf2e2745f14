import CheckRounds.Proofs.Agent.HostChanges

namespace CheckRounds

/-! Registering and removing servers and hosts keeps an agent sound. -/

open Schedule (BucketRef Bucket Change Forest Scheduler)
open Schedule.Scheduler (rootRef)

namespace Agent

variable {agent : Agent} {ref : HostRef} {owner : ServerRef} {station : Station}

theorem server?_modifyServer {change : Server → Server} {other : ServerRef} :
    (agent.modifyServer owner change).server? other =
      if owner = other then (agent.server? other).map change else agent.server? other := by
  simp only [server?, modifyServer, List.getElem?_modify]
  split <;> simp

/-! ### Removing -/

/-- An agent that has the buckets, the servers and the hosts of a sound one, and of its
registrations all but those of withdrawn hosts. -/
theorem Sound.relist {after : Agent} (sound : agent.Sound)
    (sameScheduler : after.scheduler = agent.scheduler)
    (sameStations : after.stations = agent.stations)
    (earlier : ∀ {owner server}, after.server? owner = some server →
      ∃ before, agent.server? owner = some before ∧ server.bucket = before.bucket ∧
        server.id = before.id ∧ ∀ name ref, server.hosts.get? name = some ref →
          before.hosts.get? name = some ref)
    (later : ∀ {owner before}, agent.server? owner = some before →
      ∃ server, after.server? owner = some server ∧ server.bucket = before.bucket)
    (named : ∀ {id owner}, after.serverNamed? id = some owner → agent.serverNamed? id = some owner)
    (active : ∀ {ref : HostRef} {station : Station}, agent.stations[ref]? = some station →
      station.host.withdrawn = false → ∃ id owner server, after.serverNamed? id = some owner ∧
        after.server? owner = some server ∧ server.hosts.get? station.host.name = some ref) :
    after.Sound := by
  have sameWiring : agent.SameWiring after := by
    constructor
    case size => rw [sameScheduler]
    case parent => exact fun _ => by rw [sameScheduler]
    case serverBefore =>
      intro owner server found
      obtain ⟨before, foundBefore, sameBucket, sameId, _⟩ := earlier found
      exact ⟨before, foundBefore, sameBucket, sameId⟩
    case serverAfter => exact later
    case stationBefore =>
      intro ref station found
      exact ⟨station, sameStations ▸ found, rfl, rfl⟩
    case stationAfter =>
      intro ref station found
      exact ⟨station, sameStations ▸ found, rfl⟩
  constructor
  case wired => exact sound.wired.of_same sameWiring
  case schedule =>
    rw [sameWiring.isInner_eq, sameScheduler]
    exact sound.schedule
  case listing =>
    rw [sameStations, sameScheduler]
    exact sound.listing
  case keyed =>
    rw [sameStations]
    exact sound.keyed
  case registered =>
    intro id owner registered
    obtain ⟨before, foundBefore, sameId⟩ := sound.registered (named registered)
    obtain ⟨server, found, _⟩ := later foundBefore
    obtain ⟨before', foundBefore', _, sameId', _⟩ := earlier found
    rw [foundBefore, Option.some.injEq] at foundBefore'
    subst foundBefore'
    exact ⟨server, found, sameId'.trans sameId⟩
  case enrolled =>
    intro owner server name ref found enrolled
    obtain ⟨before, foundBefore, sameBucket, _, hosts⟩ := earlier found
    rw [sameStations, sameScheduler, sameBucket]
    exact sound.enrolled foundBefore (hosts name ref enrolled)
  case active =>
    rw [sameStations]
    exact active
  case idle =>
    rw [sameStations]
    exact sound.idle

/-- Whatever else becomes of a server, its name, its bucket and its hosts stay. -/
theorem Sound.modifyServer {change : Server → Server} (sound : agent.Sound)
    (sameBucket : ∀ server, (change server).bucket = server.bucket)
    (sameId : ∀ server, (change server).id = server.id)
    (sameHosts : ∀ server, (change server).hosts = server.hosts) :
    (agent.modifyServer owner change).Sound := by
  have later : ∀ {other before}, agent.server? other = some before →
      ∃ server, (agent.modifyServer owner change).server? other = some server ∧
        server.bucket = before.bucket ∧ server.hosts = before.hosts := by
    intro other before found
    rw [server?_modifyServer, found]
    split
    · exact ⟨change before, rfl, sameBucket before, sameHosts before⟩
    · exact ⟨before, rfl, rfl, rfl⟩
  refine sound.relist rfl rfl ?_ ?_ id ?_
  · intro other server found
    rw [server?_modifyServer] at found
    split at found
    · obtain ⟨before, foundBefore, rfl⟩ := Option.map_eq_some_iff.mp found
      exact ⟨before, foundBefore, sameBucket before, sameId before,
        fun name ref enrolled => sameHosts before ▸ enrolled⟩
    · exact ⟨server, found, rfl, rfl, fun _ _ => id⟩
  · intro other before found
    obtain ⟨server, foundAfter, sameBucket, _⟩ := later found
    exact ⟨server, foundAfter, sameBucket⟩
  · intro ref station found present
    obtain ⟨id, other, before, named, foundBefore, enrolled⟩ := sound.active found present
    obtain ⟨server, foundAfter, _, sameHosts⟩ := later foundBefore
    exact ⟨id, other, server, named, foundAfter, sameHosts ▸ enrolled⟩

theorem withdraw_modifyServer {change : Server → Server} :
    (agent.modifyServer owner change).withdraw ref = (agent.withdraw ref).modifyServer owner change := by
  have sameHost : (agent.modifyServer owner change).host? ref = agent.host? ref := rfl
  unfold withdraw
  rw [sameHost]
  cases found : agent.stations[ref]? with
  | none => simp [host?, found]
  | some station =>
      have foundAfter : ∀ host, (agent.setHost ref host).stations[ref]? = some ⟨host, station.bucket⟩ := by
        intro host
        rw [getElem?_setHost, if_pos rfl, found]
        rfl
      have foundModified : ∀ host,
          ((agent.modifyServer owner change).setHost ref host).stations[ref]? =
            some ⟨host, station.bucket⟩ := foundAfter
      simp only [host?, found, Option.map_some]
      rw [reschedule_eq (foundAfter _), reschedule_eq (foundModified _)]
      rfl

theorem withdrawn_withdraw (found : agent.stations[ref]? = some station) :
    ∃ after : Station, (agent.withdraw ref).stations[ref]? = some after ∧
      after.host.withdrawn = true := by
  refine ⟨⟨station.host.withdraw.2, station.bucket⟩, ?_, rfl⟩
  simp only [withdraw, host?, found, Option.map_some, stations_reschedule]
  rw [getElem?_setHost, if_pos rfl, found]
  rfl

@[simp] theorem servers_withdraw : (agent.withdraw ref).servers = agent.servers := by
  unfold withdraw
  split
  · rfl
  · exact servers_reschedule

@[simp] theorem registered_withdraw : (agent.withdraw ref).registered = agent.registered := by
  unfold withdraw
  split
  · rfl
  · exact registered_reschedule

theorem server?_withdraw : (agent.withdraw ref).server? owner = agent.server? owner := by
  rw [server?, servers_withdraw, server?]

/-- A server whose list of hosts loses a name is still there, with all other hosts. -/
theorem server?_eraseHost {host : HostRef} {server before : Server} {name : String}
    {other : ServerRef} (found : agent.server? owner = some server)
    (enrolled : server.hosts.get? name = some host) (foundBefore : agent.server? other = some before) :
    ∃ after, (agent.modifyServer owner fun server =>
        { server with hosts := server.hosts.erase name }).server? other = some after ∧
      after.bucket = before.bucket ∧ ∀ name ref, before.hosts.get? name = some ref →
        ref ≠ host → after.hosts.get? name = some ref := by
  rw [server?_modifyServer, foundBefore]
  split
  · next same =>
      subst same
      rw [found, Option.some.injEq] at foundBefore
      subst foundBefore
      refine ⟨_, rfl, rfl, ?_⟩
      intro other ref enrolledOther different
      rw [SortedMap.get?_erase, if_neg, enrolledOther]
      rintro rfl
      rw [enrolled, Option.some.injEq] at enrolledOther
      exact different enrolledOther.symm
  · exact ⟨before, rfl, rfl, fun _ _ enrolled _ => enrolled⟩

/-- The name of a withdrawn host can be dropped. -/
theorem Sound.eraseHost {host : HostRef} {gone : Station} {server : Server} {name : String}
    (sound : agent.Sound) (found : agent.server? owner = some server)
    (enrolled : server.hosts.get? name = some host) (foundGone : agent.stations[host]? = some gone)
    (withdrawn : gone.host.withdrawn = true) :
    (agent.modifyServer owner fun server =>
      { server with hosts := server.hosts.erase name }).Sound := by
  refine sound.relist rfl rfl ?_ ?_ id ?_
  · intro other server foundAfter
    rw [server?_modifyServer] at foundAfter
    split at foundAfter
    · obtain ⟨before, foundBefore, rfl⟩ := Option.map_eq_some_iff.mp foundAfter
      refine ⟨before, foundBefore, rfl, rfl, ?_⟩
      intro other ref enrolledOther
      rw [SortedMap.get?_erase] at enrolledOther
      split at enrolledOther
      · contradiction
      · exact enrolledOther
    · exact ⟨server, foundAfter, rfl, rfl, fun _ _ => id⟩
  · intro other before foundBefore
    obtain ⟨after, foundAfter, sameBucket, _⟩ := server?_eraseHost found enrolled foundBefore
    exact ⟨after, foundAfter, sameBucket⟩
  · intro ref station foundStation present
    have different : ref ≠ host := by
      rintro rfl
      rw [foundGone, Option.some.injEq] at foundStation
      subst foundStation
      rw [withdrawn] at present
      contradiction
    obtain ⟨id, other, before, named, foundBefore, enrolledOther⟩ := sound.active foundStation present
    obtain ⟨after, foundAfter, _, hosts⟩ := server?_eraseHost found enrolled foundBefore
    exact ⟨id, other, after, named, foundAfter, hosts _ _ enrolledOther different⟩

theorem Sound.unregisterHost (sound : agent.Sound) (name : String) :
    (agent.unregisterHost owner name).2.Sound := by
  unfold Agent.unregisterHost
  split
  · exact sound
  · next host foundHost =>
      obtain ⟨server, foundServer, enrolled⟩ := Option.bind_eq_some_iff.mp foundHost
      obtain ⟨station, found, _⟩ := sound.enrolled foundServer enrolled
      obtain ⟨gone, foundGone, withdrawn⟩ := withdrawn_withdraw found
      dsimp only
      rw [withdraw_modifyServer]
      exact sound.withdraw.eraseHost (server?_withdraw.trans foundServer) enrolled foundGone withdrawn

theorem withdraw_registered (registered : SortedMap String ServerRef) :
    ({ agent with registered } : Agent).withdraw ref = { agent.withdraw ref with registered } := by
  unfold withdraw
  cases found : agent.stations[ref]? with
  | none => simp [host?, found]
  | some station =>
      have foundAfter : ∀ host, (agent.setHost ref host).stations[ref]? = some ⟨host, station.bucket⟩ := by
        intro host
        rw [getElem?_setHost, if_pos rfl, found]
        rfl
      have foundOther : ∀ host,
          (({ agent with registered } : Agent).setHost ref host).stations[ref]? =
            some ⟨host, station.bucket⟩ := foundAfter
      simp only [host?, found, Option.map_some]
      rw [reschedule_eq (foundAfter _), reschedule_eq (foundOther _)]
      rfl

/-- Removing a host does not ask where its server is registered. -/
theorem unregisterHost_registered (registered : SortedMap String ServerRef) (name : String) :
    (({ agent with registered } : Agent).unregisterHost owner name).2 =
      { (agent.unregisterHost owner name).2 with registered } := by
  have sameHost : ({ agent with registered } : Agent).hostNamed? owner name =
      agent.hostNamed? owner name := rfl
  unfold unregisterHost
  rw [sameHost]
  cases agent.hostNamed? owner name with
  | none => rfl
  | some host =>
      let removed := agent.modifyServer owner fun server =>
        { server with hosts := server.hosts.erase name }
      exact @withdraw_registered removed host registered

def unregisterHosts (agent : Agent) (owner : ServerRef) (names : List String) : Agent :=
  names.foldl (fun agent name => (agent.unregisterHost owner name).2) agent

theorem unregisterHosts_registered (registered : SortedMap String ServerRef) (names : List String) :
    ({ agent with registered } : Agent).unregisterHosts owner names =
      { agent.unregisterHosts owner names with registered } := by
  unfold unregisterHosts
  induction names generalizing agent with
  | nil => rfl
  | cons name rest ih =>
      rw [List.foldl_cons, unregisterHost_registered, ih, List.foldl_cons]

theorem Sound.unregisterHosts (sound : agent.Sound) (names : List String) :
    (agent.unregisterHosts owner names).Sound := by
  unfold Agent.unregisterHosts
  induction names generalizing agent with
  | nil => exact sound
  | cons name rest ih => exact ih (sound.unregisterHost name)

theorem registered_unregisterHost (name : String) :
    (agent.unregisterHost owner name).2.registered = agent.registered := by
  unfold unregisterHost
  split
  · rfl
  · exact registered_withdraw

theorem registered_unregisterHosts (names : List String) :
    (agent.unregisterHosts owner names).registered = agent.registered := by
  unfold unregisterHosts
  induction names generalizing agent with
  | nil => rfl
  | cons name rest ih => rw [List.foldl_cons, ih, registered_unregisterHost]

theorem server?_unregisterHost {before : Server} (found : agent.server? owner = some before)
    (name : String) : ∃ server, (agent.unregisterHost owner name).2.server? owner = some server ∧
      ∀ other ref, server.hosts.get? other = some ref →
        before.hosts.get? other = some ref ∧ other ≠ name := by
  unfold unregisterHost
  split
  · next absent =>
      refine ⟨before, found, ?_⟩
      intro other ref enrolled
      refine ⟨enrolled, ?_⟩
      rintro rfl
      rw [hostNamed?, found, Option.bind_some, enrolled] at absent
      contradiction
  · dsimp only
    rw [withdraw_modifyServer, server?_modifyServer, if_pos rfl, server?_withdraw, found]
    refine ⟨_, rfl, ?_⟩
    intro other ref enrolled
    rw [SortedMap.get?_erase] at enrolled
    split at enrolled
    · contradiction
    · next different => exact ⟨enrolled, different⟩

/-- Of the hosts of a server those are left that were not named. -/
theorem server?_unregisterHosts {before : Server} (found : agent.server? owner = some before)
    (names : List String) :
    ∃ server, (agent.unregisterHosts owner names).server? owner = some server ∧
      ∀ other ref, server.hosts.get? other = some ref →
        before.hosts.get? other = some ref ∧ other ∉ names := by
  unfold unregisterHosts
  induction names generalizing agent before with
  | nil => exact ⟨before, found, fun _ _ enrolled => ⟨enrolled, List.not_mem_nil⟩⟩
  | cons name rest ih =>
      obtain ⟨between, foundBetween, hosts⟩ := server?_unregisterHost found name
      obtain ⟨server, foundAfter, hostsAfter⟩ := ih foundBetween
      refine ⟨server, foundAfter, ?_⟩
      intro other ref enrolled
      obtain ⟨enrolledBetween, notInRest⟩ := hostsAfter other ref enrolled
      obtain ⟨enrolledBefore, different⟩ := hosts other ref enrolledBetween
      exact ⟨enrolledBefore, List.not_mem_cons_of_ne_of_not_mem different notInRest⟩

/-- The root lists no server that is not registered. -/
theorem Sound.removalChanges_root (sound : agent.Sound) {id : String}
    (gone : agent.serverNamed? id = none) : agent.scheduler.root.removalChanges id = [] := by
  rw [Bucket.removalChanges, List.map_eq_nil_iff, Bucket.delaysOf, List.filter_eq_nil_iff]
  intro delay _ holds
  rw [decide_eq_true_eq, sound.holds_root_iff] at holds
  obtain ⟨owner, _, found, _⟩ := holds
  rw [gone] at found
  contradiction

/-- Once its hosts are gone, a server can be taken off the list. -/
theorem Sound.delist {id : String} {server : Server} (sound : agent.Sound)
    (named : agent.serverNamed? id = some owner) (foundServer : agent.server? owner = some server)
    (deserted : ∀ name, server.hosts.get? name = none) :
    ({ agent with registered := agent.registered.erase id } : Agent).Sound := by
  refine sound.relist rfl rfl ?_ ?_ ?_ ?_
  · exact fun {_ server} found => ⟨server, found, rfl, rfl, fun _ _ enrolled => enrolled⟩
  · exact fun {_ server} found => ⟨server, found, rfl⟩
  · intro other otherOwner found
    rw [serverNamed?, SortedMap.get?_erase] at found
    split at found
    · contradiction
    · exact found
  · intro ref station found present
    obtain ⟨other, otherOwner, before, foundOther, foundBefore, enrolled⟩ :=
      sound.active found present
    refine ⟨other, otherOwner, before, ?_, foundBefore, enrolled⟩
    rw [serverNamed?, SortedMap.get?_erase, if_neg]
    · exact foundOther
    · rintro rfl
      rw [named, Option.some.injEq] at foundOther
      subst foundOther
      rw [foundServer, Option.some.injEq] at foundBefore
      subst foundBefore
      rw [deserted] at enrolled
      contradiction

theorem Sound.unregisterServer (sound : agent.Sound) (id : String) :
    (agent.unregisterServer id).2.Sound := by
  unfold Agent.unregisterServer
  split
  · exact sound
  · next owner named =>
      obtain ⟨server, foundServer, _⟩ := sound.registered named
      dsimp only
      rw [foundServer, Option.map_some, Option.getD_some]
      let unregistered : Agent := { agent with registered := agent.registered.erase id }
      change Sound { unregistered.unregisterHosts owner server.hosts.keys with
        scheduler := (unregistered.unregisterHosts owner server.hosts.keys).scheduler.applyAll rootRef
          ((unregistered.unregisterHosts owner server.hosts.keys).scheduler.root.removalChanges id) }
      have emptied : (unregistered.unregisterHosts owner server.hosts.keys).Sound := by
        have soundHosts : (agent.unregisterHosts owner server.hosts.keys).Sound :=
          sound.unregisterHosts server.hosts.keys
        obtain ⟨left, foundLeft, hosts⟩ := server?_unregisterHosts foundServer server.hosts.keys
        have stillNamed : (agent.unregisterHosts owner server.hosts.keys).serverNamed? id =
            some owner := by rwa [serverNamed?, registered_unregisterHosts]
        rw [unregisterHosts_registered, ← @registered_unregisterHosts agent]
        refine soundHosts.delist stillNamed foundLeft ?_
        intro name
        by_contra enrolled
        obtain ⟨ref, enrolled⟩ := Option.ne_none_iff_exists'.mp enrolled
        obtain ⟨enrolledBefore, notInKeys⟩ := hosts name ref enrolled
        apply notInKeys
        rw [← SortedMap.get?_isSome_iff_mem_keys, enrolledBefore]
        rfl
      have gone : (unregistered.unregisterHosts owner server.hosts.keys).serverNamed? id = none := by
        rw [serverNamed?, registered_unregisterHosts, SortedMap.get?_erase, if_pos rfl]
      rw [emptied.removalChanges_root gone, Scheduler.applyAll_nil]
      exact emptied

end Agent

end CheckRounds
