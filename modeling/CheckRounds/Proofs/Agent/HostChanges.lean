import CheckRounds.Proofs.Agent.Sound

namespace CheckRounds

/-! Everything that happens to hosts keeps an agent sound. -/

open Schedule (BucketRef Bucket Change Forest Scheduler)
open Schedule.Scheduler (rootRef)

namespace Agent

variable {agent : Agent} {ref : HostRef} {owner : ServerRef} {station : Station}

/-! ### Hosts -/

theorem getElem?_setHost {other : HostRef} {host : Host} :
    (agent.setHost ref host).stations[other]? =
      if ref = other then agent.stations[other]?.map fun station => { station with host }
      else agent.stations[other]? := by
  simp only [setHost, List.getElem?_modify]
  split <;> simp

theorem bucketOf_setHost {other : HostRef} {host : Host} :
    (agent.setHost ref host).bucketOf other = agent.bucketOf other := by
  have sameScheduler : (agent.setHost ref host).scheduler = agent.scheduler := rfl
  rw [bucketOf, bucketOf, getElem?_setHost, sameScheduler]
  by_cases same : ref = other
  · rw [if_pos same]
    cases agent.stations[other]? <;> rfl
  · rw [if_neg same]

theorem reschedule_eq {changes : List (Change String)}
    (found : agent.stations[ref]? = some station) : agent.reschedule ref changes =
      { agent with scheduler := agent.scheduler.applyAll station.bucket changes } := by
  rw [reschedule, found]

@[simp] theorem stations_reschedule {changes : List (Change String)} :
    (agent.reschedule ref changes).stations = agent.stations := by
  unfold reschedule
  split <;> rfl

@[simp] theorem servers_reschedule {changes : List (Change String)} :
    (agent.reschedule ref changes).servers = agent.servers := by
  unfold reschedule
  split <;> rfl

@[simp] theorem registered_reschedule {changes : List (Change String)} :
    (agent.reschedule ref changes).registered = agent.registered := by
  unfold reschedule
  split <;> rfl

/-- Of the hosts only the one that is changed is not what it was. -/
theorem station_of_setHost {other : HostRef} {after : Station} {host : Host}
    (found : agent.stations[ref]? = some station)
    (foundAfter : (agent.setHost ref host).stations[other]? = some after) :
    (other = ref ∧ after = { station with host }) ∨
      (other ≠ ref ∧ agent.stations[other]? = some after) := by
  rw [getElem?_setHost] at foundAfter
  split at foundAfter
  · next same =>
      rw [← same, found, Option.map_some, Option.some.injEq] at foundAfter
      exact .inl ⟨same.symm, foundAfter.symm⟩
  · next different => exact .inr ⟨Ne.symm different, foundAfter⟩

theorem exists_station_setHost {other : HostRef} {before : Station} (host : Host)
    (found : agent.stations[other]? = some before) :
    ∃ after : Station, (agent.setHost ref host).stations[other]? = some after ∧
      after.bucket = before.bucket := by
  rw [getElem?_setHost, found]
  split
  · exact ⟨_, rfl, rfl⟩
  · exact ⟨_, rfl, rfl⟩

theorem sameWiring_changeHost {host : Host} (changes : List (Change String))
    (found : agent.stations[ref]? = some station) (sameName : host.name = station.host.name) :
    agent.SameWiring
      { agent.setHost ref host with scheduler := agent.scheduler.applyAll station.bucket changes } := by
  constructor
  case size => exact Forest.size_applyAll changes
  case parent => exact fun _ => Forest.parent_applyAll changes
  case serverBefore => exact fun found => ⟨_, found, rfl, rfl⟩
  case serverAfter => exact fun found => ⟨_, found, rfl⟩
  case stationBefore =>
    intro other after foundAfter
    rcases station_of_setHost found foundAfter with ⟨rfl, rfl⟩ | ⟨_, foundBefore⟩
    · exact ⟨station, found, rfl, sameName⟩
    · exact ⟨after, foundBefore, rfl, rfl⟩
  case stationAfter => exact exists_station_setHost host

/-- Gives a host new checks and its bucket the changes that go with them. -/
theorem Sound.changeHost {host : Host} (sound : agent.Sound) (changes : List (Change String))
    (found : agent.stations[ref]? = some station) (sameName : host.name = station.host.name)
    (told : Change.afterAll (listed station.host.checks) changes = listed host.checks)
    (keyed : Keyed host.checks)
    (stays : host.withdrawn = false → station.host.withdrawn = false)
    (idle : host.withdrawn = true → host.checks = .empty)
    (quiet : station.host.withdrawn = true → changes = []) :
    ((agent.setHost ref host).reschedule ref changes).Sound := by
  have foundNew : (agent.setHost ref host).stations[ref]? = some { station with host } := by
    rw [getElem?_setHost, if_pos rfl, found]
    rfl
  rw [reschedule_eq foundNew]
  have inside := sound.wired.station_inside found
  have sameWiring := sameWiring_changeHost changes found sameName
  constructor
  case wired => exact sound.wired.of_same sameWiring
  case schedule =>
    by_cases withdrawn : station.host.withdrawn = true
    · rw [quiet withdrawn]
      exact ⟨sound.schedule.orderly, sound.schedule.armed⟩
    · have present : station.host.withdrawn = false := by simpa using withdrawn
      have leaf : ¬agent.IsInner station.bucket := sound.wired.station_leaf found
      exact Scheduler.Sound.applyAll changes sound.schedule inside leaf
        fun _ path => sound.lone_of_path found present path
  case listing =>
    intro other after foundAfter
    rcases station_of_setHost found foundAfter with ⟨rfl, rfl⟩ | ⟨different, foundBefore⟩
    · have held := Forest.holds_applyAll_self changes inside
      rw [sound.listing found, told] at held
      exact held
    · have apart := sound.wired.not_path_station found foundBefore different
      rw [← sound.listing foundBefore]
      exact congrArg Bucket.Holds (Forest.bucket_applyAll_of_not_path changes apart)
  case keyed =>
    intro other after foundAfter
    rcases station_of_setHost found foundAfter with ⟨rfl, rfl⟩ | ⟨_, foundBefore⟩
    · exact keyed
    · exact sound.keyed foundBefore
  case registered => exact sound.registered
  case enrolled =>
    intro owner server name other foundServer enrolled
    obtain ⟨before, foundBefore, reporting⟩ := sound.enrolled foundServer enrolled
    obtain ⟨after, foundAfter, sameBucket⟩ := exists_station_setHost host foundBefore
    exact ⟨after, foundAfter, (sameWiring.parent _).trans (sameBucket ▸ reporting)⟩
  case active =>
    intro other after foundAfter present
    rcases station_of_setHost found foundAfter with ⟨rfl, rfl⟩ | ⟨_, foundBefore⟩
    · exact sameName ▸ sound.active found (stays present)
    · exact sound.active foundBefore present
  case idle =>
    intro other after foundAfter withdrawn
    rcases station_of_setHost found foundAfter with ⟨rfl, rfl⟩ | ⟨_, foundBefore⟩
    · exact idle withdrawn
    · exact sound.idle foundBefore withdrawn

theorem reschedule_nil : agent.reschedule ref [] = agent := by
  unfold reschedule
  split
  · rfl
  · rw [Scheduler.applyAll_nil]

theorem host?_eq_some_iff {host : Host} : agent.host? ref = some host ↔
    ∃ station : Station, agent.stations[ref]? = some station ∧ station.host = host := by
  simp [host?, Option.map_eq_some_iff]

/-- The bucket of a host takes the changes that reconciling its checks comes with. -/
theorem applyOrders_eq (found : agent.stations[ref]? = some station) (orders : List Order)
    (now : Instant) : agent.applyOrders ref orders now =
      ((station.host.reconcile orders now).summary,
        { agent.setHost ref (station.host.reconcile orders now).host with
          scheduler := agent.scheduler.applyAll station.bucket
            (station.host.reconcile orders now).changes }) := by
  have foundHost : agent.host? ref = some station.host := host?_eq_some_iff.mpr ⟨station, found, rfl⟩
  have foundAfter : (agent.setHost ref (station.host.reconcile orders now).host).stations[ref]? =
      some { station with host := (station.host.reconcile orders now).host } := by
    rw [getElem?_setHost, if_pos rfl, found]
    rfl
  rw [applyOrders, foundHost]
  dsimp only
  rw [reschedule_eq foundAfter]
  rfl

theorem getElem?_applyOrders (found : agent.stations[ref]? = some station) (orders : List Order)
    (now : Instant) : (agent.applyOrders ref orders now).2.stations[ref]? =
      some { station with host := (station.host.reconcile orders now).host } := by
  rw [applyOrders_eq found]
  change (agent.setHost ref _).stations[ref]? = _
  rw [getElem?_setHost, if_pos rfl, found]
  rfl

/-- Gives a host something new that its bucket need not know. -/
theorem Sound.setHost {host : Host} (sound : agent.Sound)
    (found : agent.stations[ref]? = some station) (sameName : host.name = station.host.name)
    (sameWithdrawn : host.withdrawn = station.host.withdrawn)
    (sameListing : listed host.checks = listed station.host.checks) (keyed : Keyed host.checks)
    (idle : host.withdrawn = true → host.checks = .empty) : (agent.setHost ref host).Sound := by
  have changed := sound.changeHost [] found sameName sameListing.symm keyed
    (fun present => sameWithdrawn ▸ present) idle (fun _ => rfl)
  rwa [reschedule_nil] at changed

theorem Sound.applyOrders (sound : agent.Sound) (orders : List Order) (now : Instant) :
    (agent.applyOrders ref orders now).2.Sound := by
  unfold Agent.applyOrders
  split
  · exact sound
  · next host foundHost =>
      obtain ⟨station, found, rfl⟩ := host?_eq_some_iff.mp foundHost
      refine sound.changeHost _ found Host.name_reconcile Host.afterAll_reconcile
        (Host.keyed_reconcile (sound.keyed found)) ?_ ?_ ?_
      · rw [Host.withdrawn_reconcile]
        exact id
      · intro withdrawn
        rw [Host.withdrawn_reconcile] at withdrawn
        rw [Host.reconcile_of_withdrawn withdrawn]
        exact sound.idle found withdrawn
      · intro withdrawn
        rw [Host.reconcile_of_withdrawn withdrawn]

theorem Sound.withdraw (sound : agent.Sound) : (agent.withdraw ref).Sound := by
  unfold Agent.withdraw
  split
  · exact sound
  · next host foundHost =>
      obtain ⟨station, found, rfl⟩ := host?_eq_some_iff.mp foundHost
      refine sound.changeHost _ found rfl Host.afterAll_withdraw keyed_empty ?_ (fun _ => rfl) ?_
      · intro present
        contradiction
      · intro withdrawn
        rw [sound.idle found withdrawn]
        rfl

/-- What is kept about a refresh or about its outcome leaves the checks alone. -/
theorem Sound.setRefresh {host : Host} (sound : agent.Sound)
    (foundHost : agent.host? ref = some host) (refresh : Refresh) :
    (agent.setHost ref { host with refresh }).Sound := by
  obtain ⟨station, found, rfl⟩ := host?_eq_some_iff.mp foundHost
  exact sound.setHost found rfl rfl rfl (sound.keyed found) (sound.idle found)

theorem Sound.noteFault (sound : agent.Sound) (fault : Fault) (now : Instant) :
    (agent.noteFault ref fault now).2.Sound := by
  unfold Agent.noteFault
  split
  · exact sound
  · next host foundHost => exact sound.setRefresh foundHost _

theorem Sound.hostState (sound : agent.Sound) (now : Instant) :
    (agent.hostState ref now).2.Sound := by
  unfold Agent.hostState
  split
  · exact sound
  · next host foundHost =>
      obtain ⟨refresh, same⟩ := Host.stateAt_eq host now
      dsimp only
      rw [same]
      exact sound.setRefresh foundHost refresh

theorem Sound.wantsRefresh (sound : agent.Sound) (now : Instant) :
    (agent.wantsRefresh ref now).2.Sound := by
  unfold Agent.wantsRefresh
  split
  · exact sound
  · next host foundHost =>
      obtain ⟨refresh, same⟩ := Host.stateAt_eq host now
      dsimp only
      rw [Host.wantsRefresh_snd, same]
      exact sound.setRefresh foundHost refresh

theorem Sound.keepValue (sound : agent.Sound) (key value : String) (now : Instant) :
    (agent.keepValue ref key value now).Sound := by
  unfold Agent.keepValue
  split
  · exact sound
  · next host foundHost =>
      obtain ⟨station, found, rfl⟩ := host?_eq_some_iff.mp foundHost
      refine sound.setHost found rfl rfl Host.listed_keepValue
        (Host.keyed_keepValue (sound.keyed found)) ?_
      intro withdrawn
      rw [Host.keepValue, sound.idle found withdrawn]
      rfl

end Agent

end CheckRounds
