import CheckRounds.Proofs.Agent.Reachable
import CheckRounds.Round.Plan
import Mathlib.Data.List.Nodup

namespace CheckRounds

/-! What is due at a delay.

The buckets are asked for names and keys, and these are looked up one after the other.  In
a sound agent nothing gets lost on the way: what is found are all registered hosts and
all their checks with the delay.
-/

namespace Agent

/-- The checks with a delay of all hosts that are registered on a server. -/
def assigned (agent : Agent) (owner : ServerRef) (delay : Nat) : List (HostRef × Check) :=
  (agent.hostRefs owner).flatMap fun ref =>
    ((agent.allChecks ref).filter fun check => check.delay = delay).map fun check => (ref, check)

variable {agent : Agent} {ref : HostRef} {owner : ServerRef} {server : Server} {delay : Nat}

/-! ### Checks -/

def check? (agent : Agent) (ref : HostRef) (key : String) : Option Check :=
  (agent.host? ref).bind fun host => host.checks.get? key

theorem check?_eq (agent : Agent) (ref : HostRef) :
    agent.check? ref = (agent.host ref).checks.get? := by
  funext key
  rw [check?, host]
  cases agent.host? ref with
  | none => exact (SortedMap.get?_empty key).symm
  | some host => rfl

theorem allChecks_eq (agent : Agent) (ref : HostRef) :
    agent.allChecks ref = (agent.host ref).checks.values := by
  rw [allChecks, host]
  cases agent.host? ref <;> rfl

theorem dueChecks_eq_filterMap (agent : Agent) (ref : HostRef) (delay : Nat) :
    agent.dueChecks ref delay =
      ((agent.bucketOf ref).items delay).toList.filterMap (agent.check? ref) := by
  cases found : agent.stations[ref]? with
  | none =>
      rw [dueChecks, bucketOf, host?, found]
      rfl
  | some station =>
      have same : agent.check? ref = station.host.checks.get? := by
        funext key
        rw [check?, host?, found]
        rfl
      rw [dueChecks, host?, found, same]
      rfl

theorem mem_allChecks_iff {check : Check} :
    check ∈ agent.allChecks ref ↔ ∃ key, (agent.host ref).checks.get? key = some check := by
  rw [allChecks_eq, SortedMap.values, List.mem_map]
  constructor
  · rintro ⟨⟨key, _⟩, inside, rfl⟩
    exact ⟨key, SortedMap.get?_eq_some_iff_mem.mpr inside⟩
  · rintro ⟨key, found⟩
    exact ⟨(key, check), SortedMap.get?_eq_some_iff_mem.mp found, rfl⟩

theorem Sound.keyed_host (sound : agent.Sound) (ref : HostRef) : Keyed (agent.host ref).checks := by
  rw [host, host?]
  cases found : agent.stations[ref]? with
  | none => exact keyed_empty
  | some station => exact sound.keyed found

theorem Sound.dueChecks_eq (sound : agent.Sound) (ref : HostRef) (delay : Nat) :
    agent.dueChecks ref delay = (agent.allChecks ref).filter fun check => check.delay = delay := by
  rw [dueChecks_eq_filterMap, check?_eq, SortedMap.filterMap_get?_toList, allChecks_eq,
    SortedMap.values, List.filter_map]
  congr 1
  refine List.filter_congr ?_
  rintro ⟨key, check⟩ inside
  have present : (agent.host ref).checks.get? key = some check :=
    SortedMap.get?_eq_some_iff_mem.mpr inside
  have held : key ∈ (agent.bucketOf ref).items delay ↔ check.delay = delay :=
    sound.holds_bucketOf_iff.trans (listed_iff_of_get? present)
  exact decide_eq_decide.mpr held

theorem Sound.dueChecks_ne_nil_iff (sound : agent.Sound) :
    agent.dueChecks ref delay ≠ [] ↔ ∃ key, agent.Checks ref delay key := by
  rw [sound.dueChecks_eq, Ne, List.filter_eq_nil_iff, Classical.not_forall]
  constructor
  · rintro ⟨check, due⟩
    obtain ⟨inside, due⟩ := Classical.not_imp.mp due
    obtain ⟨key, found⟩ := mem_allChecks_iff.mp inside
    exact ⟨key, check, found, by simpa using due⟩
  · rintro ⟨key, check, found, due⟩
    refine ⟨check, fun none => none (mem_allChecks_iff.mpr ⟨key, found⟩) ?_⟩
    simpa using due

theorem Sound.map_key_allChecks (sound : agent.Sound) :
    (agent.allChecks ref).map (·.key) = (agent.host ref).checks.keys := by
  rw [allChecks_eq, SortedMap.values, List.map_map, SortedMap.keys]
  refine List.map_congr_left ?_
  rintro ⟨key, check⟩ inside
  exact sound.keyed_host ref key check (SortedMap.get?_eq_some_iff_mem.mpr inside)

/-- Every key that a bucket has is the key of a check. -/
theorem Sound.exists_check?_of_held (sound : agent.Sound) {key : String}
    (held : key ∈ (agent.bucketOf ref).items delay) :
    ∃ check, agent.check? ref key = some check ∧ check.key = key := by
  obtain ⟨check, found, _⟩ := sound.holds_bucketOf_iff.mp held
  refine ⟨check, ?_, sound.keyed_host ref key check found⟩
  rw [check?_eq, found]

/-! ### Hosts -/

theorem hostRefs_of_found (found : agent.server? owner = some server) :
    agent.hostRefs owner = server.hosts.values := by rw [hostRefs, found]

/-- The due hosts of a registered server are those of its hosts that have a due check. -/
theorem Sound.dueHosts_eq (sound : agent.Sound) {id : String}
    (named : agent.serverNamed? id = some owner) :
    agent.dueHosts owner delay = (agent.hostRefs owner).filter fun ref => agent.dueChecks ref delay ≠ [] := by
  obtain ⟨server, found, _⟩ := sound.registered named
  have lookup : agent.hostNamed? owner = server.hosts.get? := by
    funext name
    rw [hostNamed?, found, Option.bind_some]
  have refs : agent.hostRefs owner = server.hosts.toList.map (·.2) := hostRefs_of_found found
  rw [dueHosts, lookup, SortedMap.filterMap_get?_toList, refs, List.filter_map]
  congr 1
  refine List.filter_congr ?_
  rintro ⟨name, ref⟩ inside
  have enrolled : server.hosts.get? name = some ref := SortedMap.get?_eq_some_iff_mem.mpr inside
  have held : name ∈ (agent.serverBucketOf owner).items delay ↔ agent.dueChecks ref delay ≠ [] := by
    refine (sound.holds_serverBucketOf_iff named).trans ?_
    rw [Serves, lookup, enrolled, sound.dueChecks_ne_nil_iff]
    constructor
    · rintro ⟨host, same, checks⟩
      cases same
      exact checks
    · exact fun checks => ⟨ref, rfl, checks⟩
  exact decide_eq_decide.mpr held

/-- The checks of a host that are due at a delay, each with its host. -/
def dueItems (agent : Agent) (delay : Nat) (ref : HostRef) : List (HostRef × Check) :=
  (agent.dueChecks ref delay).map fun check => (ref, check)

/-- What is found by going through the due hosts of a server, registered or not. -/
def allDue (agent : Agent) (owner : ServerRef) (delay : Nat) : List (HostRef × Check) :=
  (agent.dueHosts owner delay).flatMap (agent.dueItems delay)

/-- Going through the due hosts leads to all checks that are assigned to their server. -/
theorem Sound.allDue_eq_assigned (sound : agent.Sound) {id : String}
    (named : agent.serverNamed? id = some owner) :
    agent.allDue owner delay = agent.assigned owner delay := by
  rw [allDue, sound.dueHosts_eq named, assigned]
  induction agent.hostRefs owner with
  | nil => rfl
  | cons ref rest ih =>
      rw [List.flatMap_cons, ← ih, ← sound.dueChecks_eq]
      by_cases idle : agent.dueChecks ref delay = [] <;> simp [dueItems, idle]

theorem Sound.dueHosts_ne_nil_iff (sound : agent.Sound) {id : String}
    (named : agent.serverNamed? id = some owner) :
    agent.dueHosts owner delay ≠ [] ↔ agent.assigned owner delay ≠ [] := by
  rw [← sound.allDue_eq_assigned named, allDue, Ne, Ne, List.flatMap_eq_nil_iff, sound.dueHosts_eq named,
    List.filter_eq_nil_iff]
  simp [dueItems]

/-- A server that is not registered has nothing due any more. -/
theorem Sound.dueHosts_of_unregistered (sound : agent.Sound)
    (unregistered : ∀ id, agent.serverNamed? id ≠ some owner) : agent.dueHosts owner delay = [] := by
  have nothing : ∀ name, name ∉ ((agent.serverBucketOf owner).items delay).toList := by
    intro name inside
    have held : (agent.serverBucketOf owner).Holds delay name := inside
    unfold serverBucketOf at held
    split at held
    · next server found => exact unregistered _ ((sound.holds_server_iff found).mp held).1
    · exact Schedule.Bucket.not_holds_empty _ _ _ held
  rw [dueHosts, List.eq_nil_iff_forall_not_mem.mpr nothing, List.filterMap_nil]

/-! ### Servers -/

theorem Sound.mem_serverRefs_iff (sound : agent.Sound) :
    owner ∈ agent.serverRefs ↔ ∃ server, agent.server? owner = some server ∧
      agent.serverNamed? server.id = some owner := by
  rw [serverRefs, SortedMap.values, List.mem_map]
  constructor
  · rintro ⟨⟨id, _⟩, inside, rfl⟩
    have named := SortedMap.get?_eq_some_iff_mem.mpr inside
    obtain ⟨server, found, sameId⟩ := sound.registered named
    exact ⟨server, found, sameId ▸ named⟩
  · rintro ⟨server, _, named⟩
    exact ⟨(server.id, owner), SortedMap.get?_eq_some_iff_mem.mp named, rfl⟩

theorem Sound.needs_iff (sound : agent.Sound) {id : String}
    (named : agent.serverNamed? id = some owner) :
    agent.Needs delay id ↔ agent.assigned owner delay ≠ [] := by
  rw [← sound.dueHosts_ne_nil_iff named, sound.dueHosts_eq named, Ne, List.filter_eq_nil_iff]
  obtain ⟨server, found, _⟩ := sound.registered named
  have refs : agent.hostRefs owner = server.hosts.toList.map (·.2) := hostRefs_of_found found
  constructor
  · rintro ⟨other, namedOther, name, ref, enrolled, checks⟩ none
    rw [named, Option.some.injEq] at namedOther
    subst namedOther
    rw [hostNamed?, found, Option.bind_some] at enrolled
    have inside : ref ∈ agent.hostRefs owner := by
      rw [refs, List.mem_map]
      exact ⟨(name, ref), SortedMap.get?_eq_some_iff_mem.mp enrolled, rfl⟩
    exact none ref inside (decide_eq_true (sound.dueChecks_ne_nil_iff.mpr checks))
  · intro some_due
    obtain ⟨ref, due⟩ := Classical.not_forall.mp some_due
    obtain ⟨inside, due⟩ := Classical.not_imp.mp due
    rw [refs, List.mem_map] at inside
    obtain ⟨⟨name, _⟩, inside, rfl⟩ := inside
    refine ⟨owner, named, name, _, ?_, sound.dueChecks_ne_nil_iff.mp (by simpa using due)⟩
    rw [hostNamed?, found, Option.bind_some]
    exact SortedMap.get?_eq_some_iff_mem.mpr inside

/-- The due servers are the registered ones that have a check assigned. -/
theorem Sound.dueServers_eq (sound : agent.Sound) : agent.dueServers delay =
    agent.serverRefs.filter fun owner => agent.assigned owner delay ≠ [] := by
  have lookup : agent.serverNamed? = agent.registered.get? := rfl
  rw [dueServers, lookup, SortedMap.filterMap_get?_toList, serverRefs, SortedMap.values,
    List.filter_map]
  congr 1
  refine List.filter_congr ?_
  rintro ⟨id, owner⟩ inside
  have named : agent.serverNamed? id = some owner := SortedMap.get?_eq_some_iff_mem.mpr inside
  have held : id ∈ agent.scheduler.root.items delay ↔ agent.assigned owner delay ≠ [] :=
    sound.holds_root_iff_needs.trans (sound.needs_iff named)
  exact decide_eq_decide.mpr held

theorem Sound.mem_dueServers_iff (sound : agent.Sound) : owner ∈ agent.dueServers delay ↔
    owner ∈ agent.serverRefs ∧ agent.assigned owner delay ≠ [] := by
  rw [sound.dueServers_eq, List.mem_filter, decide_eq_true_iff]

/-! ### Apart -/

theorem Sound.serverIds_nodup (sound : agent.Sound) :
    (agent.serverRefs.map agent.serverId).Nodup := by
  have same : agent.serverRefs.map agent.serverId = agent.registered.keys := by
    rw [serverRefs, SortedMap.values, List.map_map, SortedMap.keys]
    refine List.map_congr_left ?_
    rintro ⟨id, owner⟩ inside
    obtain ⟨server, found, sameId⟩ := sound.registered (SortedMap.get?_eq_some_iff_mem.mpr inside)
    change agent.serverId owner = id
    rw [serverId, Agent.server, found, Option.getD_some, sameId]
  rw [same]
  exact SortedMap.keys_nodup _

theorem Sound.dueServerIds_nodup (sound : agent.Sound) (delay : Nat) :
    ((agent.dueServers delay).map agent.serverId).Nodup := by
  rw [sound.dueServers_eq]
  exact sound.serverIds_nodup.sublist (List.filter_sublist.map _)

/-- No host is registered on a server under two names. -/
theorem Sound.hostRefs_nodup (sound : agent.Sound) : (agent.hostRefs owner).Nodup := by
  unfold hostRefs
  split
  · next server found =>
      rw [SortedMap.values, List.nodup_iff_pairwise_ne, List.pairwise_map]
      have distinct := server.hosts.ascending
      refine List.Pairwise.imp_of_mem ?_ distinct
      rintro ⟨name, ref⟩ ⟨other, _⟩ inside insideOther before rfl
      have enrolled := SortedMap.get?_eq_some_iff_mem.mpr inside
      have enrolledOther := SortedMap.get?_eq_some_iff_mem.mpr insideOther
      obtain ⟨station, foundStation, _⟩ := sound.enrolled found enrolled
      have sameName := sound.name_of_enrolled found enrolled foundStation
      have sameOther := sound.name_of_enrolled found enrolledOther foundStation
      rw [← sameName, ← sameOther] at before
      exact Std.lt_irrefl before
  · exact List.nodup_nil

/-- No host is registered on two servers. -/
theorem Sound.owner_eq_of_mem_hostRefs (sound : agent.Sound) {other : ServerRef}
    (inside : ref ∈ agent.hostRefs owner) (insideOther : ref ∈ agent.hostRefs other) :
    owner = other := by
  have enrolled : ∀ {owner : ServerRef}, ref ∈ agent.hostRefs owner →
      ∃ server name, agent.server? owner = some server ∧ server.hosts.get? name = some ref := by
    intro owner inside
    unfold hostRefs at inside
    split at inside
    · next server found =>
        obtain ⟨⟨name, _⟩, listed, rfl⟩ := List.mem_map.mp inside
        exact ⟨server, name, found, SortedMap.get?_eq_some_iff_mem.mpr listed⟩
    · exact absurd inside List.not_mem_nil
  obtain ⟨server, name, found, lists⟩ := enrolled inside
  obtain ⟨server', name', found', lists'⟩ := enrolled insideOther
  obtain ⟨station, foundStation, reporting⟩ := sound.enrolled found lists
  obtain ⟨station', foundStation', reporting'⟩ := sound.enrolled found' lists'
  rw [foundStation, Option.some.injEq] at foundStation'
  subst foundStation'
  rw [reporting, Option.some.injEq, Prod.mk.injEq] at reporting'
  exact sound.wired.serverApart found found' reporting'.1

/-- Where a check is kept: on which host, and under which key. -/
def place (item : HostRef × Check) : HostRef × String := (item.1, item.2.key)

theorem place_of_mem_assigned {item : HostRef × Check} (inside : item ∈ agent.assigned owner delay) :
    (place item).1 ∈ agent.hostRefs owner := by
  obtain ⟨ref, registered, inside⟩ := List.mem_flatMap.mp inside
  obtain ⟨check, _, rfl⟩ := List.mem_map.mp inside
  exact registered

/-- No two of some checks are kept in the same place. -/
def Apart (items : List (HostRef × Check)) : Prop := (items.map place).Nodup

theorem Apart.left {first second : List (HostRef × Check)} (apart : Apart (first ++ second)) :
    Apart first := by
  rw [Apart, List.map_append, List.nodup_append] at apart
  exact apart.1

theorem Apart.of_perm {first second : List (HostRef × Check)} (apart : Apart second)
    (same : first.Perm second) : Apart first := (same.map place).nodup_iff.mpr apart

theorem Apart.sublist {first second : List (HostRef × Check)} (apart : Apart second)
    (inside : first.Sublist second) : Apart first := List.Nodup.sublist (inside.map place) apart

theorem Apart.fresh {first second : List (HostRef × Check)} (apart : Apart (first ++ second))
    {item : HostRef × Check} (inside : item ∈ second) : place item ∉ first.map place := by
  rw [Apart, List.map_append, List.nodup_append] at apart
  exact fun before => apart.2.2 _ before _ (List.mem_map_of_mem inside) rfl

/-- What comes next can be counted among what was done before. -/
theorem Apart.split {earlier done first rest : List (HostRef × Check)}
    (apart : Apart (earlier ++ done ++ (first ++ rest))) :
    Apart (earlier ++ done ++ first) ∧ Apart (earlier ++ (done ++ first) ++ rest) := by
  rw [← List.append_assoc] at apart
  refine ⟨apart.left, ?_⟩
  rwa [← List.append_assoc earlier done first]

theorem Sound.apart_assigned (sound : agent.Sound) {owners : List ServerRef} (apart : owners.Nodup)
    (delay : Nat) : Apart (owners.flatMap fun owner => agent.assigned owner delay) := by
  rw [Apart, List.map_flatMap, List.nodup_iff_pairwise_ne, List.pairwise_flatMap]
  constructor
  · intro owner _
    rw [assigned, List.map_flatMap, List.pairwise_flatMap]
    constructor
    · intro ref _
      have keys : (((agent.allChecks ref).filter fun check => check.delay = delay).map (·.key)).Nodup := by
        refine List.Sublist.nodup (List.filter_sublist.map _) ?_
        rw [sound.map_key_allChecks]
        exact SortedMap.keys_nodup _
      rw [List.map_map, List.pairwise_map]
      rw [List.nodup_iff_pairwise_ne, List.pairwise_map] at keys
      exact keys.imp fun different same => different (congrArg Prod.snd same)
    · refine (List.nodup_iff_pairwise_ne.mp sound.hostRefs_nodup).imp ?_
      intro ref other different _ placed _ placedOther same
      obtain ⟨_, inside, rfl⟩ := List.mem_map.mp placed
      obtain ⟨_, _, rfl⟩ := List.mem_map.mp inside
      obtain ⟨_, insideOther, rfl⟩ := List.mem_map.mp placedOther
      obtain ⟨_, _, rfl⟩ := List.mem_map.mp insideOther
      exact different (congrArg Prod.fst same)
  · refine (List.nodup_iff_pairwise_ne.mp apart).imp ?_
    intro owner other different _ placed _ placedOther same
    obtain ⟨item, inside, rfl⟩ := List.mem_map.mp placed
    obtain ⟨item', insideOther, rfl⟩ := List.mem_map.mp placedOther
    refine different (sound.owner_eq_of_mem_hostRefs (place_of_mem_assigned inside) ?_)
    rw [same]
    exact place_of_mem_assigned insideOther

theorem Sound.assigned_nodup (sound : agent.Sound) : (agent.assigned owner delay).Nodup := by
  have apart := sound.apart_assigned (List.nodup_singleton owner) delay
  rw [List.flatMap_singleton] at apart
  exact apart.of_map place

theorem Sound.apart_allDue (sound : agent.Sound) : Apart (agent.allDue owner delay) := by
  by_cases registered : ∃ id, agent.serverNamed? id = some owner
  · obtain ⟨id, named⟩ := registered
    have apart := sound.apart_assigned (List.nodup_singleton owner) delay
    rwa [List.flatMap_singleton, ← sound.allDue_eq_assigned named] at apart
  · rw [allDue, sound.dueHosts_of_unregistered (not_exists.mp registered)]
    exact List.nodup_nil

theorem Sound.check?_of_mem_dueItems {item : HostRef × Check} (sound : agent.Sound)
    (inside : item ∈ agent.dueItems delay ref) : agent.check? item.1 item.2.key = some item.2 := by
  obtain ⟨check, due, rfl⟩ := List.mem_map.mp inside
  rw [dueChecks_eq_filterMap, List.mem_filterMap] at due
  obtain ⟨key, held, found⟩ := due
  obtain ⟨check', found', sameKey⟩ := sound.exists_check?_of_held held
  rw [found, Option.some.injEq] at found'
  subst found'
  dsimp only
  rw [sameKey, found]

end Agent

end CheckRounds
