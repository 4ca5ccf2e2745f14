import CheckRounds.Proofs.Agent.Attempts
import CheckRounds.Proofs.Agent.MapHosts
import CheckRounds.Proofs.Agent.Removal

namespace CheckRounds

/-! What the handles of a removed server can still do.

The hosts that a server had when it was removed are withdrawn, so nothing that is done to them
reaches the root.  A host that is added to it later is not withdrawn.  It may come and go, and
the root and the timers do not hear of it before somebody gives it orders; so up to then the
agent is as sound as if the host had been withdrawn from the start.
-/

open Schedule (BucketRef Change Forest Scheduler)
open Schedule.Scheduler (rootRef)

namespace Host

/-- The host as if it had been withdrawn. -/
def retired (host : Host) : Host := { host with withdrawn := true }

theorem retired_of_withdrawn {host : Host} (withdrawn : host.withdrawn = true) :
    host.retired = host := by
  obtain ⟨name, period, checks, refresh, _⟩ := host
  exact congrArg (Host.mk name period checks refresh) withdrawn.symm

theorem stateAt_retired (host : Host) (now : Instant) :
    (host.retired.stateAt now).2 = (host.stateAt now).2.retired := by
  unfold stateAt periodOver retired
  dsimp only
  split <;> rfl

end Host

namespace Agent

/-- The change of hosts that retires some of them. -/
def retire (late : List HostRef) (ref : HostRef) (host : Host) : Host :=
  if ref ∈ late then host.retired else host

section

variable {agent before middle after : Agent} {late : List HostRef} {ref : HostRef} {host : Host}

theorem checks_retire (host : Host) : (retire late ref host).checks = host.checks := by
  unfold retire
  split <;> rfl

theorem withdraw_retire (host : Host) :
    (retire late ref host).withdraw = (host.withdraw.1, retire late ref host.withdraw.2) := by
  unfold retire
  split <;> rfl

theorem stateAt_retire (host : Host) (now : Instant) :
    ((retire late ref host).stateAt now).2 = retire late ref (host.stateAt now).2 := by
  unfold retire
  split
  · exact host.stateAt_retired now
  · rfl

/-- Orders that a late host drops, it drops as well when it is retired. -/
theorem reconcile_retire (orders : List Order) (now : Instant)
    (dropped : ref ∈ late → host.withdrawn = true) : (retire late ref host).reconcile orders now =
      { host.reconcile orders now with host := retire late ref (host.reconcile orders now).host } := by
  unfold retire
  split
  · next isLate =>
      have withdrawn := dropped isLate
      rw [Host.retired_of_withdrawn withdrawn, Host.reconcile_of_withdrawn withdrawn,
        Host.retired_of_withdrawn withdrawn]
  · rfl

theorem spares_retire (present : ∀ ref ∈ late, ∃ host, agent.host? ref = some host) :
    Spares (retire late) agent := by
  intro ref host outside
  refine if_neg fun isLate => ?_
  obtain ⟨_, found⟩ := present ref isLate
  rw [host?, List.getElem?_eq_none outside] at found
  contradiction

/-- A new host can be late from the start. -/
theorem mapHosts_retire_withHost (owner : ServerRef) (server : Server) (config : HostConfig) :
    (agent.withHost owner server config).mapHosts (retire (agent.stations.length :: late)) =
      { (agent.mapHosts (retire late)).withHost owner server config with
        stations := (agent.mapHosts (retire late)).stations ++
          [⟨(agent.newStation server config).host.retired, agent.scheduler.forest.size⟩] } := by
  have earlier : agent.stations.mapIdx (fun ref station =>
        { station with host := retire (agent.stations.length :: late) ref station.host }) =
      agent.stations.mapIdx fun ref station => { station with host := retire late ref station.host } := by
    refine List.mapIdx_eq_mapIdx_iff.mpr fun other inside => ?_
    simp [retire, Nat.ne_of_lt inside]
  unfold withHost enrolHost mapHosts modifyServer newStation
  dsimp only
  rw [List.mapIdx_concat, List.length_mapIdx, earlier, retire, if_pos List.mem_cons_self]

/-! ### The root -/

/-- What the timers hear is the same. -/
structure SameRoot (before after : Agent) : Prop where
  root : after.scheduler.root = before.scheduler.root
  timers : after.scheduler.timers = before.scheduler.timers

theorem sameRoot_of_scheduler (same : after.scheduler = before.scheduler) : before.SameRoot after :=
  ⟨congrArg Scheduler.root same, congrArg Scheduler.timers same⟩

theorem SameRoot.trans (first : before.SameRoot middle) (second : middle.SameRoot after) :
    before.SameRoot after :=
  ⟨second.root.trans first.root, second.timers.trans first.timers⟩

/-- Withdrawing a host without checks changes no bucket. -/
theorem scheduler_withdraw_of_idle (found : agent.host? ref = some host)
    (idle : host.checks = .empty) : (agent.withdraw ref).scheduler = agent.scheduler := by
  have unchanged : host.withdraw.1 = [] := by
    rw [Host.withdraw, idle]
    rfl
  unfold withdraw
  rw [found]
  dsimp only
  rw [unchanged, reschedule_nil]
  rfl

end

/-! ### Acts -/

/-- What can be done to an agent by those who have kept the handles of its servers. -/
inductive Act
  | perform (operation : Operation)
  /-- Adds a host to a server that was removed. -/
  | addHost (server : ServerRef) (config : HostConfig)

/-- An agent, and the hosts that were added to a server when it had been removed. -/
structure Shared where
  agent : Agent
  late : List HostRef

namespace Shared

def act (shared : Shared) : Act → Shared
  | .perform operation => { shared with agent := shared.agent.perform operation }
  | .addHost server config =>
      match shared.agent.registerHost server config with
      | .ok (host, agent) => ⟨agent, host :: shared.late⟩
      | .error _ => shared

/-- A late host gets no orders before it is withdrawn. -/
def Permits (shared : Shared) : Act → Prop
  | .perform (.applyOrders host _ _) =>
      host ∈ shared.late → shared.agent.hasWithdrawn host = true
  | .perform _ => True
  | .addHost server _ => ¬shared.agent.Registered server

/-- One state leads to another one by acts that are allowed in the states between them. -/
inductive Leads (allowed : Shared → Act → Prop) (start : Shared) : Shared → Prop
  | stay : Leads allowed start start
  | act {shared : Shared} (leads : Leads allowed start shared) (act : Act)
      (allows : allowed shared act) : Leads allowed start (shared.act act)

end Shared

/-- A host was added to a server at some time; both may have been removed. -/
def Hosts (agent : Agent) (owner : ServerRef) (ref : HostRef) : Prop :=
  ∃ (server : Server) (station : Station) (name : String), agent.server? owner = some server ∧
    agent.stations[ref]? = some station ∧
      agent.scheduler.forest.parent station.bucket = some (server.bucket, name)

instance (agent : Agent) (owner : ServerRef) (ref : HostRef) : Decidable (agent.Hosts owner ref) :=
  decidable_of_iff ((agent.server? owner).any fun server => agent.stations[ref]?.any fun station =>
      (agent.scheduler.forest.parent station.bucket).any fun link => link.1 = server.bucket) <| by
    simp [Hosts, Option.any_eq_true]

/-- An act uses the handle of a server or one of the handles of its hosts. -/
def UsesHandle (agent : Agent) (owner : ServerRef) : Act → Prop
  | .addHost server _ => server = owner
  | .perform (.unregisterHost server _) => server = owner
  | .perform (.noteSubmission server _) => server = owner
  | .perform (.applyOrders host _ _) => agent.Hosts owner host
  | .perform (.noteFault host _ _) => agent.Hosts owner host
  | .perform (.withdraw host) => agent.Hosts owner host
  | .perform (.askState host _) => agent.Hosts owner host
  | .perform (.askRefresh host _) => agent.Hosts owner host
  | .perform (.keepValue host _ _ _) => agent.Hosts owner host
  | .perform _ => False

namespace Shared

/-- Acts with the handle of a server. -/
def UsesOnly (owner : ServerRef) (shared : Shared) (act : Act) : Prop :=
  shared.Permits act ∧ shared.agent.UsesHandle owner act

variable {shared : Shared}

/-! ### Late hosts are as good as withdrawn -/

/-- The agent would be sound if all late hosts were withdrawn. -/
structure Sound (shared : Shared) : Prop where
  agent : (shared.agent.mapHosts (retire shared.late)).Sound
  late : ∀ ref ∈ shared.late, ∃ host, shared.agent.host? ref = some host

theorem Sound.spares (sound : shared.Sound) : Spares (retire shared.late) shared.agent :=
  spares_retire sound.late

theorem Sound.mapHosts_perform (sound : shared.Sound) {operation : Operation}
    (permits : shared.Permits (.perform operation)) :
    (shared.agent.perform operation).mapHosts (retire shared.late) =
      (shared.agent.mapHosts (retire shared.late)).perform operation := by
  cases operation with
  | registerServer config =>
      simp only [Agent.perform]
      rw [registerServer_mapHosts sound.spares]
      cases shared.agent.registerServer config <;> rfl
  | registerHost server config =>
      have sameServer : (shared.agent.mapHosts (retire shared.late)).serverNamed? server =
          shared.agent.serverNamed? server := rfl
      simp only [Agent.perform]
      rw [sameServer]
      cases shared.agent.serverNamed? server with
      | none => rfl
      | some owner =>
          dsimp only
          rw [registerHost_mapHosts sound.spares]
          cases shared.agent.registerHost owner config <;> rfl
  | unregisterServer id => exact mapHosts_unregisterServer (fun _ => withdraw_retire) id
  | unregisterHost server name => exact mapHosts_unregisterHost (fun _ => withdraw_retire) name
  | applyOrders host orders now =>
      refine mapHosts_applyOrders orders now fun found foundHost => ?_
      refine reconcile_retire orders now fun isLate => ?_
      have withdrawn : shared.agent.hasWithdrawn host = true := permits isLate
      rwa [hasWithdrawn, foundHost] at withdrawn
  | noteFault host fault now =>
      refine mapHosts_noteFault fault now fun found => ?_
      unfold retire
      split <;> rfl
  | withdraw host => exact mapHosts_withdraw withdraw_retire
  | askState host now => exact mapHosts_hostState now fun found => stateAt_retire found now
  | askRefresh host now =>
      refine mapHosts_wantsRefresh now fun found => ?_
      rw [Host.wantsRefresh_snd, Host.wantsRefresh_snd, stateAt_retire]
  | keepValue host key value now =>
      refine mapHosts_keepValue key value now fun found => ?_
      unfold retire
      split <;> rfl
  | noteSubmission server stats => rfl
  | usePolicy policy => rfl
  | useCollation collation => rfl
  | advanceTimers seconds => rfl
  | dropTicks => rfl

theorem Sound.act (sound : shared.Sound) (act : Act) (permits : shared.Permits act) :
    (shared.act act).Sound := by
  cases act with
  | perform operation =>
      constructor
      case agent =>
        have sameShadow := sound.mapHosts_perform permits
        exact sameShadow ▸ sound.agent.perform operation
      case late =>
        intro ref isLate
        obtain ⟨host, found⟩ := sound.late ref isLate
        obtain ⟨later, foundLater, _⟩ := hostsStay_perform shared.agent operation ref host found
        exact ⟨later, foundLater⟩
  | addHost owner config =>
      simp only [Shared.act]
      split
      · next ref after done =>
          have stays := (HostsGrow.of_registerHost done).stay
          obtain ⟨rfl, _⟩ := length_registerHost done
          obtain ⟨server, found, unknown, rfl⟩ := registerHost_eq_ok done
          constructor
          case agent =>
            -- its server may be gone, but among retired hosts the new one counts as withdrawn
            rw [mapHosts_retire_withHost]
            exact sound.agent.withStation found unknown rfl rfl rfl fun present =>
              absurd present.symm Bool.false_ne_true
          case late =>
            intro ref isLate
            cases isLate with
            | head => exact ⟨_, host?_eq_some_iff.mpr ⟨_, getElem?_withHost.mpr (.inr ⟨rfl, rfl⟩), rfl⟩⟩
            | tail _ isLate =>
                obtain ⟨host, foundHost⟩ := sound.late ref isLate
                obtain ⟨later, foundLater, _⟩ := stays ref host foundHost
                exact ⟨later, foundLater⟩
      · exact sound

theorem sound_create {config : Config} {agent : Agent} (done : create config = .ok agent) :
    Sound ⟨agent, []⟩ where
  agent := by
    have same : agent.mapHosts (retire []) = agent :=
      mapHosts_eq_self fun _ _ => if_neg List.not_mem_nil
    exact same.symm ▸ Agent.sound_create done
  late _ isLate := absurd isLate List.not_mem_nil

theorem Sound.leads {after : Shared} (sound : shared.Sound) (leads : Leads Permits shared after) :
    after.Sound := by
  induction leads with
  | stay => exact sound
  | act _ act permits ih => exact ih.act act permits

/-- A server that is not registered is not in the root. -/
theorem Sound.not_holds_root (sound : shared.Sound) {id : String}
    (unknown : shared.agent.serverNamed? id = none) (delay : Nat) :
    ¬shared.agent.scheduler.root.Holds delay id := by
  intro held
  obtain ⟨owner, _, named, _⟩ := sound.agent.holds_root_iff.mp held
  have namedHere : shared.agent.serverNamed? id = some owner := named
  rw [unknown] at namedHere
  contradiction

/-! ### Hosts of a removed server -/

/-- A host of a server that is not registered has no checks; it is withdrawn unless it is late. -/
theorem Sound.idle (sound : shared.Sound) {owner : ServerRef} {ref : HostRef}
    (gone : ¬shared.agent.Registered owner) (hosts : shared.agent.Hosts owner ref) :
    ∃ host, shared.agent.host? ref = some host ∧ host.checks = .empty ∧
      (host.withdrawn = true ∨ ref ∈ shared.late) := by
  obtain ⟨server, station, name, foundServer, found, reporting⟩ := hosts
  have foundShadow : (shared.agent.mapHosts (retire shared.late)).stations[ref]? =
      some { station with host := retire shared.late ref station.host } := by
    rw [getElem?_mapHosts, found]
    rfl
  -- with the late hosts retired, a host that is not withdrawn has its server registered
  have withdrawn : (retire shared.late ref station.host).withdrawn = true := by
    by_contra present
    rw [Bool.not_eq_true] at present
    have named := (sound.agent.registered_of_active foundShadow present foundServer reporting).1
    exact gone ⟨server, foundServer, named⟩
  refine ⟨station.host, host?_eq_some_iff.mpr ⟨station, found, rfl⟩, ?_, ?_⟩
  · have idle := sound.agent.idle foundShadow withdrawn
    rwa [checks_retire] at idle
  · by_cases isLate : ref ∈ shared.late
    · exact .inr isLate
    · rw [retire, if_neg isLate] at withdrawn
      exact .inl withdrawn

theorem Sound.hosts_of_hostNamed? (sound : shared.Sound) {owner : ServerRef} {name : String} {ref : HostRef}
    (named : shared.agent.hostNamed? owner name = some ref) : shared.agent.Hosts owner ref := by
  obtain ⟨server, foundServer, enrolled⟩ := Option.bind_eq_some_iff.mp named
  obtain ⟨station, found, reporting⟩ := sound.agent.enrolled foundServer enrolled
  rw [getElem?_mapHosts] at found
  obtain ⟨before, foundBefore, rfl⟩ := Option.map_eq_some_iff.mp found
  exact ⟨server, before, name, foundServer, foundBefore, reporting⟩

/-- Adding a host plants a bucket, and the buckets before it are left alone. -/
theorem Sound.sameRoot_withHost (sound : shared.Sound) (owner : ServerRef) (server : Server)
    (config : HostConfig) : shared.agent.SameRoot (shared.agent.withHost owner server config) where
  root := bucket_withHost_of_lt sound.agent.wired.planted
  timers := rfl

/-- Nothing that is done with the handle of a removed server reaches the root or the timers. -/
theorem Sound.sameRoot_act (sound : shared.Sound) {owner : ServerRef} {act : Act}
    (gone : ¬shared.agent.Registered owner) (permits : shared.Permits act)
    (uses : shared.agent.UsesHandle owner act) : shared.agent.SameRoot (shared.act act).agent := by
  cases act with
  | addHost server config =>
      simp only [Shared.act]
      split
      · next done =>
          obtain ⟨hosting, _, _, rfl⟩ := registerHost_eq_ok done
          exact sound.sameRoot_withHost server hosting config
      · exact sameRoot_of_scheduler rfl
  | perform operation =>
      refine sameRoot_of_scheduler ?_
      cases operation with
      | unregisterHost server name =>
          cases uses
          simp only [Shared.act, Agent.perform, unregisterHost]
          split
          · rfl
          · next ref named =>
              obtain ⟨host, found, idle, _⟩ := sound.idle gone (sound.hosts_of_hostNamed? named)
              let erased := shared.agent.modifyServer owner fun server =>
                { server with hosts := server.hosts.erase name }
              exact @scheduler_withdraw_of_idle erased ref host found idle
      | applyOrders ref orders now =>
          obtain ⟨host, found, _, withdrawnOrLate⟩ := sound.idle gone uses
          have withdrawn : host.withdrawn = true := by
            rcases withdrawnOrLate with withdrawn | isLate
            · exact withdrawn
            · have withdrawn : shared.agent.hasWithdrawn ref = true := permits isLate
              rwa [hasWithdrawn, found] at withdrawn
          exact (sameSchedule_applyOrders_of_withdrawn found withdrawn orders now).scheduler
      | withdraw ref =>
          obtain ⟨host, found, idle, _⟩ := sound.idle gone uses
          exact scheduler_withdraw_of_idle found idle
      | noteFault _ _ _ | askState _ _ | askRefresh _ _ | keepValue _ _ _ _ =>
          simp only [Shared.act, Agent.perform, noteFault, hostState, wantsRefresh, keepValue]
          split <;> rfl
      | noteSubmission server stats => rfl
      | _ => exact absurd uses id

variable {start after : Shared} {owner : ServerRef}

theorem registersOnlyNew_act (shared : Shared) (act : Act) :
    shared.agent.RegistersOnlyNew (shared.act act).agent := by
  cases act with
  | perform operation => exact registersOnlyNew_perform shared.agent operation
  | addHost server config =>
      simp only [Shared.act]
      split
      · next done => exact .of_registerHost done
      · exact registersOnlyNew_of_servers rfl rfl

theorem Leads.registersOnlyNew {allowed : Shared → Act → Prop} (leads : start.Leads allowed after) :
    start.agent.RegistersOnlyNew after.agent := by
  induction leads with
  | stay => exact registersOnlyNew_of_servers rfl rfl
  | act _ act _ ih => exact ih.trans (registersOnlyNew_act _ act)

theorem Leads.mono {allowed wider : Shared → Act → Prop} (leads : start.Leads allowed after)
    (within : ∀ {shared act}, allowed shared act → wider shared act) : start.Leads wider after := by
  induction leads with
  | stay => exact .stay
  | act _ act allows ih => exact ih.act act (within allows)

/-- Whatever is done in a row with the handle of a removed server, the root and the timers do not
hear of it. -/
theorem Sound.sameRoot_leads (sound : start.Sound) (old : owner < start.agent.servers.length)
    (gone : ¬start.agent.Registered owner) (leads : start.Leads (UsesOnly owner) after) :
    start.agent.SameRoot after.agent := by
  induction leads with
  | stay => exact sameRoot_of_scheduler rfl
  | act leads act uses ih =>
      have soundHere := sound.leads (leads.mono And.left)
      have goneHere := mt (leads.registersOnlyNew.registered owner old) gone
      exact ih.trans (soundHere.sameRoot_act goneHere uses.1 uses.2)

end Shared

/-- After a server was removed, its handle and those of its hosts are of no effect on the root and
the timers, be its name registered again or not; and the root does not list the name until then.
The only thing left out is to give orders to a host that was added after the removal and is not
withdrawn yet. -/
theorem removed_server_stays_silent {config : Config} {created : Agent} {before later after : Shared}
    {id : String} {owner : ServerRef} (done : create config = .ok created)
    (start : Shared.Leads Shared.Permits ⟨created, []⟩ before)
    (named : before.agent.serverNamed? id = some owner)
    (meanwhile : Shared.Leads Shared.Permits (before.act (.perform (.unregisterServer id))) later)
    (uses : later.Leads (Shared.UsesOnly owner) after) :
    later.agent.SameRoot after.agent ∧
      (later.agent.serverNamed? id = none → ∀ delay, ¬after.agent.scheduler.root.Holds delay id) := by
  have sound := (Shared.sound_create done).leads start
  obtain ⟨server, found, rfl⟩ := sound.agent.registered named
  have foundHere : before.agent.server? owner = some server := found
  have inside : owner < before.agent.servers.length := (List.getElem?_eq_some_iff.mp foundHere).1
  have insideAfter := Nat.lt_of_lt_of_le inside (registersOnlyNew_unregisterServer server.id).longer
  have soundLater := (sound.act (.perform (.unregisterServer server.id)) trivial).leads meanwhile
  have goneLater : ¬later.agent.Registered owner :=
    mt (meanwhile.registersOnlyNew.registered owner insideAfter)
      (not_registered_unregisterServer foundHere)
  have oldLater := Nat.lt_of_lt_of_le insideAfter meanwhile.registersOnlyNew.longer
  have same := soundLater.sameRoot_leads oldLater goneLater uses
  refine ⟨same, fun unknown delay => ?_⟩
  rw [same.root]
  exact soundLater.not_holds_root unknown delay

theorem removed_server_stays_silent_after_late_host :
    let running : Shared :=
      ⟨(empty {}).perform (.registerServer { address := "a", hosts := [{ name := "h" }] }), []⟩
    let removed := running.act (.perform (.unregisterServer "a:10051"))
    let extended := removed.act (.addHost 0 { name := "late" })
    let emptied := extended.act (.perform (.unregisterHost 0 "late"))
    let ordered := emptied.act (.perform (.applyOrders 1 [{ key := "k", delay := 60 }] default))
    removed.agent.SameRoot ordered.agent ∧
      ∀ delay, ¬ordered.agent.scheduler.root.Holds delay "a:10051" := by
  intro running removed extended emptied ordered
  have created : create { servers := [] } = .ok (empty {}) := rfl
  have start : Shared.Leads Shared.Permits ⟨empty {}, []⟩ running :=
    .act .stay (.perform (.registerServer { address := "a", hosts := [{ name := "h" }] })) trivial
  have named : running.agent.serverNamed? "a:10051" = some 0 := by decide +kernel
  have gone : ¬removed.agent.Registered 0 := by decide +kernel
  have added : removed.Leads (Shared.UsesOnly 0) extended :=
    .act .stay (.addHost 0 { name := "late" }) ⟨gone, rfl⟩
  have dropped : removed.Leads (Shared.UsesOnly 0) emptied :=
    added.act (.perform (.unregisterHost 0 "late")) ⟨trivial, rfl⟩
  have withdrawn : emptied.agent.hasWithdrawn 1 = true := by decide +kernel
  have hosted : emptied.agent.Hosts 0 1 := by decide +kernel
  have uses : removed.Leads (Shared.UsesOnly 0) ordered :=
    dropped.act (.perform (.applyOrders 1 _ _)) ⟨fun _ => withdrawn, hosted⟩
  have silent := removed_server_stays_silent created start named .stay uses
  exact ⟨silent.1, silent.2 (by decide +kernel)⟩

/-- A host that is added to a removed server brings its name back into the root when it gets
orders; and when it goes, it takes the entry of a server with it that was registered since then. -/
theorem late_host_rearms_removed_server :
    let running := (empty {}).perform (.registerServer { address := "a", hosts := [{ name := "h" }] })
    let removed : Shared := ⟨running.perform (.unregisterServer "a:10051"), []⟩
    let extended := (removed.act (.addHost 0 { name := "late" })).agent
    let ordered := extended.perform (.applyOrders 1 [{ key := "k", delay := 60 }] default)
    let renewed := (ordered.perform (.registerServer { address := "a", hosts := [{ name := "h" }] })).perform
      (.applyOrders 2 [{ key := "k", delay := 60 }] default)
    (ordered.serverNamed? "a:10051" = none ∧ ordered.scheduler.root.Holds 60 "a:10051" ∧
        removed.agent.timerDelays = [] ∧ ordered.timerDelays = [60]) ∧
      renewed.serverNamed? "a:10051" = some 1 ∧ (renewed.serverBucketOf 1).Holds 60 "h" ∧
        renewed.scheduler.root.Holds 60 "a:10051" ∧
          ¬(renewed.perform (.withdraw 1)).scheduler.root.Holds 60 "a:10051" := by
  decide +kernel

end Agent

end CheckRounds
