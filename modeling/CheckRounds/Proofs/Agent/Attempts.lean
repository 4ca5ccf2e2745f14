import CheckRounds.Proofs.Host.Freshness
import CheckRounds.Proofs.Refresh

namespace CheckRounds

/-! The latest attempt to refresh each host of an agent.

Whatever is done to an agent, a host keeps its name and its refresh period, and what it
remembers of its refreshes is its latest attempt.  A host that is asked for its state after
its period is over is marked as stale; nothing else that is done in between shows.
-/

namespace Host

/-! ### One host -/

/-- What is stored of the latest attempt.  A host is stale only if a question came when its
period was over. -/
def Recalls (host : Host) (latest : Option Attempt) (questions : List Instant) : Prop :=
  match latest with
  | none => host.refresh.state = .init
  | some ⟨since, none⟩ => host.refresh.lastRefresh = some since ∧
      (host.refresh.state = .active ∨ host.refresh.state = .stale ∧
        ∃ time ∈ questions, host.refreshPeriod ≤ since.secondsUntil time)
  | some ⟨since, some fault⟩ =>
      host.refresh.state = .afterFault fault ∧ host.refresh.lastAttempt = some since

/-- Whether a host is to be refreshed at a time, by its latest attempt: a host that is not
known to its server when its period is over, a host that was refreshed when its period is over
or was over at an earlier question, and any other host always. -/
def IsWanted (period : Nat) (latest : Option Attempt) (questions : List Instant) (now : Instant)
    (wanted : Prop) : Prop :=
  match latest with
  | none => wanted
  | some ⟨since, none⟩ =>
      (period ≤ since.secondsUntil now → wanted) ∧
        (wanted → ∃ time ∈ now :: questions, period ≤ since.secondsUntil time)
  | some ⟨since, some (.unknownHost _)⟩ => wanted ↔ period ≤ since.secondsUntil now
  | some ⟨_, some _⟩ => wanted

variable {host before after : Host} {latest : Option Attempt} {questions : List Instant} {now : Instant}

theorem Recalls.isWanted (recalls : host.Recalls latest questions) (now : Instant) :
    IsWanted host.refreshPeriod latest questions now ((host.wantsRefresh now).1 = true) := by
  cases latest with
  | none =>
      have initial : host.refresh.state = .init := recalls
      have asked : host.stateAt now = (.init, host) := by
        rw [stateAt_of_ne_active (by simp [initial]), initial]
      rw [IsWanted, wantsRefresh_of_stateAt asked]
      rfl
  | some attempt =>
      obtain ⟨since, outcome⟩ := attempt
      cases outcome with
      | none =>
          obtain ⟨lastRefresh, active | ⟨stale, time, asked, elapsed⟩⟩ := recalls
          · have asked := stateAt_of_active active lastRefresh now
            by_cases current : since.secondsUntil now < host.refreshPeriod
            · rw [if_pos current] at asked
              have running : ¬host.refreshPeriod ≤ since.secondsUntil now := Nat.not_le_of_lt current
              have unwanted : (host.wantsRefresh now).1 = false := by
                rw [wantsRefresh_of_stateAt asked, lastRefresh]
                simp [HostState.wantsOrders, periodOver, running]
              rw [unwanted]
              exact ⟨fun elapsed => absurd elapsed running, fun wanted => absurd wanted Bool.false_ne_true⟩
            · rw [if_neg current] at asked
              have wanted : (host.wantsRefresh now).1 = true := by
                rw [wantsRefresh_of_stateAt asked]
                rfl
              exact ⟨fun _ => wanted, fun _ => ⟨now, List.mem_cons_self, Nat.le_of_not_lt current⟩⟩
          · have askedNow : host.stateAt now = (.stale, host) := by
              rw [stateAt_of_ne_active (by simp [stale]), stale]
            have wanted : (host.wantsRefresh now).1 = true := by
              rw [wantsRefresh_of_stateAt askedNow]
              rfl
            exact ⟨fun _ => wanted, fun _ => ⟨time, List.mem_cons_of_mem _ asked, elapsed⟩⟩
      | some fault =>
          obtain ⟨state, lastAttempt⟩ := recalls
          have inactive : HostState.afterFault fault ≠ .active := by
            cases fault <;> simp [HostState.afterFault]
          have asked : host.stateAt now = (.afterFault fault, host) := by
            rw [stateAt_of_ne_active (state ▸ inactive), state]
          rw [wantsRefresh_of_stateAt asked, lastAttempt]
          cases fault with
          | unknownHost name => exact decide_eq_true_iff
          | _ => rfl

theorem Recalls.ask (recalls : host.Recalls latest questions) (asked : now ∈ questions) :
    (host.stateAt now).2.Recalls latest questions := by
  unfold stateAt
  split
  · next elapsed =>
      obtain ⟨active, _, elapsed⟩ := elapsed
      cases latest with
      | none =>
          have initial : host.refresh.state = .init := recalls
          rw [initial] at active
          contradiction
      | some attempt =>
          obtain ⟨since, outcome⟩ := attempt
          cases outcome with
          | none =>
              rw [recalls.1] at elapsed
              exact ⟨recalls.1, .inr ⟨rfl, now, asked, of_decide_eq_true elapsed⟩⟩
          | some fault =>
              rw [recalls.1] at active
              cases fault <;> contradiction
  · exact recalls

theorem Recalls.mono {more : List Instant} (recalls : host.Recalls latest questions)
    (within : ∀ time ∈ questions, time ∈ more) : host.Recalls latest more := by
  cases latest with
  | none => exact recalls
  | some attempt =>
      obtain ⟨since, outcome⟩ := attempt
      cases outcome with
      | none =>
          obtain ⟨lastRefresh, active | ⟨stale, time, asked, elapsed⟩⟩ := recalls
          · exact ⟨lastRefresh, .inl active⟩
          · exact ⟨lastRefresh, .inr ⟨stale, time, within time asked, elapsed⟩⟩
      | some fault => exact recalls

/-- A host is the same but for its checks; it may have been withdrawn. -/
structure Persists (before after : Host) : Prop where
  name : after.name = before.name
  refreshPeriod : after.refreshPeriod = before.refreshPeriod
  refresh : after.refresh = before.refresh
  withdrawn : before.withdrawn = true → after.withdrawn = true

theorem persists_refl (host : Host) : host.Persists host := ⟨rfl, rfl, rfl, id⟩

theorem Persists.trans {middle : Host} (first : before.Persists middle) (second : middle.Persists after) :
    before.Persists after :=
  ⟨second.name.trans first.name, second.refreshPeriod.trans first.refreshPeriod,
    second.refresh.trans first.refresh, fun gone => second.withdrawn (first.withdrawn gone)⟩

theorem Recalls.persists (recalls : before.Recalls latest questions) (persists : before.Persists after) :
    after.Recalls latest questions := by
  unfold Recalls at recalls ⊢
  rwa [persists.refresh, persists.refreshPeriod]

end Host

namespace Agent

/-! ### All hosts -/

/-- All hosts are there as before, but for their checks; some may have been withdrawn. -/
def HostsPersist (before after : Agent) : Prop :=
  ∀ ref, Option.Rel Host.Persists (before.host? ref) (after.host? ref)

variable {agent before middle after : Agent} {ref other : HostRef} {owner : ServerRef} {host : Host}

theorem hostsPersist_of_stations (same : after.stations = before.stations) :
    before.HostsPersist after := by
  intro ref
  have sameHost : after.host? ref = before.host? ref := by rw [host?, host?, same]
  rw [sameHost]
  cases before.host? ref with
  | none => exact .none
  | some host => exact .some host.persists_refl

theorem HostsPersist.trans (first : before.HostsPersist middle) (second : middle.HostsPersist after) :
    before.HostsPersist after := by
  intro ref
  have early := first ref
  have late := second ref
  generalize before.host? ref = start at early ⊢
  generalize middle.host? ref = between at early late
  generalize after.host? ref = ended at late ⊢
  cases early with
  | none =>
      cases late
      exact .none
  | some early =>
      cases late with
      | some late => exact .some (early.trans late)

theorem hostsPersist_setHost {changed : Host} (found : agent.host? ref = some host)
    (persists : host.Persists changed) : agent.HostsPersist (agent.setHost ref changed) := by
  intro other
  rw [host?_setHost]
  by_cases same : ref = other
  · rw [if_pos same, ← same, found]
    exact .some persists
  · rw [if_neg same]
    cases agent.host? other with
    | none => exact .none
    | some host => exact .some host.persists_refl

theorem hostsPersist_withdraw (agent : Agent) (ref : HostRef) :
    agent.HostsPersist (agent.withdraw ref) := by
  unfold withdraw
  cases found : agent.host? ref with
  | none => exact hostsPersist_of_stations rfl
  | some host =>
      have withdrawn : host.Persists host.withdraw.2 := ⟨rfl, rfl, rfl, fun _ => rfl⟩
      exact (hostsPersist_setHost found withdrawn).trans (hostsPersist_of_stations stations_reschedule)

theorem hostsPersist_unregisterHost (agent : Agent) (owner : ServerRef) (name : String) :
    agent.HostsPersist (agent.unregisterHost owner name).2 := by
  unfold unregisterHost
  split
  · exact hostsPersist_of_stations rfl
  · next host _ =>
      let erased := agent.modifyServer owner fun server =>
        { server with hosts := server.hosts.erase name }
      have same : agent.HostsPersist erased := hostsPersist_of_stations rfl
      exact same.trans (erased.hostsPersist_withdraw host)

theorem hostsPersist_unregisterHosts (agent : Agent) (owner : ServerRef) (names : List String) :
    agent.HostsPersist (agent.unregisterHosts owner names) := by
  unfold unregisterHosts
  induction names generalizing agent with
  | nil => exact hostsPersist_of_stations rfl
  | cons name rest ih => exact (agent.hostsPersist_unregisterHost owner name).trans (ih _)

theorem hostsPersist_unregisterServer (agent : Agent) (id : String) :
    agent.HostsPersist (agent.unregisterServer id).2 := by
  unfold unregisterServer
  split
  · exact hostsPersist_of_stations rfl
  · next owner _ =>
      let unregistered : Agent := { agent with registered := agent.registered.erase id }
      have same : agent.HostsPersist unregistered := hostsPersist_of_stations rfl
      have emptied := same.trans (unregistered.hostsPersist_unregisterHosts owner
        (((agent.server? owner).map fun server => server.hosts.keys).getD []))
      exact emptied.trans (hostsPersist_of_stations rfl)

theorem hostsPersist_keepValue (agent : Agent) (ref : HostRef) (key value : String) (now : Instant) :
    agent.HostsPersist (agent.keepValue ref key value now) := by
  unfold keepValue
  cases found : agent.host? ref with
  | none => exact hostsPersist_of_stations rfl
  | some host => exact hostsPersist_setHost found ⟨rfl, rfl, rfl, id⟩

/-- All hosts are there as before, and maybe some that were never refreshed. -/
def HostsGrow (before after : Agent) : Prop :=
  ∃ fresh : List Station, after.stations = before.stations ++ fresh ∧
    ∀ station ∈ fresh, station.host.refresh = {}

theorem HostsGrow.trans (first : before.HostsGrow middle) (second : middle.HostsGrow after) :
    before.HostsGrow after := by
  obtain ⟨early, stations, fresh⟩ := first
  obtain ⟨late, stationsLater, freshLater⟩ := second
  refine ⟨early ++ late, ?_, List.forall_mem_append.mpr ⟨fresh, freshLater⟩⟩
  rw [stationsLater, stations, List.append_assoc]

theorem hostsGrow_of_stations (same : after.stations = before.stations) : before.HostsGrow after :=
  ⟨[], by rw [same, List.append_nil], fun _ inside => absurd inside List.not_mem_nil⟩

theorem HostsGrow.of_registerHost {config : HostConfig}
    (done : agent.registerHost owner config = .ok (ref, after)) : agent.HostsGrow after := by
  obtain ⟨server, _, _, rfl⟩ := registerHost_eq_ok done
  exact ⟨[agent.newStation server config], rfl, List.forall_mem_singleton.mpr rfl⟩

theorem HostsGrow.of_registerHosts {configs : List HostConfig}
    (done : agent.registerHosts owner configs = .ok after) : agent.HostsGrow after := by
  induction configs generalizing agent with
  | nil =>
      rw [registerHosts, Except.ok.injEq] at done
      exact hostsGrow_of_stations (congrArg stations done.symm)
  | cons config rest ih =>
      rw [registerHosts] at done
      split at done
      · contradiction
      · next ref next registered => exact (HostsGrow.of_registerHost registered).trans (ih done)

theorem HostsGrow.of_registerServer {config : ServerConfig}
    (done : agent.registerServer config = .ok (owner, after)) : agent.HostsGrow after := by
  unfold registerServer at done
  split at done
  · contradiction
  · split at done
    · contradiction
    · split at done
      · contradiction
      · next registered =>
          cases done
          have enrolled : agent.HostsGrow (agent.enrolServer config) := hostsGrow_of_stations rfl
          exact enrolled.trans (HostsGrow.of_registerHosts registered)

theorem HostsGrow.host? (grow : before.HostsGrow after) (ref : HostRef) :
    after.host? ref = before.host? ref ∨ before.host? ref = none ∧
      ∀ host, after.host? ref = some host → host.refresh = {} := by
  obtain ⟨fresh, stations, unrefreshed⟩ := grow
  unfold Agent.host?
  rw [stations]
  rcases Nat.lt_or_ge ref before.stations.length with inside | outside
  · rw [List.getElem?_append_left inside]
    exact .inl rfl
  · rw [List.getElem?_append_right outside, List.getElem?_eq_none outside]
    refine .inr ⟨rfl, fun host found => ?_⟩
    obtain ⟨station, foundStation, rfl⟩ := Option.map_eq_some_iff.mp found
    exact unrefreshed station (List.mem_of_getElem? foundStation)

/-! ### What is remembered -/

/-- The attempt to refresh a host that is recorded with an operation.  Orders for a host that
was withdrawn are not. -/
def Operation.attempt? (ref : HostRef) (before : Option Host) : Operation → Option Host.Attempt
  | .applyOrders target _ now =>
      if target = ref ∧ before.any (!·.withdrawn) then some ⟨now, none⟩ else none
  | .noteFault target fault now =>
      if target = ref ∧ before.isSome then some ⟨now, some fault⟩ else none
  | _ => none

/-- When a host is asked for its state. -/
def Operation.question? : Operation → Option Instant
  | .askState _ now | .askRefresh _ now => some now
  | _ => none

/-- What an operation does to hosts: one of them is asked or notes an attempt, or they are left
alone and there may be new ones. -/
inductive Touches (agent : Agent) (operation : Operation) (after : Agent) : Prop
  | persist (persist : agent.HostsPersist after)
      (silent : ∀ ref, operation.attempt? ref (agent.host? ref) = none)
  | grow (grow : agent.HostsGrow after)
      (silent : ∀ ref, operation.attempt? ref (agent.host? ref) = none)
  | ask (ref : HostRef) (host : Host) (now : Instant) (found : agent.host? ref = some host)
      (asks : operation.question? = some now)
      (silent : ∀ ref, operation.attempt? ref (agent.host? ref) = none)
      (same : after = agent.setHost ref (host.stateAt now).2)
  | order (ref : HostRef) (host : Host) (orders : List Order) (now : Instant)
      (found : agent.host? ref = some host) (named : operation = .applyOrders ref orders now)
      (persist : (agent.setHost ref (host.reconcile orders now).host).HostsPersist after)
  | fault (ref : HostRef) (host : Host) (fault : Fault) (now : Instant)
      (found : agent.host? ref = some host) (named : operation = .noteFault ref fault now)
      (same : after = agent.setHost ref (host.noteFault fault now))

theorem touches_perform (agent : Agent) (operation : Operation) :
    agent.Touches operation (agent.perform operation) := by
  have untouched : agent.HostsPersist agent := hostsPersist_of_stations rfl
  cases operation with
  | registerServer config =>
      simp only [Agent.perform]
      split
      · next registered => exact .grow (.of_registerServer registered) fun _ => rfl
      · exact .persist untouched fun _ => rfl
  | registerHost server config =>
      simp only [Agent.perform]
      split
      · exact .persist untouched fun _ => rfl
      · split
        · next registered => exact .grow (.of_registerHost registered) fun _ => rfl
        · exact .persist untouched fun _ => rfl
  | unregisterServer id => exact .persist (agent.hostsPersist_unregisterServer id) fun _ => rfl
  | unregisterHost server name =>
      exact .persist (agent.hostsPersist_unregisterHost server name) fun _ => rfl
  | applyOrders target orders now =>
      simp only [Agent.perform, applyOrders]
      cases found : agent.host? target with
      | none =>
          refine .persist untouched fun ref => if_neg ?_
          rintro ⟨rfl, present⟩
          rw [found] at present
          contradiction
      | some host =>
          exact .order target host orders now found rfl (hostsPersist_of_stations stations_reschedule)
  | noteFault target fault now =>
      simp only [Agent.perform, noteFault]
      cases found : agent.host? target with
      | none =>
          refine .persist untouched fun ref => if_neg ?_
          rintro ⟨rfl, present⟩
          rw [found] at present
          contradiction
      | some host => exact .fault target host fault now found rfl rfl
  | withdraw target => exact .persist (agent.hostsPersist_withdraw target) fun _ => rfl
  | askState target now =>
      simp only [Agent.perform, hostState]
      cases found : agent.host? target with
      | none => exact .persist untouched fun _ => rfl
      | some host => exact .ask target host now found rfl (fun _ => rfl) rfl
  | askRefresh target now =>
      simp only [Agent.perform, wantsRefresh]
      cases found : agent.host? target with
      | none => exact .persist untouched fun _ => rfl
      | some host =>
          dsimp only
          rw [Host.wantsRefresh_snd]
          exact .ask target host now found rfl (fun _ => rfl) rfl
  | keepValue target key value now =>
      exact .persist (agent.hostsPersist_keepValue target key value now) fun _ => rfl
  | noteSubmission server stats => exact .persist (hostsPersist_of_stations rfl) fun _ => rfl
  | usePolicy policy => exact .persist (hostsPersist_of_stations rfl) fun _ => rfl
  | useCollation collation => exact .persist (hostsPersist_of_stations rfl) fun _ => rfl
  | advanceTimers seconds => exact .persist (hostsPersist_of_stations rfl) fun _ => rfl
  | dropTicks => exact .persist (hostsPersist_of_stations rfl) fun _ => rfl

/-- All hosts recall their latest attempts, and there was none for a host that is not there. -/
def Recalls (agent : Agent) (latest : HostRef → Option Host.Attempt) (questions : List Instant) : Prop :=
  ∀ ref, match agent.host? ref with
    | none => latest ref = none
    | some host => host.Recalls (latest ref) questions

variable {latest : HostRef → Option Host.Attempt} {questions : List Instant} {now : Instant}

theorem Recalls.of_found (recalls : agent.Recalls latest questions) (found : agent.host? ref = some host) :
    host.Recalls (latest ref) questions := by
  have recalled := recalls ref
  rwa [found] at recalled

theorem Recalls.congr {attempts : HostRef → Option Host.Attempt} (recalls : agent.Recalls latest questions)
    (same : ∀ ref, attempts ref = latest ref) : agent.Recalls attempts questions := by
  rwa [funext same]

theorem Recalls.mono {more : List Instant} (recalls : agent.Recalls latest questions)
    (within : ∀ time ∈ questions, time ∈ more) : agent.Recalls latest more := by
  intro ref
  have recalled := recalls ref
  cases found : agent.host? ref with
  | none => rwa [found] at recalled
  | some host =>
      rw [found] at recalled
      exact recalled.mono within

theorem Recalls.persist (recalls : before.Recalls latest questions) (persist : before.HostsPersist after) :
    after.Recalls latest questions := by
  intro ref
  have recalled := recalls ref
  have persists := persist ref
  generalize before.host? ref = start at recalled persists
  generalize after.host? ref = ended at persists ⊢
  cases persists with
  | none => exact recalled
  | some persists => exact recalled.persists persists

theorem Recalls.grow (recalls : before.Recalls latest questions) (grow : before.HostsGrow after) :
    after.Recalls latest questions := by
  intro ref
  have recalled := recalls ref
  rcases grow.host? ref with same | ⟨absent, unrefreshed⟩
  · rwa [same]
  · rw [absent] at recalled
    cases found : after.host? ref with
    | none => exact recalled
    | some host =>
        have initial : host.refresh.state = .init := by rw [unrefreshed host found]
        dsimp only
        rw [recalled]
        exact initial

/-- One host changes, together with its latest attempt. -/
theorem Recalls.setHost {changed : Host} {attempts : HostRef → Option Host.Attempt}
    (recalls : agent.Recalls latest questions) (found : agent.host? ref = some host)
    (recalled : changed.Recalls (attempts ref) questions)
    (others : ∀ other, ref ≠ other → attempts other = latest other) :
    (agent.setHost ref changed).Recalls attempts questions := by
  intro other
  rw [host?_setHost]
  by_cases same : ref = other
  · subst same
    rw [if_pos rfl, found]
    exact recalled
  · rw [if_neg same, others other same]
    exact recalls other

theorem Recalls.ask (recalls : agent.Recalls latest questions) (found : agent.host? ref = some host)
    (asked : now ∈ questions) : (agent.setHost ref (host.stateAt now).2).Recalls latest questions :=
  recalls.setHost found ((recalls.of_found found).ask asked) fun _ _ => rfl

theorem Recalls.wantsRefresh (recalls : agent.Recalls latest questions) (ref : HostRef)
    (asked : now ∈ questions) : (agent.wantsRefresh ref now).2.Recalls latest questions := by
  unfold Agent.wantsRefresh
  cases found : agent.host? ref with
  | none => exact recalls
  | some host =>
      dsimp only
      rw [Host.wantsRefresh_snd]
      exact recalls.ask found asked

/-- Whatever is done to an agent, every host recalls its latest attempt. -/
theorem Recalls.perform (recalls : agent.Recalls latest questions) (operation : Operation) :
    (agent.perform operation).Recalls
      (fun ref => (operation.attempt? ref (agent.host? ref)).or (latest ref))
      (questions ++ operation.question?.toList) := by
  have more := recalls.mono fun time inside =>
    List.mem_append_left operation.question?.toList inside
  cases agent.touches_perform operation with
  | persist persist silent =>
      exact (more.persist persist).congr fun ref => by rw [silent, Option.none_or]
  | grow grow silent => exact (more.grow grow).congr fun ref => by rw [silent, Option.none_or]
  | ask ref host now found asks silent same =>
      have asked : now ∈ questions ++ operation.question?.toList := by
        rw [asks]
        exact List.mem_append_right questions List.mem_cons_self
      rw [same]
      exact (more.ask found asked).congr fun ref => by rw [silent, Option.none_or]
  | order ref host orders now found named persist =>
      subst named
      refine (more.setHost found ?_ fun other different => ?_).persist persist
      · rw [found, Operation.attempt?]
        cases withdrawn : host.withdrawn with
        | true =>
            have dropped : (host.reconcile orders now).host = host := by
              rw [Host.reconcile_of_withdrawn withdrawn]
            rw [dropped, if_neg (by simp [withdrawn])]
            exact more.of_found found
        | false =>
            obtain ⟨removed, refreshed, _⟩ :
                ∃ removed, (host.reconcile orders now).host.refresh = _ ∧ _ :=
              Host.refresh_reconcile withdrawn
            rw [if_pos (by simp [withdrawn]), Option.some_or]
            exact ⟨by rw [refreshed], .inl (by rw [refreshed])⟩
      · rw [Operation.attempt?, if_neg fun recorded => different recorded.1, Option.none_or]
  | fault ref host fault now found named same =>
      subst named
      rw [same]
      refine more.setHost found ?_ fun other different => ?_
      · rw [found, Operation.attempt?, if_pos ⟨rfl, rfl⟩]
        exact ⟨rfl, rfl⟩
      · rw [Operation.attempt?, if_neg fun recorded => different recorded.1, Option.none_or]

theorem HostsGrow.of_registerServers {configs : List ServerConfig}
    (done : agent.registerServers configs = .ok after) : agent.HostsGrow after := by
  induction configs generalizing agent with
  | nil =>
      rw [registerServers, Except.ok.injEq] at done
      exact hostsGrow_of_stations (congrArg stations done.symm)
  | cons config rest ih =>
      rw [registerServers] at done
      split at done
      · contradiction
      · next owner next registered => exact (HostsGrow.of_registerServer registered).trans (ih done)

/-- In the beginning no host was ever refreshed. -/
theorem recalls_create {config : Config} (done : create config = .ok agent) :
    agent.Recalls (fun _ => none) [] := by
  unfold create at done
  split at done
  · contradiction
  · have nobody : (empty config.agent).Recalls (fun _ => none) [] := fun ref => rfl
    exact nobody.grow (.of_registerServers done)

/-! ### What no operation changes -/

/-- Every host is still there, under its name and with its refresh period, and a host that was
withdrawn is withdrawn. -/
def HostsStay (before after : Agent) : Prop :=
  ∀ ref host, before.host? ref = some host → ∃ later, after.host? ref = some later ∧
    later.name = host.name ∧ later.refreshPeriod = host.refreshPeriod ∧
    (host.withdrawn = true → later.withdrawn = true)

theorem hostsStay_refl (agent : Agent) : agent.HostsStay agent :=
  fun _ host found => ⟨host, found, rfl, rfl, id⟩

theorem HostsStay.trans (first : before.HostsStay middle) (second : middle.HostsStay after) :
    before.HostsStay after := by
  intro ref host found
  obtain ⟨next, foundNext, name, period, gone⟩ := first ref host found
  obtain ⟨last, foundLast, nameLast, periodLast, goneLast⟩ := second ref next foundNext
  exact ⟨last, foundLast, nameLast.trans name, periodLast.trans period, fun withdrawn => goneLast (gone withdrawn)⟩

theorem HostsPersist.stay (persist : before.HostsPersist after) : before.HostsStay after := by
  intro ref host found
  have persists := persist ref
  rw [found] at persists
  generalize after.host? ref = ended at persists ⊢
  cases persists with
  | some persists => exact ⟨_, rfl, persists.name, persists.refreshPeriod, persists.withdrawn⟩

theorem HostsGrow.stay (grow : before.HostsGrow after) : before.HostsStay after := by
  intro ref host found
  rcases grow.host? ref with same | ⟨absent, _⟩
  · exact ⟨host, same.trans found, rfl, rfl, id⟩
  · rw [absent] at found
    contradiction

theorem hostsStay_setHost {changed : Host} (found : agent.host? ref = some host)
    (name : changed.name = host.name) (period : changed.refreshPeriod = host.refreshPeriod)
    (withdrawn : changed.withdrawn = host.withdrawn) : agent.HostsStay (agent.setHost ref changed) := by
  intro other before foundBefore
  rw [host?_setHost]
  by_cases same : ref = other
  · subst same
    rw [found, Option.some.injEq] at foundBefore
    subst foundBefore
    rw [if_pos rfl, found]
    exact ⟨changed, rfl, name, period, fun gone => withdrawn.trans gone⟩
  · rw [if_neg same]
    exact ⟨before, foundBefore, rfl, rfl, id⟩

theorem hostsStay_perform (agent : Agent) (operation : Operation) :
    agent.HostsStay (agent.perform operation) := by
  cases agent.touches_perform operation with
  | persist persist _ => exact persist.stay
  | grow grow _ => exact grow.stay
  | ask ref host now found _ _ same =>
      obtain ⟨refresh, asked⟩ := host.stateAt_eq now
      rw [same, asked]
      exact hostsStay_setHost found rfl rfl rfl
  | order ref host orders now found _ persist =>
      have period : (host.reconcile orders now).host.refreshPeriod = host.refreshPeriod := by
        unfold Host.reconcile
        split <;> rfl
      exact (hostsStay_setHost found Host.name_reconcile period Host.withdrawn_reconcile).trans
        persist.stay
  | fault ref host fault now found _ same =>
      rw [same]
      exact hostsStay_setHost found rfl rfl rfl

end Agent

end CheckRounds
