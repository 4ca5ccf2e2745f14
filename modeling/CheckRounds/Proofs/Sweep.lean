import CheckRounds.Proofs.Agent.Attempts
import CheckRounds.Proofs.Round.Due
import Mathlib.Data.List.Perm.Basic

namespace CheckRounds

/-! Sweeps among everything else that is done to an agent.

A sweep asks for each host that should be refreshed at the time when it begins, once.  The
outcomes arrive in any order, and meanwhile hosts and servers may come and go, hosts may be
withdrawn, and other sweeps may begin.  The latest attempt to refresh a host says whether the
next sweep asks for it.
-/

/-! ### Whom to ask for -/

namespace Host

theorem stateAt_twice (host : Host) (now : Instant) :
    (host.stateAt now).2.stateAt now = host.stateAt now := by
  by_cases elapsed : host.refresh.state = .active ∧ host.refresh.lastRefresh.isSome ∧
      host.periodOver host.refresh.lastRefresh now
  · have marked : host.stateAt now =
        (.stale, { host with refresh := { host.refresh with state := .stale } }) := if_pos elapsed
    rw [marked]
    exact stateAt_of_ne_active (by simp)
  · have unmarked : host.stateAt now = (host.refresh.state, host) := if_neg elapsed
    rw [unmarked]
    exact unmarked

/-- To ask twice at the same time is to ask once. -/
theorem wantsRefresh_twice (host : Host) (now : Instant) :
    (host.wantsRefresh now).2.wantsRefresh now = host.wantsRefresh now := by
  have again := host.stateAt_twice now
  rw [wantsRefresh_snd]
  generalize asked : host.stateAt now = answer at again ⊢
  obtain ⟨state, after⟩ := answer
  rw [wantsRefresh_of_stateAt asked, wantsRefresh_of_stateAt again]

end Host

namespace Agent

variable {agent : Agent} {now : Instant} {owner : ServerRef} {ref other : HostRef}

def wants (agent : Agent) (now : Instant) (ref : HostRef) : Bool := (agent.wantsRefresh ref now).1

/-- An agent in which hosts were asked whether they want to be refreshed. -/
def askHosts (agent : Agent) (now : Instant) (refs : List HostRef) : Agent :=
  refs.foldl (fun agent ref => (agent.wantsRefresh ref now).2) agent

theorem wants_eq : agent.wants now ref = (agent.host? ref).any fun host => (host.wantsRefresh now).1 := by
  rw [wants, wantsRefresh]
  cases agent.host? ref <;> rfl

theorem wants_wantsRefresh : (agent.wantsRefresh ref now).2.wants now other = agent.wants now other := by
  rw [wants_eq, wants_eq, wantsRefresh]
  cases found : agent.host? ref with
  | none => rfl
  | some host =>
      dsimp only
      rw [host?_setHost]
      by_cases same : ref = other
      · subst same
        rw [if_pos rfl, found]
        exact congrArg Prod.fst (host.wantsRefresh_twice now)
      · rw [if_neg same]

theorem servers_wantsRefresh : (agent.wantsRefresh ref now).2.servers = agent.servers := by
  unfold wantsRefresh
  split <;> rfl

theorem serverRefs_wantsRefresh : (agent.wantsRefresh ref now).2.serverRefs = agent.serverRefs := by
  unfold wantsRefresh
  split <;> rfl

/-- What holds still when one host was asked holds when many were. -/
theorem askHosts_induct {motive : Agent → Prop} (refs : List HostRef)
    (step : ∀ {agent : Agent} (ref : HostRef), motive agent → motive (agent.wantsRefresh ref now).2)
    (start : motive agent) : motive (agent.askHosts now refs) := by
  induction refs generalizing agent with
  | nil => exact start
  | cons ref rest ih => exact ih (step ref start)

theorem wants_askHosts (refs : List HostRef) : (agent.askHosts now refs).wants now = agent.wants now :=
  askHosts_induct (motive := fun after => after.wants now = agent.wants now) refs
    (fun _ same => (funext fun _ => wants_wantsRefresh).trans same) rfl

theorem servers_askHosts (refs : List HostRef) : (agent.askHosts now refs).servers = agent.servers :=
  askHosts_induct (motive := fun after => after.servers = agent.servers) refs
    (fun _ same => servers_wantsRefresh.trans same) rfl

theorem hostRefs_askHosts (refs : List HostRef) : (agent.askHosts now refs).hostRefs = agent.hostRefs := by
  funext owner
  have sameServer : (agent.askHosts now refs).server? owner = agent.server? owner := by
    rw [server?, server?, servers_askHosts]
  rw [hostRefs, hostRefs, sameServer]

theorem toRefresh_eq (refs : List HostRef) :
    agent.toRefresh now refs = (refs.filter (agent.wants now), agent.askHosts now refs) := by
  induction refs generalizing agent with
  | nil => rfl
  | cons ref rest ih =>
      have sameWants : (agent.wantsRefresh ref now).2.wants now = agent.wants now :=
        funext fun _ => wants_wantsRefresh
      have first : (agent.wantsRefresh ref now).1 = agent.wants now ref := rfl
      rw [toRefresh]
      dsimp only
      rw [ih, sameWants, first, List.filter_cons]
      rfl

/-- The hosts of some servers that should be refreshed. -/
def waitingOn (agent : Agent) (now : Instant) (owners : List ServerRef) : List (ServerRef × HostRef) :=
  owners.flatMap fun owner => ((agent.hostRefs owner).filter (agent.wants now)).map (owner, ·)

theorem waitingOn_askHosts (refs : List HostRef) (owners : List ServerRef) :
    (agent.askHosts now refs).waitingOn now owners = agent.waitingOn now owners := by
  rw [waitingOn, waitingOn, hostRefs_askHosts, wants_askHosts]

theorem serverRefs_askHosts (refs : List HostRef) :
    (agent.askHosts now refs).serverRefs = agent.serverRefs :=
  askHosts_induct (motive := fun after => after.serverRefs = agent.serverRefs) refs
    (fun _ same => serverRefs_wantsRefresh.trans same) rfl

theorem dueOn_eq (owners : List ServerRef) : agent.dueOn now owners =
    (agent.waitingOn now owners, agent.askHosts now (owners.flatMap agent.hostRefs)) := by
  induction owners generalizing agent with
  | nil => rfl
  | cons owner rest ih =>
      rw [dueOn, hostsToRefresh, toRefresh_eq]
      dsimp only
      rw [ih, waitingOn_askHosts, hostRefs_askHosts]
      refine Prod.ext rfl ?_
      exact List.foldl_append.symm

/-- A host is registered on a server that is registered. -/
def Enrolled (agent : Agent) (owner : ServerRef) (ref : HostRef) : Prop :=
  owner ∈ agent.serverRefs ∧ ref ∈ agent.hostRefs owner

theorem mem_waitingOn_iff : (owner, ref) ∈ agent.waitingOn now agent.serverRefs ↔
    agent.Enrolled owner ref ∧ agent.wants now ref = true := by
  simp [waitingOn, Enrolled, and_assoc]

/-- No host is asked for twice. -/
theorem Sound.waitingOn_nodup (sound : agent.Sound) (now : Instant) :
    ((agent.waitingOn now agent.serverRefs).map Prod.snd).Nodup := by
  have serversApart : agent.serverRefs.Nodup := sound.serverIds_nodup.of_map _
  rw [waitingOn, List.map_flatMap, List.nodup_iff_pairwise_ne, List.pairwise_flatMap]
  constructor
  · intro owner _
    rw [List.map_map, ← List.nodup_iff_pairwise_ne]
    have filtered : ((agent.hostRefs owner).filter (agent.wants now)).Nodup := sound.hostRefs_nodup.filter _
    rwa [show (Prod.snd ∘ fun ref => (owner, ref)) = id from rfl, List.map_id]
  · refine (List.nodup_iff_pairwise_ne.mp serversApart).imp ?_
    intro owner other different ref inside ref' inside' same
    subst same
    have listed : ∀ {owner : ServerRef},
        ref ∈ (((agent.hostRefs owner).filter (agent.wants now)).map (owner, ·)).map Prod.snd →
          ref ∈ agent.hostRefs owner := by
      intro owner inside
      rw [List.map_map] at inside
      obtain ⟨_, filtered, rfl⟩ := List.mem_map.mp inside
      exact List.mem_of_mem_filter filtered
    exact different (sound.owner_eq_of_mem_hostRefs (listed inside) (listed inside'))

end Agent

/-! ### Courses of events -/

/-- A sweep: the hosts that it asked for, whose outcomes have arrived, in their order and with
whether the host had been withdrawn, and what there is still to come. -/
structure Sweeping where
  begun : Instant
  asked : List (ServerRef × HostRef)
  arrived : List ((ServerRef × HostRef) × Bool) := []
  sweep : RefreshSweep

/-- An agent with its sweeps, with the latest attempt to refresh each host, and with the times
at which any host was asked for its state. -/
structure Course where
  agent : Agent
  latest : HostRef → Option Host.Attempt := fun _ => none
  questions : List Instant := []
  sweeps : List Sweeping := []

/-- What is recorded when an outcome is there. -/
def Agent.Operation.ofOutcome (host : HostRef) (outcome : Except Fault (List Order)) (now : Instant) :
    Agent.Operation :=
  match outcome with
  | .ok orders => .applyOrders host orders now
  | .error fault => .noteFault host fault now

namespace Course

inductive Move
  | operate (operation : Agent.Operation)
  | begin (now : Instant)
  | arrive (sweep position : Nat) (outcome : Except Fault (List Order)) (now : Instant)

def operate (course : Course) (operation : Agent.Operation) : Course :=
  { course with
    agent := course.agent.perform operation
    latest := fun ref => (operation.attempt? ref (course.agent.host? ref)).or (course.latest ref)
    questions := course.questions ++ operation.question?.toList }

def begin (course : Course) (now : Instant) : Course :=
  let started := RefreshSweep.start { agent := course.agent, clock := now }
  { course with
    agent := started.2.agent
    questions := course.questions ++ [now]
    sweeps := course.sweeps ++ [{ begun := now, asked := started.1.waiting, sweep := started.1 }] }

def arrive (course : Course) (index position : Nat) (outcome : Except Fault (List Order))
    (now : Instant) : Course :=
  match course.sweeps[index]? with
  | none => course
  | some sweeping =>
      match sweeping.sweep.waiting[position]? with
      | none => course
      | some pair =>
          let settled := World.settle { agent := course.agent, clock := now } pair.2 outcome
          let after : Sweeping :=
            { sweeping with
              arrived := sweeping.arrived ++ [(pair, course.agent.hasWithdrawn pair.2)]
              sweep :=
                { waiting := sweeping.sweep.waiting.eraseIdx position
                  summary := sweeping.sweep.summary.count settled.1 } }
          let recorded := Agent.Operation.ofOutcome pair.2 outcome now
          { course with
            agent := settled.2.agent
            latest := fun ref => (recorded.attempt? ref (course.agent.host? ref)).or (course.latest ref)
            sweeps := course.sweeps.set index after }

def step (course : Course) : Move → Course
  | .operate operation => course.operate operation
  | .begin now => course.begin now
  | .arrive sweep position outcome now => course.arrive sweep position outcome now

def run (course : Course) (moves : List Move) : Course := moves.foldl step course

end Course

/-! ### Counts -/

/-- A sweep has counted what has arrived, and nothing that it asked for is lost. -/
structure Sweeping.Tallies (sweeping : Sweeping) : Prop where
  accounted : (sweeping.arrived.map Prod.fst ++ sweeping.sweep.waiting).Perm sweeping.asked
  attempted : sweeping.sweep.summary.attempted = sweeping.arrived.length
  sum : sweeping.sweep.summary.attempted = sweeping.sweep.summary.active +
    sweeping.sweep.summary.failed + sweeping.sweep.summary.unknown + sweeping.sweep.summary.withdrawn
  withdrawn : sweeping.sweep.summary.withdrawn = sweeping.arrived.countP (·.2)

namespace SweepSummary

variable (summary : SweepSummary) (state : Option HostState)

theorem attempted_count : (summary.count state).attempted = summary.attempted + 1 := by
  match state with
  | none | some .init | some .active | some .refreshFailed | some .unknown | some .stale => rfl

theorem withdrawn_count : (summary.count state).withdrawn =
    summary.withdrawn + if state = none then 1 else 0 := by
  match state with
  | none | some .init | some .active | some .refreshFailed | some .unknown | some .stale => rfl

theorem sum_count (summed : summary.attempted =
    summary.active + summary.failed + summary.unknown + summary.withdrawn) :
    (summary.count state).attempted = (summary.count state).active + (summary.count state).failed +
      (summary.count state).unknown + (summary.count state).withdrawn := by
  match state with
  | none | some .init | some .active | some .refreshFailed | some .unknown | some .stale =>
      simp only [count]
      omega

end SweepSummary

namespace World

variable {world : World} {ref : HostRef} {outcome : Except Fault (List Order)}

theorem agent_settle : (world.settle ref outcome).2.agent =
    world.agent.perform (.ofOutcome ref outcome world.clock) := by
  cases outcome <;> rfl

/-- A host counts as withdrawn if it was so before its outcome was recorded. -/
theorem fst_settle_eq_none_iff :
    (world.settle ref outcome).1 = none ↔ world.agent.hasWithdrawn ref = true := by
  cases found : world.agent.host? ref with
  | none =>
      have absent : world.agent.hasWithdrawn ref = false := by rw [Agent.hasWithdrawn, found]
      cases outcome with
      | ok orders => simp [settle, Agent.applyOrders, found, absent]
      | error fault => simp [settle, Agent.noteFault, found, absent]
  | some host =>
      rw [Agent.hasWithdrawn_of_found found]
      cases outcome with
      | ok orders =>
          rw [settle_orders found]
          cases host.withdrawn <;> simp
      | error fault =>
          rw [settle_fault found]
          cases host.withdrawn <;> simp

end World

namespace Sweeping

variable {sweeping : Sweeping}

theorem tallies_begun (now : Instant) (waiting : List (ServerRef × HostRef)) :
    Tallies { begun := now, asked := waiting, sweep := ⟨waiting, {}⟩ } where
  accounted := .refl _
  attempted := rfl
  sum := rfl
  withdrawn := rfl

theorem Tallies.arrive (tallies : sweeping.Tallies) {position : Nat} {pair : ServerRef × HostRef}
    {state : Option HostState} {gone : Bool}
    (found : sweeping.sweep.waiting[position]? = some pair) (counted : state = none ↔ gone = true) :
    Tallies { sweeping with
      arrived := sweeping.arrived ++ [(pair, gone)]
      sweep :=
        { waiting := sweeping.sweep.waiting.eraseIdx position
          summary := sweeping.sweep.summary.count state } } where
  accounted := by
    obtain ⟨inside, rfl⟩ := List.getElem?_eq_some_iff.mp found
    have moved := List.getElem_cons_eraseIdx_perm inside
    rw [List.map_append, List.append_assoc]
    exact (moved.append_left _).trans tallies.accounted
  attempted := by
    rw [SweepSummary.attempted_count, tallies.attempted, List.length_append]
    rfl
  sum := sweeping.sweep.summary.sum_count state tallies.sum
  withdrawn := by
    rw [SweepSummary.withdrawn_count, tallies.withdrawn, List.countP_append, List.countP_singleton]
    simp only [counted]

/-- A sweep that is over has counted every host that it asked for. -/
theorem Tallies.ended (tallies : sweeping.Tallies) (nothingLeft : sweeping.sweep.waiting = []) :
    (sweeping.arrived.map Prod.fst).Perm sweeping.asked ∧
      sweeping.sweep.summary.attempted = sweeping.asked.length := by
  have arrived := tallies.accounted
  rw [nothingLeft, List.append_nil] at arrived
  refine ⟨arrived, ?_⟩
  rw [tallies.attempted, ← arrived.length_eq, List.length_map]

end Sweeping

/-! ### Runs -/

namespace Agent

variable {agent : Agent} {now : Instant}

theorem Reachable.askHosts (reachable : agent.Reachable) (refs : List HostRef) :
    (agent.askHosts now refs).Reachable :=
  askHosts_induct refs (fun ref reachable => reachable.perform (.askRefresh ref now)) reachable

theorem Recalls.askHosts {latest : HostRef → Option Host.Attempt} {questions : List Instant}
    (recalls : agent.Recalls latest questions) (asked : now ∈ questions) (refs : List HostRef) :
    (agent.askHosts now refs).Recalls latest questions :=
  askHosts_induct (motive := fun after => after.Recalls latest questions) refs
    (fun ref recalls => recalls.wantsRefresh ref asked) recalls

end Agent

theorem RefreshSweep.start_eq (world : World) :
    start world = (⟨world.agent.waitingOn world.clock world.agent.serverRefs, {}⟩,
      { world with
        agent := world.agent.askHosts world.clock (world.agent.serverRefs.flatMap world.agent.hostRefs) }) := by
  rw [start, Agent.dueOn_eq]

namespace Course

/-- What holds in every course of events. -/
structure Sound (course : Course) : Prop where
  reachable : course.agent.Reachable
  recalls : course.agent.Recalls course.latest course.questions
  tallies : ∀ sweeping ∈ course.sweeps, sweeping.Tallies

variable {course : Course}

theorem Sound.operate (sound : course.Sound) (operation : Agent.Operation) :
    (course.operate operation).Sound :=
  ⟨sound.reachable.perform operation, sound.recalls.perform operation, sound.tallies⟩

theorem Sound.begin (sound : course.Sound) (now : Instant) : (course.begin now).Sound := by
  unfold Course.begin
  rw [RefreshSweep.start_eq]
  constructor
  case reachable => exact sound.reachable.askHosts _
  case recalls =>
    have more := sound.recalls.mono fun time inside => List.mem_append_left [now] inside
    exact more.askHosts (List.mem_append_right course.questions List.mem_cons_self) _
  case tallies =>
    intro sweeping inside
    rcases List.mem_append.mp inside with before | added
    · exact sound.tallies sweeping before
    · rw [List.mem_singleton.mp added]
      exact Sweeping.tallies_begun now _

theorem Sound.arrive (sound : course.Sound) (index position : Nat)
    (outcome : Except Fault (List Order)) (now : Instant) :
    (course.arrive index position outcome now).Sound := by
  unfold Course.arrive
  cases foundSweep : course.sweeps[index]? with
  | none => exact sound
  | some sweeping =>
      dsimp only
      cases foundPair : sweeping.sweep.waiting[position]? with
      | none => exact sound
      | some pair =>
          let recorded := Agent.Operation.ofOutcome pair.2 outcome now
          dsimp only
          constructor
          case reachable => exact World.agent_settle ▸ sound.reachable.perform recorded
          case recalls =>
            have asksNot : recorded.question? = none := by cases outcome <;> rfl
            have recalled := sound.recalls.perform recorded
            rw [asksNot, Option.toList_none, List.append_nil] at recalled
            exact World.agent_settle ▸ recalled
          case tallies =>
            intro other inside
            rcases List.mem_or_eq_of_mem_set inside with before | rfl
            · exact sound.tallies other before
            · have tallies := sound.tallies sweeping (List.mem_of_getElem? foundSweep)
              exact tallies.arrive foundPair World.fst_settle_eq_none_iff

theorem Sound.run (sound : course.Sound) (moves : List Move) : (course.run moves).Sound := by
  induction moves generalizing course with
  | nil => exact sound
  | cons move rest ih =>
      refine ih ?_
      cases move with
      | operate operation => exact sound.operate operation
      | begin now => exact sound.begin now
      | arrive sweep position outcome now => exact sound.arrive sweep position outcome now

theorem sound_create {config : Config} {agent : Agent} (done : Agent.create config = .ok agent) :
    Sound { agent } :=
  ⟨.create done, Agent.recalls_create done, fun _ inside => absurd inside List.not_mem_nil⟩

/-- Whom a sweep asks for that begins now: every registered host that is to be refreshed, once,
and nobody else.  The latest attempt to refresh a host settles whether it is one of them. -/
structure Asks (course : Course) (now : Instant) (asked : List (ServerRef × HostRef)) : Prop where
  once : (asked.map Prod.snd).Nodup
  wanted : ∀ owner ref, (owner, ref) ∈ asked ↔
    course.agent.Enrolled owner ref ∧ (course.agent.wantsRefresh ref now).1 = true
  byLatest : ∀ owner ref host, course.agent.Enrolled owner ref → course.agent.host? ref = some host →
    Host.IsWanted host.refreshPeriod (course.latest ref) course.questions now ((owner, ref) ∈ asked)
  /-- Unless the clock was set back, a host that was refreshed waits for the end of its period. -/
  inOrder : (∀ time ∈ course.questions, time.nanos ≤ now.nanos) → ∀ owner ref host since,
    course.agent.Enrolled owner ref → course.agent.host? ref = some host →
    course.latest ref = some ⟨since, none⟩ →
    ((owner, ref) ∈ asked ↔ host.refreshPeriod ≤ since.secondsUntil now)

theorem Sound.asks (sound : course.Sound) (now : Instant) :
    ∃ asked, (course.begin now).sweeps =
        course.sweeps ++ [{ begun := now, asked, sweep := ⟨asked, {}⟩ }] ∧
      course.Asks now asked := by
  refine ⟨course.agent.waitingOn now course.agent.serverRefs, ?_, ?_⟩
  · rw [Course.begin, RefreshSweep.start_eq]
  · have byLatest : ∀ owner ref host, course.agent.Enrolled owner ref →
        course.agent.host? ref = some host → Host.IsWanted host.refreshPeriod (course.latest ref)
          course.questions now ((owner, ref) ∈ course.agent.waitingOn now course.agent.serverRefs) := by
      intro owner ref host enrolled found
      have isWanted := (sound.recalls.of_found found).isWanted now
      have asked : (owner, ref) ∈ course.agent.waitingOn now course.agent.serverRefs ↔
          (host.wantsRefresh now).1 = true := by
        rw [Agent.mem_waitingOn_iff, Agent.wants_eq, found, Option.any_some]
        exact and_iff_right enrolled
      rwa [← propext asked] at isWanted
    constructor
    case once => exact sound.reachable.sound.waitingOn_nodup now
    case wanted => exact fun _ _ => Agent.mem_waitingOn_iff
    case byLatest => exact byLatest
    case inOrder =>
      intro inOrder owner ref host since enrolled found refreshed
      have isWanted := byLatest owner ref host enrolled found
      rw [refreshed] at isWanted
      obtain ⟨asked, elapsed⟩ := isWanted
      refine ⟨fun inside => ?_, asked⟩
      obtain ⟨time, seen, whole⟩ := elapsed inside
      rcases List.mem_cons.mp seen with rfl | earlier
      · exact whole
      · exact Nat.le_trans whole (Instant.secondsUntil_mono (inOrder time earlier))

end Course

/-! ### The sweep that runs -/

/-- The attempt to ask the server of a host for the orders of the host. -/
def Agent.contactFor (agent : Agent) (surroundings : Surroundings) (pair : ServerRef × HostRef) : Contact :=
  let server := agent.serverId pair.1
  let name := agent.hostName pair.2
  ⟨server, (surroundings.peer server).sent (Frame.encode (ordersRequest name))⟩

namespace World

variable {surroundings : Surroundings} {world : World} {start : Agent} {pair : ServerRef × HostRef}

/-- Whatever happens to an agent meanwhile is some operations. -/
theorem exists_operations_intervene (world : World) (intervention : Intervention) :
    ∃ operations : List Agent.Operation,
      (world.intervene intervention).agent = operations.foldl Agent.perform world.agent := by
  cases intervention with
  | setClock now => exact ⟨[], rfl⟩
  | unregisterServer id => exact ⟨[.unregisterServer id], rfl⟩
  | unregisterHost server host =>
      unfold intervene
      dsimp only
      cases world.agent.serverNamed? server with
      | none => exact ⟨[], rfl⟩
      | some owner => exact ⟨[.unregisterHost owner host], rfl⟩
  | applyOrders server host orders =>
      unfold intervene
      dsimp only
      cases world.hostNamed? server host with
      | none => exact ⟨[], rfl⟩
      | some ref => exact ⟨[.applyOrders ref orders world.clock], rfl⟩
  | applyOrdersTo ref orders => exact ⟨[.applyOrders ref orders world.clock], rfl⟩
  | noteFault ref fault => exact ⟨[.noteFault ref fault world.clock], rfl⟩
  | withdrawHost ref => exact ⟨[.withdraw ref], rfl⟩

theorem exists_operations_interveneAll (world : World) (interventions : List Intervention) :
    ∃ operations : List Agent.Operation,
      (world.interveneAll interventions).agent = operations.foldl Agent.perform world.agent := by
  induction interventions generalizing world with
  | nil => exact ⟨[], rfl⟩
  | cons intervention rest ih =>
      obtain ⟨early, first⟩ := world.exists_operations_intervene intervention
      obtain ⟨late, others⟩ := ih (world.intervene intervention)
      refine ⟨early ++ late, ?_⟩
      rw [List.foldl_append, ← first]
      exact others

theorem exists_operations_afterRequest (world : World) (surroundings : Surroundings) (server name : String) :
    ∃ operations : List Agent.Operation, (world.afterRequest surroundings server name).agent =
      operations.foldl Agent.perform world.agent :=
  exists_operations_interveneAll (world.noteContact server _) _

theorem contacts_settle (ref : HostRef) (outcome : Except Fault (List Order)) :
    (world.settle ref outcome).2.contacts = world.contacts := rfl

theorem contacts_afterRequest (server name : String) :
    (world.afterRequest surroundings server name).contacts = world.contacts ++
      [⟨server, (surroundings.peer server).sent (Frame.encode (ordersRequest name))⟩] :=
  contacts_contact world server _

/-- How servers are addressed, and hosts named, as they were. -/
structure Addressed (start : Agent) (world : World) : Prop where
  addresses : start.SameAddresses world.agent
  hosts : start.HostsStay world.agent

theorem Addressed.contactFor (addressed : Addressed start world)
    (present : ∃ host, start.host? pair.2 = some host) :
    world.agent.contactFor surroundings pair = start.contactFor surroundings pair := by
  obtain ⟨host, found⟩ := present
  obtain ⟨later, foundLater, sameName, _⟩ := addressed.hosts pair.2 host found
  have named : world.agent.hostName pair.2 = start.hostName pair.2 := by
    rw [Agent.hostName, Agent.host_of_found foundLater, sameName, Agent.hostName, Agent.host_of_found found]
  rw [Agent.contactFor, addressed.addresses.serverId, named]
  rfl

theorem hostsStay_performAll (agent : Agent) (operations : List Agent.Operation) :
    agent.HostsStay (operations.foldl Agent.perform agent) := by
  induction operations generalizing agent with
  | nil => exact agent.hostsStay_refl
  | cons operation rest ih => exact (agent.hostsStay_perform operation).trans (ih _)

theorem Addressed.afterRequest (addressed : Addressed start world) (server name : String) :
    Addressed start (world.afterRequest surroundings server name) := by
  constructor
  case addresses =>
    exact contact_keeps (Agent.kept_sameAddresses start) world addressed.addresses server _
  case hosts =>
    obtain ⟨operations, reached⟩ := world.exists_operations_afterRequest surroundings server name
    rw [reached]
    exact addressed.hosts.trans (hostsStay_performAll world.agent operations)

theorem Addressed.settle (addressed : Addressed start world) (ref : HostRef)
    (outcome : Except Fault (List Order)) : Addressed start (world.settle ref outcome).2 := by
  constructor
  case addresses =>
    cases outcome with
    | ok orders => exact (Agent.kept_sameAddresses start).applyOrders orders world.clock addressed.addresses
    | error fault => exact (Agent.kept_sameAddresses start).noteFault fault world.clock addressed.addresses
  case hosts =>
    rw [agent_settle]
    exact addressed.hosts.trans (world.agent.hostsStay_perform _)

end World

namespace Course

/-- Whether a move brings an outcome to a sweep or is none of a sweep. -/
def Move.staysWith (index : Nat) : Move → Bool
  | .operate _ => true
  | .begin _ => false
  | .arrive sweep .. => sweep = index

/-- A course is brought to a point in which no other sweep begins or gets an outcome. -/
def Brings (index : Nat) (before after : Course) : Prop :=
  ∃ moves : List Move, (∀ move ∈ moves, move.staysWith index = true) ∧ before.run moves = after

variable {index : Nat} {course before middle after : Course} {surroundings : Surroundings} {world : World}

theorem Brings.refl (course : Course) : Brings index course course :=
  ⟨[], fun _ inside => absurd inside List.not_mem_nil, rfl⟩

theorem Brings.trans (first : Brings index before middle) (second : Brings index middle after) :
    Brings index before after := by
  obtain ⟨early, stays, rfl⟩ := first
  obtain ⟨late, staysLate, rfl⟩ := second
  exact ⟨early ++ late, List.forall_mem_append.mpr ⟨stays, staysLate⟩, List.foldl_append⟩

theorem Brings.of_step (move : Move) (stays : move.staysWith index = true) :
    Brings index course (course.step move) := ⟨[move], List.forall_mem_singleton.mpr stays, rfl⟩

theorem brings_operations (index : Nat) (course : Course) (operations : List Agent.Operation) :
    ∃ after, Brings index course after ∧
      after.agent = operations.foldl Agent.perform course.agent ∧ after.sweeps = course.sweeps := by
  induction operations generalizing course with
  | nil => exact ⟨course, .refl course, rfl, rfl⟩
  | cons operation rest ih =>
      obtain ⟨after, brings, agent, sweeps⟩ := ih (course.operate operation)
      have first : Brings index course (course.operate operation) :=
        .of_step (.operate operation) rfl
      exact ⟨after, first.trans brings, agent, sweeps⟩

theorem arrive_eq {sweeps : List Sweeping} {sweeping : Sweeping} {pair : ServerRef × HostRef}
    {rest : List (ServerRef × HostRef)} (sameSweeps : course.sweeps = sweeps ++ [sweeping])
    (waiting : sweeping.sweep.waiting = pair :: rest) (sameAgent : course.agent = world.agent)
    (outcome : Except Fault (List Order)) :
    ∃ ended : Sweeping,
      (course.arrive sweeps.length 0 outcome world.clock).sweeps = sweeps ++ [ended] ∧
      (course.arrive sweeps.length 0 outcome world.clock).agent = (world.settle pair.2 outcome).2.agent ∧
      ended.begun = sweeping.begun ∧ ended.asked = sweeping.asked ∧
      ended.sweep = ⟨rest, sweeping.sweep.summary.count (world.settle pair.2 outcome).1⟩ := by
  have found : course.sweeps[sweeps.length]? = some sweeping := by simp [sameSweeps]
  have foundPair : sweeping.sweep.waiting[0]? = some pair := by rw [waiting]; rfl
  have settled : World.settle { agent := course.agent, clock := world.clock } pair.2 outcome =
      ((world.settle pair.2 outcome).1,
        { agent := (world.settle pair.2 outcome).2.agent, clock := world.clock }) := by
    rw [sameAgent]
    cases outcome <;> rfl
  unfold arrive
  rw [found]
  dsimp only
  rw [foundPair]
  dsimp only
  rw [settled, sameSweeps, waiting]
  refine ⟨{ sweeping with
    arrived := sweeping.arrived ++ [(pair, course.agent.hasWithdrawn pair.2)]
    sweep := ⟨rest, sweeping.sweep.summary.count (world.settle pair.2 outcome).1⟩ },
    ?_, rfl, rfl, rfl, rfl⟩
  simp

/-- Asking for one host brings its outcome to the sweep, after whatever happens meanwhile. -/
theorem brings_refresh {sweeps : List Sweeping} {sweeping : Sweeping} {pair : ServerRef × HostRef}
    {rest : List (ServerRef × HostRef)} (sameSweeps : course.sweeps = sweeps ++ [sweeping])
    (waiting : sweeping.sweep.waiting = pair :: rest) (sameAgent : course.agent = world.agent)
    (surroundings : Surroundings) (timeout : Duration) :
    ∃ after ended, Brings sweeps.length course after ∧
      after.agent = (world.refresh surroundings pair.1 pair.2 timeout).2.agent ∧
      after.sweeps = sweeps ++ [ended] ∧ ended.begun = sweeping.begun ∧ ended.asked = sweeping.asked ∧
      ended.sweep = ⟨rest, sweeping.sweep.summary.count
        (world.refresh surroundings pair.1 pair.2 timeout).1⟩ := by
  rw [World.refresh_eq rfl rfl]
  generalize (world.fetchOrders surroundings _ _ timeout).1 = outcome
  obtain ⟨operations, happened⟩ := world.exists_operations_afterRequest surroundings
    (world.agent.serverId pair.1) (world.agent.hostName pair.2)
  generalize world.afterRequest surroundings _ _ = arrived at happened ⊢
  obtain ⟨middle, brings, agent, sameAgain⟩ :=
    course.brings_operations sweeps.length operations
  rw [sameAgent, ← happened] at agent
  obtain ⟨ended, sweepsAfter, agentAfter, begun, asked, sweep⟩ :=
    arrive_eq (sameAgain.trans sameSweeps) waiting agent outcome
  have last : Brings sweeps.length middle (middle.arrive sweeps.length 0 outcome arrived.clock) :=
    .of_step (.arrive sweeps.length 0 outcome arrived.clock) (decide_eq_true rfl)
  exact ⟨_, ended, brings.trans last, agentAfter, sweepsAfter, begun, asked, sweep⟩

theorem addressed_refresh {start : Agent} (addressed : World.Addressed start world)
    {pair : ServerRef × HostRef} (present : ∃ host, start.host? pair.2 = some host)
    (surroundings : Surroundings) (timeout : Duration) :
    World.Addressed start (world.refresh surroundings pair.1 pair.2 timeout).2 ∧
      (world.refresh surroundings pair.1 pair.2 timeout).2.contacts =
        world.contacts ++ [start.contactFor surroundings pair] := by
  rw [World.refresh_eq rfl rfl]
  refine ⟨(addressed.afterRequest _ _).settle pair.2 _, ?_⟩
  rw [World.contacts_settle, World.contacts_afterRequest, ← addressed.contactFor present]
  rfl

/-- Asking for one host after the other brings the sweep to its end. -/
theorem brings_askAll (surroundings : Surroundings) {start : Agent} {sweeps : List Sweeping} {sweeping : Sweeping}
    (waiting : List (ServerRef × HostRef)) (summary : SweepSummary)
    (addressed : World.Addressed start world)
    (present : ∀ pair ∈ waiting, ∃ host, start.host? pair.2 = some host)
    (sameSweeps : course.sweeps = sweeps ++ [sweeping]) (same : sweeping.sweep = ⟨waiting, summary⟩)
    (sameAgent : course.agent = world.agent) :
    ∃ after ended, Brings sweeps.length course after ∧
      after.agent = (RefreshSweep.askAll surroundings world summary waiting).2.agent ∧
      after.sweeps = sweeps ++ [ended] ∧ ended.begun = sweeping.begun ∧ ended.asked = sweeping.asked ∧
      ended.sweep = ⟨[], (RefreshSweep.askAll surroundings world summary waiting).1⟩ ∧
      (RefreshSweep.askAll surroundings world summary waiting).2.contacts =
        world.contacts ++ waiting.map (start.contactFor surroundings) := by
  induction waiting generalizing course sweeping world summary with
  | nil =>
      refine ⟨course, sweeping, .refl course, sameAgent, sameSweeps, rfl, rfl, same, ?_⟩
      rw [List.map_nil, List.append_nil]
      rfl
  | cons pair rest ih =>
      have waitingFor : sweeping.sweep.waiting = pair :: rest := by rw [same]
      obtain ⟨middle, next, brings, agent, nextSweeps, begun, asked, sweep⟩ :=
        brings_refresh sameSweeps waitingFor sameAgent surroundings world.agent.timeout
      obtain ⟨addressedNext, contacts⟩ := addressed_refresh addressed (present pair List.mem_cons_self)
        surroundings world.agent.timeout
      rw [same] at sweep
      rw [RefreshSweep.askAll]
      generalize world.refresh surroundings pair.1 pair.2 world.agent.timeout = refreshed at *
      obtain ⟨after, ended, bringsRest, agentAfter, sweepsAfter, begunAfter, askedAfter, sweepAfter,
        contactsAfter⟩ := ih (summary.count refreshed.1) addressedNext
          (fun other inside => present other (List.mem_cons_of_mem pair inside)) nextSweeps sweep agent
      refine ⟨after, ended, brings.trans bringsRest, agentAfter, sweepsAfter, begunAfter.trans begun,
        askedAfter.trans asked, sweepAfter, ?_⟩
      rw [List.map_cons, contactsAfter, contacts, List.append_assoc]
      rfl

theorem addressed_start (agent : Agent) (now : Instant) (refs : List HostRef) :
    agent.SameAddresses (agent.askHosts now refs) ∧ agent.HostsStay (agent.askHosts now refs) := by
  refine Agent.askHosts_induct
    (motive := fun after => agent.SameAddresses after ∧ agent.HostsStay after) refs ?_
    ⟨.refl agent, agent.hostsStay_refl⟩
  intro before ref kept
  have timeout : (before.wantsRefresh ref now).2.timeout = before.timeout := by
    unfold Agent.wantsRefresh
    split <;> rfl
  exact ⟨kept.1.trans (.of_servers Agent.servers_wantsRefresh timeout),
    kept.2.trans (before.hostsStay_perform (.askRefresh ref now))⟩

/-- A sweep that runs to its end: it asks for its hosts, once for each, and its counts are those
of the outcomes. -/
structure Completes (surroundings : Surroundings) (course : Course) (world : World) (after : Course)
    (ended : Sweeping) : Prop where
  asks : course.Asks world.clock ended.asked
  brings : Brings course.sweeps.length (course.begin world.clock) after
  agent : after.agent = (RefreshSweep.run surroundings world).2.agent
  sweeps : after.sweeps = course.sweeps ++ [ended]
  arrived : (ended.arrived.map Prod.fst).Perm ended.asked
  contacts : (RefreshSweep.run surroundings world).2.contacts =
    world.contacts ++ ended.asked.map (course.agent.contactFor surroundings)
  attempted : (RefreshSweep.run surroundings world).1.attempted = ended.asked.length
  sum : (RefreshSweep.run surroundings world).1.attempted =
    (RefreshSweep.run surroundings world).1.active + (RefreshSweep.run surroundings world).1.failed +
      (RefreshSweep.run surroundings world).1.unknown + (RefreshSweep.run surroundings world).1.withdrawn
  withdrawn : (RefreshSweep.run surroundings world).1.withdrawn = ended.arrived.countP (·.2)

theorem Sound.completes (sound : course.Sound) (sameAgent : world.agent = course.agent)
    (surroundings : Surroundings) : ∃ after ended, Completes surroundings course world after ended := by
  obtain ⟨agent, clock, contacts, dumps, directory⟩ := world
  dsimp only at sameAgent
  subst sameAgent
  obtain ⟨asked, begun, asks⟩ := sound.asks clock
  let started : World := { agent := (course.begin clock).agent, clock, contacts, dumps, directory }
  have waiting : course.agent.waitingOn clock course.agent.serverRefs = asked := by
    rw [Course.begin, RefreshSweep.start_eq] at begun
    exact congrArg Sweeping.asked (List.singleton_inj.mp (List.append_cancel_left begun))
  have agentBegun : (course.begin clock).agent = course.agent.askHosts clock
      (course.agent.serverRefs.flatMap course.agent.hostRefs) := by
    rw [Course.begin, RefreshSweep.start_eq]
  have runs : RefreshSweep.run surroundings ⟨course.agent, clock, contacts, dumps, directory⟩ =
      RefreshSweep.askAll surroundings started {} asked := by
    rw [RefreshSweep.run, RefreshSweep.start_eq]
    dsimp only [RefreshSweep.finish]
    rw [waiting, ← agentBegun]
  have addressed : World.Addressed course.agent started := by
    obtain ⟨addresses, hosts⟩ := addressed_start course.agent clock
      (course.agent.serverRefs.flatMap course.agent.hostRefs)
    rw [← agentBegun] at addresses hosts
    exact ⟨addresses, hosts⟩
  have present : ∀ pair ∈ asked, ∃ host, course.agent.host? pair.2 = some host := by
    intro pair inside
    have wants : course.agent.wants clock pair.2 = true := ((asks.wanted pair.1 pair.2).mp inside).2
    rw [Agent.wants_eq, Option.any_eq_true] at wants
    obtain ⟨host, found, _⟩ := wants
    exact ⟨host, found⟩
  obtain ⟨after, ended, brings, sameAgent, sweeps, _, sameAsked, sweep, contacted⟩ :=
    brings_askAll surroundings asked {} addressed present begun rfl rfl
  rw [← runs] at sameAgent sweep contacted
  have tallies : ended.Tallies := by
    obtain ⟨moves, _, reached⟩ := brings
    refine ((sound.begin clock).run moves).tallies ended ?_
    rw [reached, sweeps]
    exact List.mem_append_right course.sweeps List.mem_cons_self
  obtain ⟨arrived, attempted⟩ := tallies.ended (congrArg RefreshSweep.waiting sweep)
  have counts : ended.sweep.summary = (RefreshSweep.run surroundings ⟨course.agent, clock, contacts, dumps, directory⟩).1 :=
    congrArg RefreshSweep.summary sweep
  refine ⟨after, ended, ?_⟩
  constructor
  case asks => exact sameAsked ▸ asks
  case brings => exact brings
  case agent => exact sameAgent
  case sweeps => exact sweeps
  case arrived => exact arrived
  case contacts => exact sameAsked ▸ contacted
  case attempted => exact counts ▸ attempted
  case sum => exact counts ▸ tallies.sum
  case withdrawn => exact counts ▸ tallies.withdrawn

/-- Whatever has happened to an agent, sweeps included: a sweep that begins asks for every
registered host that is to be refreshed, once, and for no other host, and the latest attempt to
refresh a host settles whether it is one of them.  A sweep has counted the outcomes that have
arrived, and as withdrawn just the hosts that were withdrawn when their outcome arrived.  The
sweep that runs is one of these, and makes one contact for each host. -/
theorem sweeps_ask_by_latest {config : Config} {agent : Agent} (created : Agent.create config = .ok agent)
    (moves : List Move) :
    let course : Course := run { agent } moves
    (∀ now, ∃ asked, (course.begin now).sweeps =
        course.sweeps ++ [{ begun := now, asked, sweep := ⟨asked, {}⟩ }] ∧ course.Asks now asked) ∧
    (∀ sweeping ∈ course.sweeps, sweeping.Tallies) ∧
    ∀ surroundings world, world.agent = course.agent →
      ∃ after ended, Completes surroundings course world after ended := by
  have sound := (sound_create created).run moves
  exact ⟨sound.asks, sound.tallies, fun surroundings world sameAgent =>
    sound.completes sameAgent surroundings⟩

/-- A host that its server does not know is asked for again after two minutes and not before, and
the sweep that begins then runs to its end. -/
theorem sweeps_ask_by_latest_of_unknown :
    let registering := Agent.Operation.registerServer { address := "a", hosts := [{ name := "h" }] }
    let moves : List Move := [.operate registering, .begin (.ofMillis 0),
      .arrive 0 0 (.error (.unknownHost "h")) (.ofMillis 1000)]
    let course : Course := run { agent := .empty {} } moves
    let begun (now : Nat) := (course.begin (.ofMillis now)).sweeps.map (·.asked)
    let world : World := { agent := course.agent, clock := .ofMillis 121000 }
    let surroundings : Surroundings :=
      { execute := fun _ _ => { outcome := .crash }
        peer := fun _ => .refusing
        tracing := false
        newFile := fun _ _ => .error .noDirectory }
    (∀ sweeping ∈ course.sweeps, sweeping.Tallies) ∧
      begun 120999 = [[(0, 0)], []] ∧ begun 121000 = [[(0, 0)], [(0, 0)]] ∧
      ∃ after ended, Completes surroundings course world after ended := by
  intro registering moves course begun world surroundings
  have created : Agent.create { servers := [] } = .ok (Agent.empty {}) := rfl
  obtain ⟨_, tallies, completes⟩ := sweeps_ask_by_latest created moves
  exact ⟨tallies, by decide +kernel, by decide +kernel, completes surroundings world rfl⟩

end Course

end CheckRounds
