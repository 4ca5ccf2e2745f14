import CheckRounds.Proofs.Exchange
import CheckRounds.Proofs.Frame
import CheckRounds.Proofs.Host.Reconciliation
import CheckRounds.Proofs.Message.Reply
import CheckRounds.RefreshSweep

namespace CheckRounds

/-! What a refresh of one host does, whatever comes back from its server.

Either a whole reply arrives that accepts the request, and its orders are applied, or the
schedule stays as it is.  Orders of a reply that cannot be read to its end are not applied
in part, and those for a host that was withdrawn meanwhile not at all.
-/

/-! ### Replies -/

/-- Bytes start with a frame that holds a reply. -/
def Reply.ArrivesIn (reply : Reply) (bytes : List UInt8) : Prop :=
  ∃ payload rest, payload.length ≤ Frame.payloadLimit ∧ bytes = Frame.encode payload ++ rest ∧
    Reply.parse payload = .ok reply

namespace Surroundings

variable (surroundings : Surroundings) (server host : String)

/-- What a server does about a request for marching orders that is sent to it whole. -/
def answerTo : Option Answer :=
  match surroundings.peer server with
  | .listening connection =>
      match connection.write (Frame.encode (ordersRequest host)) with
      | (sent, .ok ()) => some (connection.answer sent)
      | (_, .error _) => none
  | .refusing | .unreachable | .unanswered _ => none

/-- A server sends the bytes of a reply in time. -/
def RepliesWith (reply : Reply) : Prop :=
  ∃ answer bytes, surroundings.answerTo server host = some answer ∧ answer.reply = some bytes ∧
    reply.ArrivesIn bytes

end Surroundings

/-- The world at the time when it is known what came back. -/
def World.afterRequest (world : World) (surroundings : Surroundings) (server host : String) : World :=
  world.contact surroundings server
    ((surroundings.peer server).sent (Frame.encode (ordersRequest host)))

theorem Frame.read_error {bytes rest : List UInt8} {fault : Fault}
    (failed : read bytes = (.error fault, rest)) :
    HostState.afterFault fault = .refreshFailed := by
  unfold read at failed
  split at failed
  · cases failed
    rfl
  · dsimp only at failed
    split at failed
    · cases failed
      rfl
    · split at failed
      · cases failed
        rfl
      · simp at failed

theorem Reply.parse_error {payload : List UInt8} {fault : Fault}
    (failed : parse payload = .error fault) : HostState.afterFault fault = .refreshFailed := by
  unfold parse at failed
  split at failed
  · contradiction
  · cases failed
    rfl

namespace World

variable {world : World} {surroundings : Surroundings} {server host : String} {timeout : Duration}

theorem request_of_answer {answered : Answer}
    (answers : surroundings.answerTo server host = some answered) :
    world.request surroundings server (ordersRequest host) timeout =
      (answered.payload timeout, world.afterRequest surroundings server host) := by
  unfold Surroundings.answerTo at answers
  split at answers
  · next connection listening =>
      split at answers
      · next sent written =>
          cases answers
          rw [request, Peer.reply, listening, Peer.connect, afterRequest, listening]
          dsimp only
          rw [written]
      · contradiction
  · contradiction
  · contradiction
  · contradiction

theorem request_of_no_answer (world : World) (timeout : Duration)
    (answersNot : surroundings.answerTo server host = none) :
    ∃ fault, world.request surroundings server (ordersRequest host) timeout =
        (.error fault, world.afterRequest surroundings server host) ∧
      HostState.afterFault fault = .refreshFailed := by
  unfold Surroundings.answerTo at answersNot
  unfold request Peer.reply afterRequest
  split at answersNot
  · next connection listening =>
      split at answersNot
      · contradiction
      · next written =>
          simp only [listening, Peer.connect, written]
          exact ⟨_, rfl, Connection.afterFault_of_write written⟩
  · next refusing =>
      rw [refusing]
      exact ⟨_, rfl, rfl⟩
  · next unreachable =>
      rw [unreachable]
      exact ⟨_, rfl, rfl⟩
  · next unanswered =>
      rw [unanswered]
      exact ⟨_, rfl, rfl⟩

theorem snd_fetchOrders (timeout : Duration) : (world.fetchOrders surroundings server host timeout).2 =
    world.afterRequest surroundings server host := by
  have requested : (world.request surroundings server (ordersRequest host) timeout).2 =
      world.afterRequest surroundings server host := by
    cases answers : surroundings.answerTo server host with
    | some answered => rw [request_of_answer answers]
    | none =>
        obtain ⟨fault, same, _⟩ := world.request_of_no_answer timeout answers
        rw [same]
  rw [← requested, fetchOrders]
  split <;> next same => rw [same]

theorem received_of_repliesWith {reply : Reply} (timeout : Duration)
    (replies : surroundings.RepliesWith server host reply) :
    ∃ answer payload, surroundings.answerTo server host = some answer ∧
      answer.payload timeout = .ok payload ∧ Reply.parse payload = .ok reply := by
  obtain ⟨answer, bytes, answers, sent, payload, rest, fits, rfl, parsed⟩ := replies
  refine ⟨answer, payload, answers, ?_, parsed⟩
  rw [Answer.payload, sent]
  dsimp only
  rw [Frame.read_encode_append fits]

/-- The outcome of a reply that arrives is what the reply says. -/
theorem fst_fetchOrders_of_reply {reply : Reply} (world : World) (timeout : Duration)
    (replies : surroundings.RepliesWith server host reply) :
    (world.fetchOrders surroundings server host timeout).1 = reply.marchingOrders host := by
  obtain ⟨answer, payload, answers, received, parsed⟩ := received_of_repliesWith timeout replies
  rw [fetchOrders, request_of_answer answers, received]
  dsimp only
  rw [parsed]

/-- Without a reply there is a fault, and none that says anything about the host. -/
theorem fst_fetchOrders_of_no_reply (world : World) (timeout : Duration)
    (noReply : ∀ reply, ¬surroundings.RepliesWith server host reply) :
    ∃ fault, (world.fetchOrders surroundings server host timeout).1 = .error fault ∧
      HostState.afterFault fault = .refreshFailed := by
  cases answers : surroundings.answerTo server host with
  | none =>
      obtain ⟨fault, same, failed⟩ := world.request_of_no_answer timeout answers
      refine ⟨fault, ?_, failed⟩
      rw [fetchOrders, same]
  | some answered =>
      rw [fetchOrders, request_of_answer answers, Answer.payload]
      cases sent : answered.reply with
      | none => exact ⟨.timeout timeout, rfl, rfl⟩
      | some bytes =>
          dsimp only
          cases found : Frame.read bytes with
          | mk outcome rest =>
              cases outcome with
              | error fault => exact ⟨fault, rfl, Frame.read_error found⟩
              | ok payload =>
                  dsimp only
                  cases parsed : Reply.parse payload with
                  | ok reply =>
                      obtain ⟨fits, split⟩ := Frame.read_eq_ok_iff.mp found
                      exact absurd ⟨answered, bytes, answers, sent, payload, rest, fits, split, parsed⟩
                        (noReply reply)
                  | error fault => exact ⟨fault, rfl, Reply.parse_error parsed⟩

end World

/-! ### The schedule -/

namespace Agent

/-- The checks of all hosts, the buckets at every level and the timers are as before. -/
structure SameSchedule (before after : Agent) : Prop where
  scheduler : after.scheduler = before.scheduler
  bucketOf : ∀ ref, after.bucketOf ref = before.bucketOf ref
  serverBucketOf : ∀ ref, after.serverBucketOf ref = before.serverBucketOf ref
  checks : ∀ ref, (after.host ref).checks = (before.host ref).checks

/-- Nothing has changed but the state of one host and the time of the last attempt to
refresh it. -/
structure Marked (before after : Agent) (ref : HostRef) (state : HostState) (now : Instant) :
    Prop where
  schedule : before.SameSchedule after
  host : after.host ref = { before.host ref with
    refresh := { (before.host ref).refresh with state, lastAttempt := some now } }
  others : ∀ other, other ≠ ref → after.host other = before.host other
  servers : after.servers = before.servers
  registered : after.registered = before.registered

/-- A host has exactly the checks of its orders, and its refresh has dropped the others. -/
structure Ordered (before after : Agent) (ref : HostRef) (orders : List Order) (now : Instant) :
    Prop where
  agent : after = (before.applyOrders ref orders now).2
  checks : ∀ key, (after.host ref).checks.get? key =
    Check.ordered? ((before.host ref).checks.get? key) orders key
  refresh : ∃ removed, (after.host ref).refresh =
      { state := .active, lastRefresh := some now, lastAttempt := some now, removed } ∧
    ∀ key, key ∈ removed ↔
      Order.last? orders key = none ∧ ((before.host ref).checks.get? key).isSome

variable {agent : Agent} {ref other : HostRef} {before host : Host}

theorem host?_setHost : (agent.setHost ref host).host? other =
    if ref = other then (agent.host? other).map fun _ => host else agent.host? other := by
  rw [host?, getElem?_setHost]
  split
  · rw [host?, Option.map_map, Option.map_map]
    rfl
  · rfl

theorem host_of_found (found : agent.host? ref = some host) : agent.host ref = host := by
  rw [Agent.host, found]
  rfl

theorem hasWithdrawn_of_found (found : agent.host? ref = some host) :
    agent.hasWithdrawn ref = host.withdrawn := by rw [hasWithdrawn, found]

theorem host?_setHost_self (found : agent.host? ref = some before) :
    (agent.setHost ref host).host? ref = some host := by
  rw [host?_setHost, if_pos rfl, found]
  rfl

theorem host_setHost_of_ne (different : other ≠ ref) :
    (agent.setHost ref host).host other = agent.host other := by
  rw [Agent.host, host?_setHost, if_neg different.symm, Agent.host]

theorem sameSchedule_setHost (found : agent.host? ref = some before)
    (sameChecks : host.checks = before.checks) :
    agent.SameSchedule (agent.setHost ref host) where
  scheduler := rfl
  bucketOf _ := bucketOf_setHost
  serverBucketOf _ := rfl
  checks other := by
    by_cases same : other = ref
    · rw [same, host_of_found (host?_setHost_self found), host_of_found found, sameChecks]
    · rw [host_setHost_of_ne same]

theorem host?_noteFault (found : agent.host? ref = some host) (fault : Fault) (now : Instant) :
    (agent.noteFault ref fault now).2.host? ref = some (host.noteFault fault now) := by
  rw [noteFault, found]
  exact host?_setHost_self found

theorem marked_noteFault (found : agent.host? ref = some host) (fault : Fault) (now : Instant) :
    agent.Marked (agent.noteFault ref fault now).2 ref (.afterFault fault) now := by
  have after := host?_noteFault found fault now
  rw [noteFault, found] at after ⊢
  exact
    { schedule := sameSchedule_setHost found rfl
      host := by
        rw [host_of_found after, host_of_found found]
        rfl
      others := fun _ different => host_setHost_of_ne different
      servers := rfl
      registered := rfl }

theorem host?_applyOrders (found : agent.host? ref = some host) (orders : List Order)
    (now : Instant) :
    (agent.applyOrders ref orders now).2.host? ref = some (host.reconcile orders now).host := by
  rw [applyOrders, found]
  dsimp only
  rw [host?, stations_reschedule, ← host?, host?_setHost_self found]

theorem ordered_applyOrders (found : agent.host? ref = some host)
    (present : host.withdrawn = false) (orders : List Order) (now : Instant) :
    agent.Ordered (agent.applyOrders ref orders now).2 ref orders now where
  agent := rfl
  checks key := by
    rw [host_of_found (host?_applyOrders found orders now), host_of_found found,
      Host.get?_reconcile present]
  refresh := by
    rw [host_of_found (host?_applyOrders found orders now), host_of_found found]
    exact Host.refresh_reconcile present

theorem sameSchedule_applyOrders_of_withdrawn (found : agent.host? ref = some host)
    (withdrawn : host.withdrawn = true) (orders : List Order) (now : Instant) :
    agent.SameSchedule (agent.applyOrders ref orders now).2 := by
  rw [applyOrders, found]
  dsimp only
  rw [Host.reconcile_of_withdrawn withdrawn, reschedule_nil]
  exact sameSchedule_setHost found rfl

end Agent

/-! ### Outcomes -/

namespace World

variable {world : World} {ref : HostRef} {host : Host} {orders : List Order} {fault : Fault}

theorem settle_orders (found : world.agent.host? ref = some host) :
    world.settle ref (.ok orders) = (if host.withdrawn then none else some .active,
      { world with agent := (world.agent.applyOrders ref orders world.clock).2 }) := by
  rw [settle, Agent.hasWithdrawn_of_found (Agent.host?_applyOrders found orders world.clock),
    Host.withdrawn_reconcile]

theorem settle_fault (found : world.agent.host? ref = some host) :
    world.settle ref (.error fault) = (if host.withdrawn then none else some (.afterFault fault),
      { world with agent := (world.agent.noteFault ref fault world.clock).2 }) := by
  have noted : world.agent.noteFault ref fault world.clock =
      (.afterFault fault, (world.agent.noteFault ref fault world.clock).2) := by
    rw [Agent.noteFault, found]
  rw [settle, noted]
  dsimp only
  rw [Agent.hasWithdrawn_of_found (Agent.host?_noteFault found fault world.clock)]
  rfl

theorem settle_of_withdrawn (found : world.agent.host? ref = some host)
    (withdrawn : host.withdrawn = true) (outcome : Except Fault (List Order)) :
    (world.settle ref outcome).1 = none ∧
      world.agent.SameSchedule (world.settle ref outcome).2.agent := by
  cases outcome with
  | ok orders =>
      rw [settle_orders found, if_pos withdrawn]
      exact ⟨rfl, Agent.sameSchedule_applyOrders_of_withdrawn found withdrawn orders world.clock⟩
  | error fault =>
      rw [settle_fault found, if_pos withdrawn]
      exact ⟨rfl, (Agent.marked_noteFault found fault world.clock).schedule⟩

theorem reachable_settle (reachable : world.agent.Reachable) (outcome : Except Fault (List Order)) :
    (world.settle ref outcome).2.agent.Reachable := by
  cases outcome with
  | ok orders => exact reachable.perform (.applyOrders ref orders world.clock)
  | error fault => exact reachable.perform (.noteFault ref fault world.clock)

theorem reachable_afterRequest (reachable : world.agent.Reachable) (surroundings : Surroundings)
    (server name : String) :
    (world.afterRequest surroundings server name).agent.Reachable :=
  reachable_interveneAll _ reachable

theorem exists_host_afterRequest (found : ∃ host, world.agent.host? ref = some host)
    (surroundings : Surroundings) (server name : String) :
    ∃ host, (world.afterRequest surroundings server name).agent.host? ref = some host :=
  contact_keeps (Agent.kept_host? ref) world found server _

/-- What a refresh leads to, by what comes back from the server and what happened meanwhile. -/
structure Refreshed (surroundings : Surroundings) (server name : String) (ref : HostRef)
    (before arrived : World) (state : Option HostState) (after : World) : Prop where
  undisturbed : (surroundings.peer server).lull
      ((surroundings.peer server).sent (Frame.encode (ordersRequest name))) = [] →
    arrived.agent = before.agent ∧ arrived.clock = before.clock
  accepted : ∀ reply, surroundings.RepliesWith server name reply → reply.isAccepted = true →
    arrived.agent.hasWithdrawn ref = false → state = some .active ∧
      arrived.agent.Ordered after.agent ref (reply.orders.getD []) arrived.clock
  otherwise : (∀ reply, surroundings.RepliesWith server name reply → reply.isAccepted = false) →
    arrived.agent.hasWithdrawn ref = false → ∃ failed, state = some failed ∧
      arrived.agent.Marked after.agent ref failed arrived.clock ∧
      (failed = .unknown ∨ failed = .refreshFailed) ∧
      (failed = .unknown ↔ ∃ reply, surroundings.RepliesWith server name reply ∧
        Reply.SaysUnknownHost reply.reason.toList)
  malformed : ∀ answer payload rest entry, surroundings.answerTo server name = some answer →
    answer.reply = some (Frame.encode payload ++ rest) → payload.length ≤ Frame.payloadLimit →
    Reply.Lists payload entry → Order.read? entry = none →
    arrived.agent.hasWithdrawn ref = false → state = some .refreshFailed ∧
      arrived.agent.Marked after.agent ref .refreshFailed arrived.clock
  withdrawn : arrived.agent.hasWithdrawn ref = true →
    state = none ∧ arrived.agent.SameSchedule after.agent
  inStep : after.agent.InStep

variable {surroundings : Surroundings} {server name : String} {timeout : Duration}

theorem afterRequest_undisturbed
    (quiet : (surroundings.peer server).lull
      ((surroundings.peer server).sent (Frame.encode (ordersRequest name))) = []) :
    (world.afterRequest surroundings server name).agent = world.agent ∧
      (world.afterRequest surroundings server name).clock = world.clock := by
  rw [afterRequest, contact, quiet]
  exact ⟨rfl, rfl⟩

theorem not_repliesWith_of_malformed {answer : Answer} {payload rest : List UInt8}
    {entry : Json.Tree} (answers : surroundings.answerTo server name = some answer)
    (sent : answer.reply = some (Frame.encode payload ++ rest))
    (fits : payload.length ≤ Frame.payloadLimit) (lists : Reply.Lists payload entry)
    (malformed : Order.read? entry = none) (reply : Reply) :
    ¬surroundings.RepliesWith server name reply := by
  intro replies
  obtain ⟨other, payload', answersOther, received, parsed⟩ := received_of_repliesWith ⟨0⟩ replies
  rw [answers, Option.some.injEq] at answersOther
  subst answersOther
  rw [Answer.payload, sent] at received
  dsimp only at received
  rw [Frame.read_encode_append fits, Except.ok.injEq] at received
  rw [← received, Reply.parse_of_malformed lists malformed] at parsed
  contradiction

theorem refresh_eq {owner : ServerRef} (named : world.agent.hostName ref = name)
    (identified : world.agent.serverId owner = server) :
    world.refresh surroundings owner ref timeout =
      (world.afterRequest surroundings server name).settle ref
        (world.fetchOrders surroundings server name timeout).1 := by
  rw [refresh, named, identified, ← snd_fetchOrders timeout]

theorem marchingOrders_of_refused (name : String) {reply : Reply} (refused : reply.isAccepted = false) :
    ∃ fault, reply.marchingOrders name = .error fault ∧
      (HostState.afterFault fault = .unknown ∨ HostState.afterFault fault = .refreshFailed) ∧
      (HostState.afterFault fault = .unknown ↔ Reply.SaysUnknownHost reply.reason.toList) := by
  rw [Reply.marchingOrders, refused, ← Reply.saysUnknownHost_iff]
  cases unknown : Reply.saysUnknownHost reply.reason
  · exact ⟨.rejected reply.reason, rfl, by simp [HostState.afterFault]⟩
  · exact ⟨.unknownHost name, rfl, by simp [HostState.afterFault]⟩

/-- Unless a whole reply comes back that accepts the request, there is a fault, and it says
that the host is unknown just when a whole reply does. -/
theorem fst_fetchOrders_otherwise (world : World) (timeout : Duration)
    (refused : ∀ reply, surroundings.RepliesWith server name reply → reply.isAccepted = false) :
    ∃ fault, (world.fetchOrders surroundings server name timeout).1 = .error fault ∧
      (HostState.afterFault fault = .unknown ∨ HostState.afterFault fault = .refreshFailed) ∧
      (HostState.afterFault fault = .unknown ↔ ∃ reply,
        surroundings.RepliesWith server name reply ∧ Reply.SaysUnknownHost reply.reason.toList) := by
  by_cases replied : ∃ reply, surroundings.RepliesWith server name reply
  · obtain ⟨reply, replies⟩ := replied
    obtain ⟨fault, outcome, states, unknown⟩ :=
      marchingOrders_of_refused name (refused reply replies)
    have fetched := world.fst_fetchOrders_of_reply timeout replies
    refine ⟨fault, fetched.trans outcome, states, ?_⟩
    constructor
    · intro isUnknown
      exact ⟨reply, replies, unknown.mp isUnknown⟩
    · intro ⟨other, repliesToo, missing⟩
      obtain ⟨fault', outcome', _, unknown'⟩ :=
        marchingOrders_of_refused name (refused other repliesToo)
      have same := (world.fst_fetchOrders_of_reply timeout repliesToo).symm
      rw [fetched, outcome, outcome', Except.error.injEq] at same
      rw [← same, unknown']
      exact missing
  · have noReply : ∀ reply, ¬surroundings.RepliesWith server name reply :=
      fun reply replies => replied ⟨reply, replies⟩
    obtain ⟨fault, outcome, failed⟩ :=
      world.fst_fetchOrders_of_no_reply timeout noReply
    refine ⟨fault, outcome, .inr failed, ?_⟩
    rw [failed]
    simp [noReply]

/-- Whatever comes back to a request for the marching orders of a registered host, either its
orders are applied or nothing but the state of the host and the time of the attempt changes,
and a host that was withdrawn meanwhile is left alone. -/
theorem refresh_by_reply (world : World) (surroundings : Surroundings) (timeout : Duration)
    {owner : ServerRef} {name : String} {ref : HostRef} (reachable : world.agent.Reachable)
    (enrolled : world.agent.hostNamed? owner name = some ref) :
    Refreshed surroundings (world.agent.serverId owner) name ref world
      (world.afterRequest surroundings (world.agent.serverId owner) name)
      (world.refresh surroundings owner ref timeout).1
      (world.refresh surroundings owner ref timeout).2 := by
  obtain ⟨server, foundServer, listed⟩ := Option.bind_eq_some_iff.mp enrolled
  obtain ⟨station, foundStation, _⟩ := reachable.sound.enrolled foundServer listed
  have foundBefore : world.agent.host? ref = some station.host :=
    Agent.host?_eq_some_iff.mpr ⟨station, foundStation, rfl⟩
  have named : world.agent.hostName ref = name := by
    rw [Agent.hostName, Agent.host_of_found foundBefore]
    exact reachable.sound.name_of_enrolled foundServer listed foundStation
  rw [refresh_eq named rfl]
  generalize identified : world.agent.serverId owner = server
  obtain ⟨host, found⟩ :=
    exists_host_afterRequest ⟨station.host, foundBefore⟩ surroundings server name
  have reachableThen := reachable_afterRequest reachable surroundings server name
  generalize fetched : (world.fetchOrders surroundings server name timeout).1 = outcome
  constructor
  case undisturbed => exact afterRequest_undisturbed
  case accepted =>
    intro reply replies accepts present
    rw [Agent.hasWithdrawn_of_found found] at present
    have orders : outcome = .ok (reply.orders.getD []) := by
      rw [← fetched, world.fst_fetchOrders_of_reply timeout replies, Reply.marchingOrders, if_pos accepts]
    rw [orders, settle_orders found, present]
    exact ⟨rfl, Agent.ordered_applyOrders found present _ _⟩
  case otherwise =>
    intro refused present
    rw [Agent.hasWithdrawn_of_found found] at present
    obtain ⟨fault, failed, states, unknown⟩ :=
      world.fst_fetchOrders_otherwise timeout refused
    rw [← fetched, failed, settle_fault found, present]
    exact ⟨_, rfl, Agent.marked_noteFault found fault _, states, unknown⟩
  case malformed =>
    intro answer payload rest entry answers sent fits lists malformed present
    rw [Agent.hasWithdrawn_of_found found] at present
    obtain ⟨fault, failed, state⟩ := world.fst_fetchOrders_of_no_reply timeout
      (not_repliesWith_of_malformed answers sent fits lists malformed)
    rw [← fetched, failed, settle_fault found, present, state]
    exact ⟨rfl, state ▸ Agent.marked_noteFault found fault _⟩
  case withdrawn =>
    intro withdrawn
    rw [Agent.hasWithdrawn_of_found found] at withdrawn
    exact settle_of_withdrawn found withdrawn outcome
  case inStep => exact (reachable_settle reachableThen outcome).inStep

/-- A server that sends one order in a whole reply, and what the agent then has to do. -/
theorem refresh_by_reply_of_first_orders :
    let agent := (Agent.empty {}).perform
      (.registerServer { address := "a", hosts := [{ name := "h" }] })
    let payload := utf8 "\x7b\"response\":\"success\",\"data\":[\x7b\"key\":\"k\",\"delay\":60\x7d]\x7d"
    let surroundings : Surroundings :=
      { execute := fun _ _ => { outcome := .crash }
        peer := fun _ => .listening { answer := fun _ => { reply := some (Frame.encode payload) } }
        tracing := false
        newFile := fun _ _ => .error .noDirectory }
    let world : World := { agent, clock := .ofMillis 1000 }
    let refreshed := world.refresh surroundings 0 0 (.ofSeconds 5)
    refreshed.1 = some .active ∧ refreshed.2.agent.InStep ∧ refreshed.2.agent.timerDelays = [60] := by
  have created : Agent.create { servers := [] } = .ok (Agent.empty {}) := rfl
  have reachable : ((Agent.empty {}).perform
      (.registerServer { address := "a", hosts := [{ name := "h" }] })).Reachable :=
    .perform (.create created) _
  have enrolled : ((Agent.empty {}).perform
      (.registerServer { address := "a", hosts := [{ name := "h" }] })).hostNamed? 0 "h" = some 0 := by
    decide +kernel
  refine ⟨by decide +kernel, ?_, by decide +kernel⟩
  exact (refresh_by_reply _ _ _ reachable enrolled).inStep

end World

end CheckRounds
