import CheckRounds.Config
import CheckRounds.Host
import CheckRounds.Message.Acknowledgement
import CheckRounds.Schedule.Scheduler

namespace CheckRounds

/-! The agent: its servers, their hosts, and the schedule of all their checks.

Every server and host that was ever registered keeps its number, so that work that
was begun on one can be finished after it was removed.  A removed host is withdrawn
and schedules nothing any more.
-/

open Schedule (BucketRef Bucket Change Scheduler Timers)

abbrev HostRef := Nat

abbrev ServerRef := Nat

structure SubmissionTotals where
  rounds : Nat := 0
  failedRounds : Nat := 0
  processed : Nat := 0
  failed : Nat := 0
  total : Nat := 0
  lastAck : Option Acknowledgement := none
  lastFault : Option Fault := none
  lastSubmission : Option Instant := none
deriving DecidableEq

namespace SubmissionTotals

/-- Counts a round that the server took; its numbers count if it acknowledged any. -/
def noteAccepted (stats : SubmissionTotals) (ack : Option Acknowledgement) (now : Instant) :
    SubmissionTotals :=
  let counted := { stats with rounds := stats.rounds + 1, lastSubmission := some now }
  match ack with
  | none => counted
  | some ack =>
      { counted with
        processed := stats.processed + ack.processed
        failed := stats.failed + ack.failed
        total := stats.total + ack.total
        lastAck := some ack }

def noteFailed (stats : SubmissionTotals) (fault : Fault) (now : Instant) : SubmissionTotals :=
  { stats with
    rounds := stats.rounds + 1
    failedRounds := stats.failedRounds + 1
    lastSubmission := some now
    lastFault := some fault }

end SubmissionTotals

structure Station where
  host : Host
  bucket : BucketRef
deriving Inhabited

/-- A server, its bucket, and the hosts that are registered on it. -/
structure Server where
  address : String
  portNumber : Nat
  id : String
  refreshPeriod : Nat
  bucket : BucketRef
  hosts : SortedMap String HostRef := .empty
  stats : SubmissionTotals := {}
deriving Inhabited

structure RoundSettings where
  policy : WorkPolicy
  collation : CollationMode
  collationDir : Option String
deriving DecidableEq, Inhabited

structure Agent where
  scheduler : Scheduler
  /-- Every host that was ever registered, by number. -/
  stations : List Station := []
  /-- Every server that was ever registered, by number. -/
  servers : List Server := []
  /-- The servers that are registered now. -/
  registered : SortedMap String ServerRef := .empty
  settings : RoundSettings
  refreshSweep : Nat
  timeout : Duration
deriving Inhabited

namespace Agent

def empty (config : AgentConfig) : Agent :=
  { scheduler := .withRoot "root"
    settings :=
      { policy := config.policy, collation := config.collation, collationDir := config.collationDir }
    refreshSweep := config.refreshSweep
    timeout := .ofSeconds config.timeout }

def host? (agent : Agent) (ref : HostRef) : Option Host := agent.stations[ref]?.map (·.host)

def server? (agent : Agent) (ref : ServerRef) : Option Server := agent.servers[ref]?

/-- The server with a number, or a nameless one without hosts. -/
def server (agent : Agent) (ref : ServerRef) : Server := (agent.server? ref).getD default

def serverId (agent : Agent) (ref : ServerRef) : String := (agent.server ref).id

/-- The host with a number, or a nameless one without checks. -/
def host (agent : Agent) (ref : HostRef) : Host := (agent.host? ref).getD default

def hostName (agent : Agent) (ref : HostRef) : String := (agent.host ref).name

def serverNamed? (agent : Agent) (id : String) : Option ServerRef := agent.registered.get? id

def hostNamed? (agent : Agent) (server : ServerRef) (name : String) : Option HostRef :=
  (agent.server? server).bind fun server => server.hosts.get? name

def serverRefs (agent : Agent) : List ServerRef := agent.registered.values

def hostRefs (agent : Agent) (server : ServerRef) : List HostRef :=
  match agent.server? server with
  | some server => server.hosts.values
  | none => []

def bucketOf (agent : Agent) (host : HostRef) : Bucket String :=
  match agent.stations[host]? with
  | some station => agent.scheduler.bucket station.bucket
  | none => .empty ""

def serverBucketOf (agent : Agent) (server : ServerRef) : Bucket String :=
  match agent.server? server with
  | some server => agent.scheduler.bucket server.bucket
  | none => .empty ""

def setHost (agent : Agent) (ref : HostRef) (host : Host) : Agent :=
  { agent with stations := agent.stations.modify ref fun station => { station with host } }

def modifyServer (agent : Agent) (ref : ServerRef) (change : Server → Server) : Agent :=
  { agent with servers := agent.servers.modify ref change }

def reschedule (agent : Agent) (ref : HostRef) (changes : List (Change String)) : Agent :=
  match agent.stations[ref]? with
  | none => agent
  | some station =>
      { agent with scheduler := agent.scheduler.applyAll station.bucket changes }

/-- Adds a host whose bucket reports into the given bucket; its number is the number
of hosts before. -/
def enrolHost (agent : Agent) (parent : BucketRef) (config : HostConfig) (inherited : Nat) : Agent :=
  let host : Host :=
    { name := config.name, refreshPeriod := config.effectivePeriod inherited }
  { agent with
    scheduler := agent.scheduler.plant ("host:" ++ config.name) parent config.name
    stations := agent.stations ++ [⟨host, agent.scheduler.forest.size⟩] }

/-- Registers a host on a server: its number, and the agent with it. -/
def registerHost (agent : Agent) (ref : ServerRef) (config : HostConfig) :
    Except ConfigFault (HostRef × Agent) :=
  match agent.server? ref with
  | none => .error (.other "no server")
  | some server =>
      if server.hosts.contains config.name then .error (.registeredHost config.name server.id)
      else
        match config.validate with
        | .error fault => .error fault
        | .ok () =>
            let enrolled := agent.enrolHost server.bucket config server.refreshPeriod
            .ok (agent.stations.length,
              enrolled.modifyServer ref fun server =>
                { server with hosts := server.hosts.insert config.name agent.stations.length })

/-- Adds a server without hosts; its number is the number of servers before. -/
def enrolServer (agent : Agent) (config : ServerConfig) : Agent :=
  let server : Server :=
    { address := config.address
      portNumber := config.portNumber
      id := config.id
      refreshPeriod := config.refreshPeriod
      bucket := agent.scheduler.forest.size }
  { agent with
    scheduler := agent.scheduler.plant ("server:" ++ config.id) Scheduler.rootRef config.id
    servers := agent.servers ++ [server]
    registered := agent.registered.insert config.id agent.servers.length }

def registerHosts (agent : Agent) (ref : ServerRef) : List HostConfig → Except ConfigFault Agent
  | [] => .ok agent
  | config :: rest =>
      match agent.registerHost ref config with
      | .error fault => .error fault
      | .ok (_, agent) => registerHosts agent ref rest

/-- Registers a server with its hosts: its number, and the agent with it. -/
def registerServer (agent : Agent) (config : ServerConfig) : Except ConfigFault (ServerRef × Agent) :=
  if agent.registered.contains config.id then .error (.registeredServer config.id)
  else
    match config.validate with
    | .error fault => .error fault
    | .ok () =>
        match (agent.enrolServer config).registerHosts agent.servers.length config.hosts with
        | .error fault => .error fault
        | .ok agent' => .ok (agent.servers.length, agent')

def registerServers (agent : Agent) : List ServerConfig → Except ConfigFault Agent
  | [] => .ok agent
  | config :: rest =>
      match agent.registerServer config with
      | .error fault => .error fault
      | .ok (_, agent) => registerServers agent rest

def create (config : Config) : Except ConfigFault Agent :=
  match config.validate with
  | .error fault => .error fault
  | .ok () => (empty config.agent).registerServers config.servers

/-- Drops every check of a host for good. -/
def withdraw (agent : Agent) (ref : HostRef) : Agent :=
  match agent.host? ref with
  | none => agent
  | some host =>
      let (changes, host) := host.withdraw
      (agent.setHost ref host).reschedule ref changes

/-- Removes a host from a server; says whether there was one. -/
def unregisterHost (agent : Agent) (ref : ServerRef) (name : String) : Bool × Agent :=
  match agent.hostNamed? ref name with
  | none => (false, agent)
  | some host =>
      (true,
        (agent.modifyServer ref fun server =>
          { server with hosts := server.hosts.erase name }).withdraw host)

/-- Removes a server with all its hosts; says whether there was one. -/
def unregisterServer (agent : Agent) (id : String) : Bool × Agent :=
  match agent.serverNamed? id with
  | none => (false, agent)
  | some ref =>
      let names := ((agent.server? ref).map fun server => server.hosts.keys).getD []
      let unregistered := { agent with registered := agent.registered.erase id }
      let emptied := names.foldl (fun agent name => (agent.unregisterHost ref name).2) unregistered
      let changes := emptied.scheduler.root.removalChanges id
      (true,
        { emptied with scheduler := emptied.scheduler.applyAll Scheduler.rootRef changes })

def applyOrders (agent : Agent) (ref : HostRef) (orders : List Order) (now : Instant) :
    ReconcileCounts × Agent :=
  match agent.host? ref with
  | none => ({}, agent)
  | some host =>
      let reconciled := host.reconcile orders now
      (reconciled.summary,
        (agent.setHost ref reconciled.host).reschedule ref reconciled.changes)

/-- Notes a refresh of a host that failed; the state it led to. -/
def noteFault (agent : Agent) (ref : HostRef) (fault : Fault) (now : Instant) :
    HostState × Agent :=
  match agent.host? ref with
  | none => (.afterFault fault, agent)
  | some host => (.afterFault fault, agent.setHost ref (host.noteFault fault now))

def hostState (agent : Agent) (ref : HostRef) (now : Instant) : HostState × Agent :=
  match agent.host? ref with
  | none => (.init, agent)
  | some host =>
      let (state, host) := host.stateAt now
      (state, agent.setHost ref host)

def wantsRefresh (agent : Agent) (ref : HostRef) (now : Instant) : Bool × Agent :=
  match agent.host? ref with
  | none => (false, agent)
  | some host =>
      let (due, host) := host.wantsRefresh now
      (due, agent.setHost ref host)

def toRefresh (agent : Agent) (now : Instant) : List HostRef → List HostRef × Agent
  | [] => ([], agent)
  | ref :: rest =>
      let (due, agent) := agent.wantsRefresh ref now
      let (others, agent) := toRefresh agent now rest
      (if due then ref :: others else others, agent)

def hostsToRefresh (agent : Agent) (server : ServerRef) (now : Instant) :
    List HostRef × Agent :=
  agent.toRefresh now (agent.hostRefs server)

/-- The hosts of a server that have a check due at a delay, by name. -/
def dueHosts (agent : Agent) (server : ServerRef) (delay : Nat) : List HostRef :=
  ((agent.serverBucketOf server).items delay).toList.filterMap (agent.hostNamed? server)

def dueServers (agent : Agent) (delay : Nat) : List ServerRef :=
  (agent.scheduler.root.items delay).toList.filterMap agent.serverNamed?

def dueChecks (agent : Agent) (ref : HostRef) (delay : Nat) : List Check :=
  match agent.host? ref with
  | none => []
  | some host => host.dueChecks (agent.bucketOf ref) delay

def allChecks (agent : Agent) (ref : HostRef) : List Check :=
  match agent.host? ref with
  | none => []
  | some host => host.allChecks

def hasWithdrawn (agent : Agent) (ref : HostRef) : Bool :=
  match agent.host? ref with
  | none => false
  | some host => host.withdrawn

def keepValue (agent : Agent) (ref : HostRef) (key value : String) (now : Instant) : Agent :=
  match agent.host? ref with
  | none => agent
  | some host => agent.setHost ref (host.keepValue key value now)

def usePolicy (agent : Agent) (policy : WorkPolicy) : Agent :=
  { agent with settings := { agent.settings with policy } }

def useCollation (agent : Agent) (collation : CollationMode) : Agent :=
  { agent with settings := { agent.settings with collation } }

def advanceTimers (agent : Agent) (seconds : Nat) : List (Nat × Nat) × Agent :=
  let (ticks, scheduler) := agent.scheduler.advance seconds
  (ticks, { agent with scheduler })

def dropTicks (agent : Agent) : Agent := { agent with scheduler := agent.scheduler.dropReceiver }

def timerDelays (agent : Agent) : List Nat := agent.scheduler.timerDelays

end Agent

end CheckRounds
