import CheckRounds.Exchange

namespace CheckRounds

/-! Fetching marching orders, for one host or for all hosts that should be refreshed.

Which hosts a sweep asks for is settled when it begins.  The outcome of an exchange is
recorded at the time at which it is there, and means nothing to a host that was withdrawn
meanwhile.
-/

structure SweepSummary where
  attempted : Nat := 0
  active : Nat := 0
  failed : Nat := 0
  unknown : Nat := 0
  /-- Hosts that were withdrawn before their outcome was recorded. -/
  withdrawn : Nat := 0
deriving DecidableEq, Repr, Inhabited

/-- Counts one more host by the state that it came to, if it was not withdrawn. -/
def SweepSummary.count (summary : SweepSummary) (state : Option HostState) : SweepSummary :=
  let counted := { summary with attempted := summary.attempted + 1 }
  match state with
  | none => { counted with withdrawn := summary.withdrawn + 1 }
  | some .active => { counted with active := summary.active + 1 }
  | some .unknown => { counted with unknown := summary.unknown + 1 }
  | some _ => { counted with failed := summary.failed + 1 }

namespace World

variable (surroundings : Surroundings)

/-- Records the outcome of a fetch: the state of the host, or nothing if it is withdrawn. -/
def settle (world : World) (host : HostRef) (outcome : Except Fault (List Order)) :
    Option HostState × World :=
  let (state, agent) := match outcome with
    | .ok orders => (HostState.active, (world.agent.applyOrders host orders world.clock).2)
    | .error fault => world.agent.noteFault host fault world.clock
  (if agent.hasWithdrawn host then none else some state, { world with agent })

def refresh (world : World) (server : ServerRef) (host : HostRef) (timeout : Duration) :
    Option HostState × World :=
  let (outcome, world) :=
    world.fetchOrders surroundings (world.agent.serverId server) (world.agent.hostName host) timeout
  world.settle host outcome

end World

def Agent.dueOn (agent : Agent) (now : Instant) :
    List ServerRef → List (ServerRef × HostRef) × Agent
  | [] => ([], agent)
  | server :: rest =>
      let (hosts, agent) := agent.hostsToRefresh server now
      let (others, agent) := dueOn agent now rest
      (hosts.map (server, ·) ++ others, agent)

/-- A sweep under way: the hosts it has still to ask for, and the counts so far. -/
structure RefreshSweep where
  waiting : List (ServerRef × HostRef)
  summary : SweepSummary
deriving DecidableEq, Repr

namespace RefreshSweep

variable (surroundings : Surroundings)

def start (world : World) : RefreshSweep × World :=
  let (due, agent) := world.agent.dueOn world.clock world.agent.serverRefs
  (⟨due, {}⟩, { world with agent })

def askAll (world : World) (summary : SweepSummary) :
    List (ServerRef × HostRef) → SweepSummary × World
  | [] => (summary, world)
  | (server, host) :: rest =>
      let (state, world) := world.refresh surroundings server host world.agent.timeout
      askAll world (summary.count state) rest

def finish (sweep : RefreshSweep) (world : World) : SweepSummary × World :=
  askAll surroundings world sweep.summary sweep.waiting

def run (world : World) : SweepSummary × World :=
  let (sweep, world) := start world
  sweep.finish surroundings world

end RefreshSweep

end CheckRounds
