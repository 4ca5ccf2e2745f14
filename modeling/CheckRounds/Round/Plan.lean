import CheckRounds.Round.Execution

namespace CheckRounds

/-! The division of a round into units of work. -/

/-- What a unit covers: the hosts of a server, the checks of a host, or one check. -/
inductive Coverage
  | server (ref : ServerRef)
  | host (ref : HostRef)
  | check (host : HostRef) (key : String)
deriving DecidableEq, Repr

structure UnitOfWork where
  delay : Nat
  scope : Coverage
deriving DecidableEq, Repr

/-- The scopes that cover what is due on a server at a delay; none if nothing is due. -/
def WorkPolicy.scopes (policy : WorkPolicy) (agent : Agent) (server : ServerRef) (delay : Nat) :
    List Coverage :=
  let hosts := agent.dueHosts server delay
  match policy with
  | .server => if hosts.isEmpty then [] else [.server server]
  | .host => hosts.map .host
  | .check => hosts.flatMap fun host => (agent.dueChecks host delay).map fun check => .check host check.key

def WorkPolicy.plan (policy : WorkPolicy) (agent : Agent) (server : ServerRef) (delay : Nat) :
    List UnitOfWork :=
  (policy.scopes agent server delay).map fun scope => ⟨delay, scope⟩

namespace Collecting

variable (surroundings : Surroundings)

def executeHosts (collecting : Collecting) (delay : Nat) :
    List HostRef → Except Stop Tally × Collecting
  | [] => (.ok {}, collecting)
  | ref :: rest =>
      match collecting.executeDue surroundings ref (some delay) with
      | (.error stop, collecting) => (.error stop, collecting)
      | (.ok tally, collecting) =>
          match executeHosts collecting delay rest with
          | (.error stop, collecting) => (.error stop, collecting)
          | (.ok others, collecting) => (.ok (tally.add others), collecting)

/-- Does the work of a unit.  What a server or a host has due is looked up now, and a
check that is gone by now counts for nothing. -/
def runUnit (collecting : Collecting) (work : UnitOfWork) : Except Stop Tally × Collecting :=
  match work.scope with
  | .server ref =>
      collecting.executeHosts surroundings work.delay
        (collecting.world.agent.dueHosts ref work.delay)
  | .host ref => collecting.executeDue surroundings ref (some work.delay)
  | .check ref key =>
      match collecting.executeKeyed surroundings ref key with
      | (.error stop, collecting) => (.error stop, collecting)
      | (.ok none, collecting) => (.ok {}, collecting)
      | (.ok (some succeeded), collecting) => (.ok (Tally.one succeeded), collecting)

end Collecting

end CheckRounds
