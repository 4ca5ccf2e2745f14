import CheckRounds.Agent
import CheckRounds.Collation.Directory
import CheckRounds.Frame

namespace CheckRounds

/-! The agent among the things that it does not control.

How a check gets its value and how a server answers are functions from outside.  Both
take time, and meanwhile the clock may move and the agent may be changed by others;
what happens meanwhile is part of what these functions return.
-/

open Collation (Directory TempFile)

/-- Something that happens to the agent while it waits.  Servers and hosts that are
named are looked up when it happens, and nothing happens to those that are gone. -/
inductive Intervention
  | setClock (now : Instant)
  | unregisterServer (id : String)
  | unregisterHost (server host : String)
  | applyOrders (server host : String) (orders : List Order)
  | applyOrdersTo (host : HostRef) (orders : List Order)
  | noteFault (host : HostRef) (fault : Fault)
  | withdrawHost (host : HostRef)
deriving DecidableEq

/-- How the execution of a check ends: with a value, with a failure told from the
outermost cause to the innermost, or not at all. -/
inductive CheckOutcome
  | value (text : String)
  | failure (causes : List String)
  | crash
deriving DecidableEq, Repr

structure CheckRun where
  meanwhile : List Intervention := []
  outcome : CheckOutcome
deriving DecidableEq

/-- What a server does about the bytes that it was sent: it sends bytes and closes the
connection, or nothing comes for as long as anybody waits. -/
structure Answer where
  meanwhile : List Intervention := []
  reply : Option (List UInt8)
deriving DecidableEq

/-- A connection that a server has accepted: how much can be sent to it, and what it does
about what was sent. -/
structure Connection where
  room : Room := {}
  answer : List UInt8 → Answer

inductive Peer
  | refusing
  | unreachable
  /-- A connection is not accepted for as long as anybody waits. -/
  | unanswered (meanwhile : List Intervention)
  | listening (connection : Connection)

structure Surroundings where
  execute : String → Check → CheckRun
  /-- What is found at the address of a server. -/
  peer : String → Peer
  /-- Whether payloads are shown before they are sent. -/
  tracing : Bool
  /-- The file that can be created at the place where results are to be collected, or at the
  usual one, or why there is none. -/
  newFile : Option String → Directory → Except IoFault TempFile

/-- An attempt to talk to a server, and the bytes that were sent to it, maybe not all of
them, if the connection came about. -/
structure Contact where
  server : String
  sent : Option (List UInt8)
deriving DecidableEq, Repr

structure World where
  agent : Agent
  clock : Instant
  contacts : List Contact := []
  dumps : List String := []
  /-- The files where results are collected.  What is written to a file gets here when its
  frame is finished. -/
  directory : Directory := .empty

instance : Inhabited World := ⟨{ agent := default, clock := default }⟩

namespace World

def mapAgent (world : World) (change : Agent → Agent) : World :=
  { world with agent := change world.agent }

def noteContact (world : World) (server : String) (sent : Option (List UInt8)) : World :=
  { world with contacts := world.contacts ++ [⟨server, sent⟩] }

def noteDump (world : World) (dump : Option String) : World :=
  { world with dumps := world.dumps ++ dump.toList }

def hostNamed? (world : World) (server host : String) : Option HostRef :=
  (world.agent.serverNamed? server).bind fun ref => world.agent.hostNamed? ref host

def intervene (world : World) : Intervention → World
  | .setClock now => { world with clock := now }
  | .unregisterServer id => world.mapAgent fun agent => (agent.unregisterServer id).2
  | .unregisterHost server host =>
      match world.agent.serverNamed? server with
      | some ref => world.mapAgent fun agent => (agent.unregisterHost ref host).2
      | none => world
  | .applyOrders server host orders =>
      match world.hostNamed? server host with
      | some ref => world.mapAgent fun agent => (agent.applyOrders ref orders world.clock).2
      | none => world
  | .applyOrdersTo ref orders => world.mapAgent fun agent => (agent.applyOrders ref orders world.clock).2
  | .noteFault ref fault => world.mapAgent fun agent => (agent.noteFault ref fault world.clock).2
  | .withdrawHost ref => world.mapAgent fun agent => agent.withdraw ref

def interveneAll (world : World) (interventions : List Intervention) : World :=
  interventions.foldl intervene world

end World

end CheckRounds
