import CheckRounds.Exchange
import CheckRounds.Round.Plan

namespace CheckRounds

/-! A round: the checks that are due on a server at a delay are executed into one stream,
which is then submitted.

A round is opened under the settings of that moment and keeps to them, also if they change
before its work is divided.  A unit of work that crashes is left out of the counts and does no
harm otherwise; one that meets a fault lets the others be done and then ends the round.
-/

open Collation (FileStore Stream TempFile)

namespace World

variable (surroundings : Surroundings)

/-- Creates a file at a place, or at the usual one, to collect results in. -/
def createFile (world : World) (place : Option String) : Except IoFault (TempFile × World) :=
  match surroundings.newFile place world.directory with
  | .error fault => .error fault
  | .ok file =>
      match world.directory.create file with
      | .error fault => .error fault
      | .ok directory => .ok (file, { world with directory })

/-- Opens a stream, with a file if the mode takes one. -/
def openStream (world : World) (settings : RoundSettings) : Except Fault (Stream × World) :=
  if settings.collation.usesFile then
    match world.createFile surroundings settings.collationDir with
    | .error fault => .error (.collation fault)
    | .ok (file, world) =>
        let store := FileStore.create settings.collation.isDirect FileStore.defaultThreshold file
        .ok (.create settings.collation (.disk store), world)
  else .ok (.create settings.collation (.memory .create), world)

/-- The world once a stream is closed. -/
def release (world : World) (stream : Stream) : World :=
  { world with directory := stream.release world.directory }

end World

structure Round where
  server : ServerRef
  delay : Nat
  settings : RoundSettings
  stream : Stream
  unitCount : Nat
  remaining : List UnitOfWork
  tally : Tally
  /-- The first fault of a unit. -/
  fault : Option Fault

structure Report where
  server : String
  delay : Nat
  units : Nat
  tally : Tally
  submitted : Nat
  ack : Option Acknowledgement
deriving DecidableEq, Repr, Inhabited

namespace Round

variable (surroundings : Surroundings)

/-- Opens a round under the settings of this moment.  Its work is still to be divided.  Nothing
has changed if it cannot be opened: a stream that is dropped takes its file along. -/
def begin (world : World) (server : ServerRef) (delay : Nat) : Except Fault (Round × World) :=
  let settings := world.agent.settings
  match world.openStream surroundings settings with
  | .error fault => .error fault
  | .ok (stream, world) =>
      match stream.openFrame with
      | (.error fault, _) => .error fault
      | (.ok (), stream) =>
          .ok
            ({ server
               delay
               settings
               stream
               unitCount := 0
               remaining := []
               tally := {}
               fault := none },
              world)

/-- Divides the work of a round into units, by the policy under which it was opened. -/
def divide (agent : Agent) (round : Round) : Round :=
  let plan := round.settings.policy.plan agent round.server round.delay
  { round with unitCount := plan.length, remaining := plan }

def start (world : World) (server : ServerRef) (delay : Nat) : Except Fault (Round × World) :=
  (begin surroundings world server delay).map fun (round, world) => (round.divide world.agent, world)

def count (round : Round) : Except Stop Tally → Round
  | .ok tally => { round with tally := round.tally.add tally }
  | .error (.fault fault) => { round with fault := round.fault.or (some fault) }
  | .error .crash => round

def perform (world : World) (round : Round) (work : UnitOfWork) : World × Round :=
  let (outcome, collecting) := Collecting.runUnit surroundings ⟨world, round.stream⟩ work
  (collecting.world, { round with stream := collecting.stream }.count outcome)

def performAll (world : World) (round : Round) : List UnitOfWork → World × Round
  | [] => (world, round)
  | work :: rest =>
      let (world, round) := round.perform surroundings world work
      performAll world round rest

def work (world : World) (round : Round) : World × Round :=
  { round with remaining := [] }.performAll surroundings world round.remaining

/-- How a round ended, and the stream it leaves behind. -/
structure Ending where
  outcome : Except Fault Report
  world : World
  stream : Stream

/-- The end of a round that closes its stream. -/
def Ending.closing (outcome : Except Fault Report) (world : World) (stream : Stream) : Ending :=
  ⟨outcome, world.release stream, stream.close⟩

def reportOf (round : Round) (world : World) (ack : Option Acknowledgement) : Report :=
  { server := world.agent.serverId round.server
    delay := round.delay
    units := round.unitCount
    tally := round.tally
    submitted := round.stream.resultCount
    ack }

/-- Ends a round whose work is done.  Nothing is submitted after a fault or without a
record. -/
def finish (world : World) (round : Round) : Ending :=
  match round.fault with
  | some fault => .closing (.error fault) world round.stream
  | none =>
      if round.stream.resultCount = 0 then
        .closing (.ok (round.reportOf world none)) world round.stream
      else
        match round.stream.complete world.clock.seconds with
        | (.error fault, stream) => .closing (.error fault) world stream
        | (.ok _, stream) =>
            match world.submit surroundings round.server stream world.agent.timeout with
            | (.error fault, world, stream) => .closing (.error fault) world stream
            | (.ok ack, world, stream) => .closing (.ok (round.reportOf world ack)) world stream

def run (world : World) (server : ServerRef) (delay : Nat) : Except Fault Report × World :=
  match start surroundings world server delay with
  | .error fault => (.error fault, world)
  | .ok (round, world) =>
      let (world, round) := round.work surroundings world
      let ending := round.finish surroundings world
      (ending.outcome, ending.world)

end Round

/-! A dispatch holds the rounds of all servers that have a check due at a delay.  All of
them are opened first; then their work is done, and last they are ended, server by
server. -/

namespace Dispatch

variable (surroundings : Surroundings)

/-- Opens the rounds of servers one after the other; a server whose round cannot be opened is
passed over. -/
def openEach (world : World) (delay : Nat) : List ServerRef → List Round × World
  | [] => ([], world)
  | server :: rest =>
      match Round.start surroundings world server delay with
      | .error _ => openEach world delay rest
      | .ok (round, world) =>
          let (rounds, world) := openEach world delay rest
          (round :: rounds, world)

def start (world : World) (delay : Nat) : List Round × World :=
  openEach surroundings world delay (world.agent.dueServers delay)

def work (world : World) : List Round → World × List Round
  | [] => (world, [])
  | round :: rest =>
      let (world, round) := round.work surroundings world
      let (world, rest) := work world rest
      (world, round :: rest)

def finish (world : World) : List Round → List Report × World
  | [] => ([], world)
  | round :: rest =>
      let ending := round.finish surroundings world
      let (reports, world) := finish ending.world rest
      (ending.outcome.toOption.toList ++ reports, world)

def run (world : World) (delay : Nat) : List Report × World :=
  let (rounds, world) := start surroundings world delay
  let (world, rounds) := work surroundings world rounds
  finish surroundings world rounds

end Dispatch

end CheckRounds
