import CheckRounds.Collation.Stream
import CheckRounds.World

namespace CheckRounds

/-! Executing checks into a stream.

Every check that is executed leaves one record, of its value or of its failure.  Which
checks are executed is settled before the first of them runs; what became of them
meanwhile does not matter for their records.
-/

open Collation (Stream)

structure Tally where
  executed : Nat := 0
  failed : Nat := 0
deriving DecidableEq, Repr, Inhabited

namespace Tally

def add (first second : Tally) : Tally :=
  ⟨first.executed + second.executed, first.failed + second.failed⟩

def one (succeeded : Bool) : Tally := ⟨1, if succeeded then 0 else 1⟩

end Tally

/-- Why work came to an end before it was done. -/
inductive Stop
  | fault (cause : Fault)
  | crash
deriving DecidableEq, Repr

/-- A world, and the stream that results are collected into. -/
structure Collecting where
  world : World
  stream : Stream

namespace Collecting

variable (surroundings : Surroundings)

def collect (collecting : Collecting) (record : Record) : Except Stop Unit × Collecting :=
  match collecting.stream.appendRecord ⟨record.writeSeparated.toArray⟩ with
  | (.ok (), stream) => (.ok (), ⟨collecting.world, stream⟩)
  | (.error fault, stream) => (.error (.fault fault), ⟨collecting.world, stream⟩)

/-- Executes one check of a host: whether it had a value.  The value is kept before the
record of it is added. -/
def execute (collecting : Collecting) (ref : HostRef) (host : String) (check : Check) :
    Except Stop Bool × Collecting :=
  let run := surroundings.execute host check
  let world := collecting.world.interveneAll run.meanwhile
  let clock := world.clock.seconds
  match run.outcome with
  | .crash => (.error .crash, ⟨world, collecting.stream⟩)
  | .value value =>
      let kept := world.mapAgent fun agent => agent.keepValue ref check.key value world.clock
      match Collecting.collect ⟨kept, collecting.stream⟩ ⟨host, check.key, value, false, clock⟩ with
      | (.ok (), collecting) => (.ok true, collecting)
      | (.error stop, collecting) => (.error stop, collecting)
  | .failure causes =>
      let message := ": ".intercalate causes
      match Collecting.collect ⟨world, collecting.stream⟩ ⟨host, check.key, message, true, clock⟩ with
      | (.ok (), collecting) => (.ok false, collecting)
      | (.error stop, collecting) => (.error stop, collecting)

def executeEach (collecting : Collecting) (ref : HostRef) (host : String) :
    List Check → Except Stop Tally × Collecting
  | [] => (.ok {}, collecting)
  | check :: rest =>
      match collecting.execute surroundings ref host check with
      | (.error stop, collecting) => (.error stop, collecting)
      | (.ok succeeded, collecting) =>
          match executeEach collecting ref host rest with
          | (.error stop, collecting) => (.error stop, collecting)
          | (.ok tally, collecting) => (.ok ((Tally.one succeeded).add tally), collecting)

/-- Executes the checks of a host that are due at a delay, or all of them. -/
def executeDue (collecting : Collecting) (ref : HostRef) (delay : Option Nat) :
    Except Stop Tally × Collecting :=
  let due := match delay with
    | some delay => collecting.world.agent.dueChecks ref delay
    | none => collecting.world.agent.allChecks ref
  collecting.executeEach surroundings ref (collecting.world.agent.hostName ref) due

/-- Executes the check with a key: whether it had a value, or nothing if the host has no
such check any more. -/
def executeKeyed (collecting : Collecting) (ref : HostRef) (key : String) :
    Except Stop (Option Bool) × Collecting :=
  match (collecting.world.agent.host? ref).bind fun host => host.checks.get? key with
  | none => (.ok none, collecting)
  | some check =>
      match collecting.execute surroundings ref (collecting.world.agent.hostName ref) check with
      | (.ok succeeded, collecting) => (.ok (some succeeded), collecting)
      | (.error stop, collecting) => (.error stop, collecting)

end Collecting

end CheckRounds
