import CheckRounds.Proofs.Exchange
import CheckRounds.Proofs.Round.Interference

namespace CheckRounds

/-! How a round is accounted for.

A round that has a fault or has collected nothing ends where it is, and no server hears of
it.  Every other round is counted once for its server: as a failed one, or with the numbers
of the acknowledgement.  However a round ends, its stream is closed, and nothing that the
agent has to do is different from what it was.  The file of the round is gone by then, and so
are those of all rounds of a dispatch.
-/

open Collation (Directory Stream)

/-! ### Totals -/

/-- One more round is counted, of which the submission had an outcome. -/
structure SubmissionTotals.Counts (before after : SubmissionTotals)
    (outcome : Except Fault (Option Acknowledgement)) : Prop where
  rounds : after.rounds = before.rounds + 1
  failed : ∀ fault, outcome = .error fault →
    after = { before with
      rounds := after.rounds
      failedRounds := before.failedRounds + 1
      lastFault := some fault
      lastSubmission := after.lastSubmission }
  accepted : ∀ ack, outcome = .ok ack →
    after = { before with
      rounds := after.rounds
      processed := before.processed + (ack.map (·.processed)).getD 0
      failed := before.failed + (ack.map (·.failed)).getD 0
      total := before.total + (ack.map (·.total)).getD 0
      lastAck := ack.or before.lastAck
      lastSubmission := after.lastSubmission }

namespace SubmissionTotals

def noteOutcome (stats : SubmissionTotals) (outcome : Except Fault (Option Acknowledgement))
    (now : Instant) : SubmissionTotals :=
  match outcome with
  | .ok ack => stats.noteAccepted ack now
  | .error fault => stats.noteFailed fault now

theorem counts_noteOutcome (stats : SubmissionTotals)
    (outcome : Except Fault (Option Acknowledgement)) (now : Instant) :
    stats.Counts (stats.noteOutcome outcome now) outcome := by
  cases outcome with
  | error fault =>
      refine ⟨rfl, fun other same => ?_, fun _ same => (nomatch same)⟩
      cases same
      rfl
  | ok ack =>
      refine ⟨?_, fun _ same => (nomatch same), fun other same => ?_⟩
      · cases ack <;> rfl
      · cases same
        cases ack <;> rfl

end SubmissionTotals

namespace Agent

/-- What is counted of the submissions to a server. -/
def statsOf (agent : Agent) (ref : ServerRef) : Option SubmissionTotals :=
  (agent.server? ref).map (·.stats)

variable {agent before after : Agent} {owner other : ServerRef}

theorem statsOf_modifyServer (change : Server → Server)
    (sameStats : ∀ server, (change server).stats = server.stats) :
    (agent.modifyServer owner change).statsOf other = agent.statsOf other := by
  rw [statsOf, server?_modifyServer]
  split
  · rw [statsOf, Option.map_map]
    exact congrArg (Option.map · _) (funext sameStats)
  · rfl

/-- Nothing that can happen to an agent counts a round. -/
theorem kept_statsOf (stats : ServerRef → Option SubmissionTotals) :
    Kept fun agent => ∀ ref, agent.statsOf ref = stats ref where
  setHost _ _ same := same
  setScheduler _ same := same
  forgetHost owner name same ref := by
    rw [statsOf_modifyServer (fun server => { server with hosts := server.hosts.erase name })
      fun _ => rfl]
    exact same ref
  forgetServer _ same := same

theorem statsOf_of_bare (same : after.bare = before.bare) (ref : ServerRef) :
    after.statsOf ref = before.statsOf ref := by
  rw [statsOf, statsOf, server?, server?, servers_of_bare same]

theorem sameAddresses_of_bare (same : after.bare = before.bare) : before.SameAddresses after := by
  have timeout : after.bare.timeout = before.bare.timeout := congrArg Agent.timeout same
  exact .of_servers (servers_of_bare same) timeout

end Agent

/-! ### Submissions -/

/-- What happens until it is known what became of a contact. -/
def Surroundings.lull (surroundings : Surroundings) (contact : Contact) : List Intervention :=
  (surroundings.peer contact.server).lull contact.sent

/-- The outcome of a submission is what the server says to the bytes that it is sent, unless
they could not be sent whole. -/
def Contact.Gives (contact : Contact) (surroundings : Surroundings) (stream : Stream)
    (timeout : Duration) (outcome : Except Fault (Option Acknowledgement)) : Prop :=
  outcome = surroundings.saysTo contact.server (contact.sent.getD []) timeout ∨
    ∃ connection directory fault, surroundings.peer contact.server = .listening connection ∧
      (stream.deliver directory surroundings.tracing connection.room).outcome = .error fault ∧
      outcome = .error fault

/-- A world once it is known what became of a contact. -/
def World.Contacted (surroundings : Surroundings) (before after : World) (contact : Contact) : Prop :=
  ∃ dumps directory,
    after = { before with dumps, directory }.contact surroundings contact.server contact.sent

namespace World

variable {surroundings : Surroundings} {stream : Stream} {server : String} {timeout : Duration}

/-- Where a submission leaves the world before it is counted, and the contact made for it. -/
theorem submit_contacts (surroundings : Surroundings) (world : World) (owner : ServerRef)
    (stream : Stream) (timeout : Duration) :
    ∃ contact outcome after left,
      world.submit surroundings owner stream timeout = (outcome, after.noteSubmission owner outcome, left) ∧
      contact.server = world.agent.serverId owner ∧
      world.Contacted surroundings after contact ∧
      contact.Gives surroundings stream timeout outcome := by
  let server := world.agent.serverId owner
  rw [submit, send]
  cases connected : (surroundings.peer server).connect timeout with
  | error fault =>
      refine ⟨⟨server, none⟩, .error fault, _, stream, rfl, rfl, ⟨world.dumps, world.directory, rfl⟩, .inl ?_⟩
      rw [Surroundings.saysTo, Peer.reply, connected]
  | ok connection =>
      dsimp only
      have listening : surroundings.peer server = .listening connection :=
        Peer.listening_of_connect connected
      generalize delivered : stream.deliver world.directory surroundings.tracing connection.room = delivery
      refine ⟨⟨server, some delivery.sent⟩, _, _, delivery.stream, rfl, rfl, ⟨_, _, rfl⟩, ?_⟩
      cases ended : delivery.outcome with
      | error fault => exact .inr ⟨connection, _, fault, listening, by rw [delivered, ended], rfl⟩
      | ok length =>
          have written := Connection.write_sent (delivered ▸ ended)
          rw [delivered] at written
          refine .inl ?_
          rw [Surroundings.saysTo, Peer.reply, connected]
          dsimp only
          rewrite [Option.getD_some, written]
          rfl

variable {before after : World} {contact : Contact}

theorem Contacted.contacts (contacted : before.Contacted surroundings after contact) :
    after.contacts = before.contacts ++ [contact] := by
  obtain ⟨dumps, directory, rfl⟩ := contacted
  exact contacts_contact { before with dumps, directory } _ _

theorem Contacted.statsOf (contacted : before.Contacted surroundings after contact)
    (ref : ServerRef) : after.agent.statsOf ref = before.agent.statsOf ref := by
  obtain ⟨dumps, directory, rfl⟩ := contacted
  exact contact_keeps (Agent.kept_statsOf before.agent.statsOf) { before with dumps, directory }
    (fun _ => rfl) _ _ ref

/-- What others do while a server answers does not depend on the values of checks. -/
theorem Contacted.bare_eq (contacted : before.Contacted surroundings after contact)
    {start : World} (same : before.agent.bare = start.agent.bare) :
    after.agent.bare =
      ({ start with clock := before.clock }.interveneAll (surroundings.lull contact)).agent.bare := by
  obtain ⟨dumps, directory, rfl⟩ := contacted
  have alike : Alike ({ before with dumps, directory }.noteContact contact.server contact.sent)
      { start with clock := before.clock } := ⟨same, rfl⟩
  exact (alike.interveneAll (surroundings.lull contact)).agent

theorem agent_noteSubmission (world : World) (owner : ServerRef)
    (outcome : Except Fault (Option Acknowledgement)) :
    (world.noteSubmission owner outcome).agent = world.agent.modifyServer owner fun server =>
      { server with stats := server.stats.noteOutcome outcome world.clock } := rfl

theorem statsOf_noteSubmission (world : World) (owner other : ServerRef)
    (outcome : Except Fault (Option Acknowledgement)) :
    (world.noteSubmission owner outcome).agent.statsOf other =
      if owner = other then
        (world.agent.statsOf other).map fun stats => stats.noteOutcome outcome world.clock
      else world.agent.statsOf other := by
  rw [agent_noteSubmission, Agent.statsOf, Agent.server?_modifyServer, Agent.statsOf]
  split
  · rw [Option.map_map, Option.map_map]
    rfl
  · rfl

end World

/-! ### Rounds -/

namespace Round

variable {surroundings : Surroundings} {before world : World} {owner : ServerRef} {round : Round}

/-- A round that is submitted has collected something and met no fault. -/
structure Submits (round : Round) (clock : Instant) : Prop where
  faultless : round.fault = none
  collected : round.stream.resultCount ≠ 0
  completed : ∃ length, (round.stream.complete clock.seconds).1 = .ok length

/-- Nothing has become of a round. -/
structure Unsubmitted (before : World) (ending : Ending) : Prop where
  contacts : ending.world.contacts = before.contacts
  stats : ∀ ref, ending.world.agent.statsOf ref = before.agent.statsOf ref
  duties : before.agent.SameDuties ending.world.agent
  report : ∀ report, ending.outcome = .ok report → report.submitted = 0 ∧ report.ack = none

/-- A round is counted once for its server, by what came of its submission. -/
structure Submitted (surroundings : Surroundings) (before : World) (owner : ServerRef) (stream : Stream)
    (ending : Ending) (contact : Contact) : Prop where
  toOwner : contact.server = before.agent.serverId owner
  contacts : ending.world.contacts = before.contacts ++ [contact]
  gives : contact.Gives surroundings stream before.agent.timeout (ending.outcome.map (·.ack))
  stats : ∀ totals, before.agent.statsOf owner = some totals → ∃ after,
    ending.world.agent.statsOf owner = some after ∧
      totals.Counts after (ending.outcome.map (·.ack))
  others : ∀ other, other ≠ owner → ending.world.agent.statsOf other = before.agent.statsOf other
  /-- Nothing has changed but by what others did meanwhile. -/
  duties : ∃ clock, ({ before with clock }.interveneAll (surroundings.lull contact)).agent.SameDuties
    ending.world.agent
  undisturbed : (∀ intervention ∈ surroundings.lull contact, ∃ now, intervention = .setClock now) →
    before.agent.SameDuties ending.world.agent

/-- A round whose work is done comes to an end. -/
structure Accounted (surroundings : Surroundings) (before : World) (owner : ServerRef)
    (worked : World × Round) : Prop where
  closed : (worked.2.finish surroundings worked.1).stream.isOpen = false
  /-- The file of the round is gone, and nothing else. -/
  files : (worked.2.finish surroundings worked.1).world.directory =
    worked.2.stream.release before.directory
  unsubmitted : ¬worked.2.Submits worked.1.clock →
    Unsubmitted before (worked.2.finish surroundings worked.1)
  submitted : worked.2.Submits worked.1.clock → ∃ contact,
    Submitted surroundings before owner (worked.2.stream.complete worked.1.clock.seconds).2
      (worked.2.finish surroundings worked.1) contact

/-- A round ends by closing its stream, and only one that is submitted does anything else. -/
theorem finish_cases (surroundings : Surroundings) (world : World) (round : Round) :
    ∃ outcome after stream, round.finish surroundings world = .closing outcome after stream ∧
      stream.release after.directory = round.stream.release world.directory ∧
      ((¬round.Submits world.clock ∧ after = world ∧
          ∀ report, outcome = .ok report → report.submitted = 0 ∧ report.ack = none) ∨
        (round.Submits world.clock ∧
          world.submit surroundings round.server (round.stream.complete world.clock.seconds).2
            world.agent.timeout = (outcome.map (·.ack), after, stream))) := by
  unfold finish
  split
  · next fault faulty =>
      refine ⟨_, world, round.stream, rfl, rfl, .inl ⟨fun submits => ?_, rfl, fun _ same => nomatch same⟩⟩
      cases submits.faultless.symm.trans faulty
  · next faultless =>
      split
      · next nothing =>
          refine ⟨_, world, round.stream, rfl, rfl, .inl ⟨fun submits => ?_, rfl, fun report same => ?_⟩⟩
          · exact submits.collected nothing
          · cases same
            exact ⟨nothing, rfl⟩
      · next collected =>
          have file := round.stream.file?_complete world.clock.seconds
          split
          · next fault stream completed =>
              rw [completed] at file
              refine ⟨_, world, stream, rfl, congrArg world.directory.without file,
                .inl ⟨fun submits => ?_, rfl, fun _ same => nomatch same⟩⟩
              obtain ⟨length, done⟩ := submits.completed
              rw [completed] at done
              cases done
          · next length stream completed =>
              have submits : round.Submits world.clock :=
                ⟨faultless, collected, length, congrArg Prod.fst completed⟩
              rw [completed] at file ⊢
              have released := (world.release_submit surroundings round.server stream
                world.agent.timeout).trans (congrArg world.directory.without file)
              split <;> next submitted =>
                rw [submitted] at released
                exact ⟨_, _, _, rfl, released, .inr ⟨submits, submitted⟩⟩

theorem finish_of_submits (surroundings : Surroundings) (submits : round.Submits world.clock) :
    ∃ contact after directory,
      contact.server = world.agent.serverId round.server ∧
      world.Contacted surroundings after contact ∧
      contact.Gives surroundings (round.stream.complete world.clock.seconds).2 world.agent.timeout
        ((round.finish surroundings world).outcome.map (·.ack)) ∧
      (round.finish surroundings world).world =
        { after.noteSubmission round.server
            ((round.finish surroundings world).outcome.map (·.ack)) with directory } := by
  obtain ⟨outcome, ended, stream, closed, _, ⟨submitsNot, _⟩ | ⟨_, submitted⟩⟩ :=
    finish_cases surroundings world round
  · exact absurd submits submitsNot
  · obtain ⟨contact, given, after, left, done, toServer, contacted, gives⟩ :=
      world.submit_contacts surroundings round.server (round.stream.complete world.clock.seconds).2
        world.agent.timeout
    rw [submitted] at done
    cases done
    rw [closed]
    exact ⟨contact, after, _, toServer, contacted, gives, rfl⟩

theorem unsubmitted_of_bare (same : world.agent.bare = before.agent.bare)
    (contacts : world.contacts = before.contacts) (submitsNot : ¬round.Submits world.clock) :
    Unsubmitted before (round.finish surroundings world) := by
  obtain ⟨outcome, ended, stream, closed, _, ⟨_, rfl, report⟩ | ⟨submits, _⟩⟩ :=
    finish_cases surroundings world round
  · rw [closed]
    constructor
    case contacts => exact contacts
    case stats => exact Agent.statsOf_of_bare same
    case duties => exact .of_bare same
    case report => exact report
  · exact absurd submits submitsNot

theorem submitted_of_bare (same : world.agent.bare = before.agent.bare)
    (contacts : world.contacts = before.contacts) (submits : round.Submits world.clock) :
    ∃ contact, Submitted surroundings before round.server
      (round.stream.complete world.clock.seconds).2 (round.finish surroundings world) contact := by
  have addresses := Agent.sameAddresses_of_bare same
  obtain ⟨contact, after, directory, toServer, contacted, gives, noted⟩ :=
    finish_of_submits surroundings submits
  refine ⟨contact, ?_⟩
  generalize round.finish surroundings world = ending at noted gives ⊢
  have duties : ({ before with clock := world.clock }.interveneAll
      (surroundings.lull contact)).agent.SameDuties ending.world.agent := by
    rw [noted, World.agent_noteSubmission]
    exact (Agent.SameDuties.of_bare (contacted.bare_eq same)).trans
      (after.agent.sameDuties_setStats round.server fun stats =>
        stats.noteOutcome (ending.outcome.map (·.ack)) after.clock)
  constructor
  case toOwner => rw [toServer, addresses.serverId]
  case contacts =>
    rw [noted, ← contacts]
    exact contacted.contacts
  case gives => rwa [addresses.timeout] at gives
  case stats =>
    intro totals found
    rw [noted, World.statsOf_noteSubmission, if_pos rfl, contacted.statsOf,
      Agent.statsOf_of_bare same, found]
    exact ⟨_, rfl, totals.counts_noteOutcome _ after.clock⟩
  case others =>
    intro other different
    rw [noted, World.statsOf_noteSubmission, if_neg different.symm, contacted.statsOf,
      Agent.statsOf_of_bare same]
  case duties => exact ⟨world.clock, duties⟩
  case undisturbed =>
    intro idle
    obtain ⟨clock, waited⟩ := { before with clock := world.clock }.interveneAll_clock idle
    rwa [waited] at duties

/-- A round is accounted for if nothing but values has changed while its work was done. -/
theorem accounted_of_bare (same : world.agent.bare = before.agent.bare)
    (contacts : world.contacts = before.contacts) (round : Round)
    (files : round.stream.release world.directory = round.stream.release before.directory) :
    Accounted surroundings before round.server (world, round) := by
  obtain ⟨outcome, after, stream, closed, released, _⟩ := finish_cases surroundings world round
  constructor
  case closed => rw [closed]; rfl
  case files => rw [closed]; exact released.trans files
  case unsubmitted => exact unsubmitted_of_bare same contacts
  case submitted => exact submitted_of_bare same contacts

end Round

/-! ### Work -/

namespace Crew

variable {surroundings : Surroundings} {crew : Crew} {world : World} {round : Round}

/-- The units of a round leave values and records behind, whoever has a turn when. -/
theorem intact_takeTurns (onlyTime : surroundings.OnlyTakesTime) (crew : Crew) (turns : List Nat) :
    crew.collecting.Intact (crew.takeTurns surroundings turns).collecting :=
  takeTurns_keeps (motive := crew.collecting.Intact)
    (fun delay step between same => same.trans (Worker.intact_perform onlyTime delay between step))
    (.refl crew.collecting) turns

/-- What is counted changes neither whom a round is for nor what it has collected. -/
theorem foldl_count_alone (outcomes : List (Except Stop Tally)) (round : Round) :
    (outcomes.foldl Round.count round).server = round.server ∧
      (outcomes.foldl Round.count round).stream = round.stream := by
  induction outcomes generalizing round with
  | nil => exact ⟨rfl, rfl⟩
  | cons outcome rest ih =>
      rw [List.foldl_cons, (ih _).1, (ih _).2, stream_count]
      cases outcome with
      | ok tally => exact ⟨rfl, rfl⟩
      | error stop => cases stop <;> exact ⟨rfl, rfl⟩

theorem conclude_alone (crew : Crew) (round : Round) :
    (crew.conclude round).2.server = round.server ∧
      (crew.conclude round).2.stream = crew.collecting.stream :=
  foldl_count_alone _ _

/-- A round that is done in a directory is accounted for as if its file had never been there. -/
theorem accounted (onlyTime : surroundings.OnlyTakesTime) (world : World) (directory : Directory)
    (round : Round) (files : round.stream.release directory = round.stream.release world.directory)
    (turns : List Nat) :
    let worked := ((ofRound { world with directory } round).takeTurns surroundings turns).conclude round
    Round.Accounted surroundings world round.server worked ∧
      worked.2.stream.file? = round.stream.file? := by
  intro worked
  let begun := ofRound { world with directory } round
  have intact : begun.collecting.Intact (begun.takeTurns surroundings turns).collecting :=
    intact_takeTurns onlyTime begun turns
  obtain ⟨server, stream⟩ := conclude_alone (begun.takeTurns surroundings turns) round
  have file : worked.2.stream.file? = round.stream.file? :=
    (congrArg Stream.file? stream).trans intact.file
  have gone : worked.2.stream.release worked.1.directory = worked.2.stream.release world.directory := by
    rw [Stream.release, Stream.release, file]
    exact (congrArg (·.without round.stream.file?) intact.directory).trans files
  have bare : worked.1.agent.bare = world.agent.bare := intact.bare
  have contacts : worked.1.contacts = world.contacts := intact.contacts
  have accounted : Round.Accounted surroundings world worked.2.server worked :=
    Round.accounted_of_bare bare contacts worked.2 gone
  rw [server] at accounted
  exact ⟨accounted, file⟩

end Crew

namespace Round

variable {surroundings : Surroundings}

/-- Work on a round touches no file, whatever happens meanwhile. -/
theorem sameFiles_work (surroundings : Surroundings) (world : World) (round : Round) :
    (round.work surroundings world).1.directory = world.directory ∧
      (round.work surroundings world).2.stream.file? = round.stream.file? := by
  let begun := Crew.ofRound world round
  obtain ⟨turns, _, _, worked⟩ : ∃ turns, _ ∧ _ ∧ _ = round.work surroundings world :=
    Crew.exists_turns_work world round
  have same : begun.collecting.SameFiles (begun.takeTurns surroundings turns).collecting :=
    Crew.takeTurns_keeps (motive := begun.collecting.SameFiles)
      (fun delay step between same => same.trans (Worker.sameFiles_perform delay between step))
      (.refl begun.collecting) turns
  rw [← worked]
  exact ⟨same.directory, (congrArg _ (Crew.conclude_alone _ round).2).trans same.file⟩

/-- However a round ends, it is accounted for.  One that cannot be opened changes nothing; one
that ends before it is submitted leaves all totals as they are, and nobody is contacted; any
other one is counted once for its server, failed or with the numbers of the acknowledgement.
No file is left of it.  The same holds if the units of the round take turns, and if they have
met faults before. -/
theorem accounts_once (onlyTime : surroundings.OnlyTakesTime) (world : World) (owner : ServerRef)
    (delay : Nat) :
    (∀ fault, start surroundings world owner delay = .error fault →
      run surroundings world owner delay = (.error fault, world)) ∧
    (∀ round opened, start surroundings world owner delay = .ok (round, opened) →
      let worked := round.work surroundings opened
      let ending := worked.2.finish surroundings worked.1
      run surroundings world owner delay = (ending.outcome, ending.world) ∧
        ending.world.directory = world.directory ∧
        Accounted surroundings world owner worked) ∧
    ∀ (round : Round) (turns : List Nat), round.server = owner →
      Accounted surroundings world owner
        (((Crew.ofRound world round).takeTurns surroundings turns).conclude round) := by
  refine ⟨?_, ?_, ?_⟩
  · intro fault failed
    rw [run, failed]
  · intro round opened started
    have starts := starts_of_start started
    obtain ⟨directory, rfl⟩ := starts.changes
    let begun : World := { world with directory }
    obtain ⟨turns, _, _, worked⟩ : ∃ turns, _ ∧ _ ∧ _ = round.work surroundings begun :=
      Crew.exists_turns_work begun round
    have gone : round.stream.release directory = world.directory := starts.directory
    have absent : round.stream.release world.directory = world.directory := by
      rw [← gone, Stream.release, Stream.release, Directory.without_without]
    obtain ⟨accounted, file⟩ :=
      Crew.accounted onlyTime world directory round (gone.trans absent.symm) turns
    rw [worked, starts.server] at accounted
    rw [worked] at file
    refine ⟨by rw [run, started], ?_, accounted⟩
    rw [accounted.files, Stream.release, file]
    exact absent
  · rintro round turns rfl
    exact (Crew.accounted onlyTime world world.directory round rfl turns).1

/-- The server takes the first of two checks and does not take the second. -/
theorem accounts_once_for_acknowledged :
    let ordered := ((Agent.empty {}).perform
      (.registerServer { address := "a", hosts := [{ name := "h" }] })).perform
        (.applyOrders 0 [{ key := "k", delay := 60 }, { key := "l", delay := 60 }] default)
    let surroundings : Surroundings :=
      { execute := fun _ _ => { meanwhile := [.setClock default], outcome := .value "1" }
        peer := fun _ => .listening
          { answer := fun _ =>
              { reply := some (Frame.encode (Json.writeObject
                  [("response", Json.writeString "success"),
                    ("info", Json.writeString "processed: 1; failed: 1; total: 2; seconds spent: 0")])) } }
        tracing := false
        newFile := fun _ directory => .ok { name := directory.spareName } }
    let world : World := { agent := ordered, clock := default }
    ∃ round opened worked, start surroundings world 0 60 = .ok (round, opened) ∧
      worked = round.work surroundings opened ∧
      Accounted surroundings world 0 worked ∧
      ((run surroundings world 0 60).2.agent.statsOf 0).map
        (fun stats => (stats.rounds, stats.failedRounds, stats.processed, stats.failed, stats.total)) =
          some (1, 0, 1, 1, 2) := by
  intro ordered surroundings world
  have onlyTime : surroundings.OnlyTakesTime := by
    intro host check intervention inside
    exact ⟨default, List.mem_singleton.mp inside⟩
  have directory : surroundings.HasDirectory world.agent.settings :=
    Surroundings.hasDirectory_of_spareName _ fun _ _ => rfl
  obtain ⟨round, opened, started⟩ := exists_start directory 0 60
  obtain ⟨_, _, accounted⟩ := (accounts_once onlyTime world 0 60).2.1 round opened started
  exact ⟨round, opened, _, started, rfl, accounted, by decide +kernel⟩

/-- A file that takes ten bytes turns out to be full when the frame is to be sent: nothing is sent,
and the file is gone. -/
example :
    let ordered := ((Agent.empty { collation := .disk }).perform
      (.registerServer { address := "a", hosts := [{ name := "h" }] })).perform
        (.applyOrders 0 [{ key := "k", delay := 60 }] default)
    let surroundings : Surroundings :=
      { execute := fun _ _ => { outcome := .value "1" }
        peer := fun _ => .listening { answer := fun _ => { reply := none } }
        tracing := false
        newFile := fun _ directory => .ok { name := directory.spareName, room := { limit := some 10 } } }
    let ended := run surroundings { agent := ordered, clock := default } 0 60
    ended.1 = .error (.collation .writerFull) ∧ ended.2.directory = .empty ∧
      ended.2.contacts.map (·.sent) = [some []] ∧
      (ended.2.agent.statsOf 0).map (·.failedRounds) = some 1 := by
  decide +kernel

end Round

/-! ### Dispatches -/

namespace Dispatch

variable {surroundings : Surroundings}

/-- What is left of a directory once the streams of some rounds are closed. -/
def release (rounds : List Round) (directory : Directory) : Directory :=
  (rounds.map (·.stream.file?)).foldl Directory.without directory

/-- The files of rounds that were opened are all that is new. -/
theorem release_openEach (surroundings : Surroundings) (world : World) (delay : Nat)
    (owners : List ServerRef) :
    release (openEach surroundings world delay owners).1
      (openEach surroundings world delay owners).2.directory = world.directory := by
  induction owners generalizing world with
  | nil => rfl
  | cons owner rest ih =>
      rw [openEach]
      split
      · exact ih world
      · next round opened started =>
          have starts := Round.starts_of_start started
          dsimp only
          rw [release, List.map_cons, List.foldl_cons, Directory.foldl_without_comm]
          exact (congrArg (·.without round.stream.file?) (ih opened)).trans starts.directory

theorem sameFiles_work (surroundings : Surroundings) (world : World) (rounds : List Round) :
    (work surroundings world rounds).1.directory = world.directory ∧
      (work surroundings world rounds).2.map (·.stream.file?) = rounds.map (·.stream.file?) := by
  induction rounds generalizing world with
  | nil => exact ⟨rfl, rfl⟩
  | cons round rest ih =>
      obtain ⟨directory, file⟩ := round.sameFiles_work surroundings world
      obtain ⟨directories, files⟩ := ih (round.work surroundings world).1
      refine ⟨directories.trans directory, ?_⟩
      rw [work, List.map_cons, List.map_cons, files, file]

theorem directory_finish (surroundings : Surroundings) (world : World) (rounds : List Round) :
    (finish surroundings world rounds).2.directory = release rounds world.directory := by
  induction rounds generalizing world with
  | nil => rfl
  | cons round rest ih =>
      obtain ⟨outcome, after, stream, closed, released, _⟩ :=
        Round.finish_cases surroundings world round
      rw [finish, closed]
      exact (ih _).trans (congrArg (release rest) released)

/-- Whatever becomes of the rounds of a dispatch, and whatever happens to the agent meanwhile: no
file is left, and no other file is gone. -/
theorem directory_run (surroundings : Surroundings) (world : World) (delay : Nat) :
    (run surroundings world delay).2.directory = world.directory := by
  let opened := start surroundings world delay
  let worked := work surroundings opened.2 opened.1
  obtain ⟨directory, files⟩ := sameFiles_work surroundings opened.2 opened.1
  calc (run surroundings world delay).2.directory
      = release worked.2 worked.1.directory := directory_finish surroundings worked.1 worked.2
    _ = release opened.1 opened.2.directory := by rw [release, files, directory]; rfl
    _ = world.directory := release_openEach surroundings world delay (world.agent.dueServers delay)

end Dispatch

end CheckRounds
