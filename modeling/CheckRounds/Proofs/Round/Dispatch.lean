import CheckRounds.Proofs.Exchange
import CheckRounds.Proofs.Round.Collection

namespace CheckRounds

/-! What a dispatch amounts to.

Every server that has something due at the delay is sent one frame, of everything that it
has due, and nobody else is contacted.  A round is reported if its frame is acknowledged.
-/

/-- What a server is sent at the end of a round. -/
structure Consignment where
  owner : ServerRef
  records : List Record
  clock : Int

namespace Consignment

def payload (consignment : Consignment) : List UInt8 :=
  Submission.payload consignment.records consignment.clock

def frame (consignment : Consignment) : List UInt8 := Frame.encode consignment.payload

def contact (agent : Agent) (consignment : Consignment) : Contact :=
  ⟨agent.serverId consignment.owner, some consignment.frame⟩

/-- What the server says to the frame. -/
def answer (surroundings : Surroundings) (agent : Agent) (consignment : Consignment) :
    Except Fault (Option Acknowledgement) :=
  surroundings.saysTo (agent.serverId consignment.owner) consignment.frame agent.timeout

/-- The report on a round that was acknowledged. -/
def report (surroundings : Surroundings) (agent : Agent) (delay : Nat) (consignment : Consignment)
    (ack : Option Acknowledgement) : Report :=
  let due := agent.assigned consignment.owner delay
  { server := agent.serverId consignment.owner
    delay
    units := (agent.settings.policy.plan agent consignment.owner delay).length
    tally := surroundings.tallyOf agent due
    submitted := due.length
    ack }

theorem body?_contact {consignment : Consignment}
    (fits : consignment.payload.length ≤ Frame.payloadLimit) (agent : Agent) :
    (consignment.contact agent).body? = some consignment.payload := by
  have alone : Frame.read (consignment.frame ++ []) = (.ok consignment.payload, []) :=
    Frame.read_encode_append fits
  rw [List.append_nil] at alone
  rw [Contact.body?, contact, Option.bind_some, alone]
  rfl

end Consignment

namespace Round

variable {surroundings : Surroundings} {start world : World} {owner : ServerRef} {delay : Nat}
  {round : Round}

theorem Worked.finish (worked : Worked surroundings start.agent delay owner round)
    (due : start.agent.assigned owner delay ≠ [])
    (accepts : surroundings.Accepts (start.agent.serverId owner))
    (addresses : start.agent.SameAddresses world.agent) :
    ∃ consignment : Consignment, consignment.owner = owner ∧
      surroundings.Tells start.agent (start.agent.assigned owner delay) consignment.records ∧
      (round.finish surroundings world).world.contacts =
        world.contacts ++ [consignment.contact start.agent] ∧
      start.agent.SameAddresses (round.finish surroundings world).world.agent ∧
      (round.finish surroundings world).outcome =
        (consignment.answer surroundings start.agent).map
          (consignment.report surroundings start.agent delay) := by
  obtain ⟨records, tells, collects⟩ := worked.collected
  obtain ⟨stream, completed, holds⟩ := collects.complete world.clock.seconds
  let consignment : Consignment := ⟨owner, records, world.clock.seconds⟩
  have submitted : round.stream.resultCount = (start.agent.assigned owner delay).length :=
    collects.counted.trans tells.length_eq.symm
  have some_submitted : round.stream.resultCount ≠ 0 := by
    rw [submitted]
    exact fun none => due (List.length_eq_zero_iff.mp none)
  have id : world.agent.serverId owner = start.agent.serverId owner := addresses.serverId owner
  obtain ⟨after, left, sent, contacts, moved⟩ :=
    world.submit_of_holds surroundings owner world.agent.timeout holds
  have addressesAfter := addresses.trans moved
  have said : surroundings.saysTo (world.agent.serverId owner)
      (Frame.encode (Submission.payload records world.clock.seconds)) world.agent.timeout =
        consignment.answer surroundings start.agent := by
    rw [id, addresses.timeout]
    rfl
  have reported : ∀ ack, round.reportOf after ack =
      consignment.report surroundings start.agent delay ack := by
    intro ack
    rw [Round.reportOf, worked.server, worked.delay, worked.unitCount, worked.tally, submitted,
      addressesAfter.serverId]
    rfl
  rw [said] at sent
  rw [id, Surroundings.sent_of_accepts accepts] at contacts
  refine ⟨consignment, rfl, tells, ?_⟩
  unfold Round.finish
  rw [worked.fault, if_neg some_submitted, completed, worked.server]
  dsimp only
  rw [sent]
  cases answer : consignment.answer surroundings start.agent with
  | error fault => exact ⟨contacts, addressesAfter, rfl⟩
  | ok ack => exact ⟨contacts, addressesAfter, congrArg Except.ok (reported ack)⟩

end Round

namespace Dispatch

variable {surroundings : Surroundings} {start world : World} {delay : Nat}

theorem finish_eq {owners : List ServerRef} {rounds : List Round}
    (worked : List.Forall₂ (Round.Worked surroundings start.agent delay) owners rounds)
    (due : ∀ owner ∈ owners, start.agent.assigned owner delay ≠ [])
    (accepts : ∀ owner ∈ owners, surroundings.Accepts (start.agent.serverId owner))
    (addresses : start.agent.SameAddresses world.agent) :
    ∃ consignments : List Consignment, consignments.map (·.owner) = owners ∧
      (∀ consignment ∈ consignments, surroundings.Tells start.agent
        (start.agent.assigned consignment.owner delay) consignment.records) ∧
      (Dispatch.finish surroundings world rounds).2.contacts =
        world.contacts ++ consignments.map (Consignment.contact start.agent) ∧
      (Dispatch.finish surroundings world rounds).1 = consignments.filterMap fun consignment =>
        ((consignment.answer surroundings start.agent).map
          (consignment.report surroundings start.agent delay)).toOption := by
  induction worked generalizing world with
  | nil => exact ⟨[], rfl, by simp, (List.append_nil _).symm, rfl⟩
  | @cons owner round owners rounds worked _ ih =>
      obtain ⟨first, rfl, tells, contacts, addressesNext, outcome⟩ :=
        worked.finish (due owner List.mem_cons_self) (accepts owner List.mem_cons_self) addresses
      obtain ⟨rest, restOwners, restTells, restContacts, restReports⟩ :=
        ih (fun other inside => due other (List.mem_cons_of_mem _ inside))
          (fun other inside => accepts other (List.mem_cons_of_mem _ inside)) addressesNext
      refine ⟨first :: rest, ?_, ?_, ?_, ?_⟩
      · rw [List.map_cons, restOwners]
      · intro consignment inside
        rcases List.mem_cons.mp inside with rfl | inside
        · exact tells
        · exact restTells consignment inside
      · rw [Dispatch.finish]
        dsimp only
        rw [restContacts, contacts, List.map_cons, List.append_assoc]
        rfl
      · rw [Dispatch.finish]
        dsimp only
        rw [restReports, outcome, List.filterMap_cons]
        cases (first.answer surroundings start.agent).map _ <;> rfl

theorem reports_of_acknowledged {agent : Agent} {consignments : List Consignment}
    (acknowledged : ∀ consignment ∈ consignments,
      ∃ ack, consignment.answer surroundings agent = .ok ack) :
    List.Forall₂
      (fun consignment report => ∃ ack, consignment.answer surroundings agent = .ok ack ∧
        report = consignment.report surroundings agent delay ack)
      consignments
      (consignments.filterMap fun consignment =>
        ((consignment.answer surroundings agent).map
          (consignment.report surroundings agent delay)).toOption) := by
  induction consignments with
  | nil => exact .nil
  | cons first rest ih =>
      obtain ⟨ack, said⟩ := acknowledged first List.mem_cons_self
      rw [List.filterMap_cons, said]
      exact .cons ⟨ack, said, rfl⟩ (ih fun other inside => acknowledged other (List.mem_cons_of_mem _ inside))

/-- What a dispatch sends, to whom, and what it reports. -/
structure Delivers (surroundings : Surroundings) (world : World) (delay : Nat)
    (consignments : List Consignment) : Prop where
  /-- There is one consignment for every registered server that has something due. -/
  owners : consignments.map (·.owner) =
    world.agent.serverRefs.filter fun owner => world.agent.assigned owner delay ≠ []
  apart : (consignments.map fun consignment => world.agent.serverId consignment.owner).Nodup
  /-- No check is due twice. -/
  assigned : ∀ consignment ∈ consignments, (world.agent.assigned consignment.owner delay).Nodup
  tells : ∀ consignment ∈ consignments, surroundings.Tells world.agent
    (world.agent.assigned consignment.owner delay) consignment.records
  /-- The server reads the payload, unless it is longer than any server reads. -/
  read : ∀ consignment ∈ consignments, consignment.payload.length ≤ Frame.payloadLimit →
    (consignment.contact world.agent).body? = some consignment.payload
  spelled : ∀ consignment ∈ consignments, Json.Tree.parse? consignment.payload =
    some (Submission.tree consignment.records consignment.clock)
  contacts : (run surroundings world delay).2.contacts =
    world.contacts ++ consignments.map (Consignment.contact world.agent)
  reports : (∀ consignment ∈ consignments, ∃ ack, consignment.answer surroundings world.agent = .ok ack) →
    List.Forall₂
      (fun consignment report => ∃ ack, consignment.answer surroundings world.agent = .ok ack ∧
        report = consignment.report surroundings world.agent delay ack)
      consignments (run surroundings world delay).1

/-- Whatever state an agent is in, and however its work is divided and collected: a
dispatch connects to the servers that have something due, once to each, and sends them what
they have due in one frame. -/
theorem delivers (reachable : world.agent.Reachable) (harmless : surroundings.Harmless)
    (directory : surroundings.HasDirectory world.agent.settings)
    (accepts : ∀ owner ∈ world.agent.serverRefs, surroundings.Accepts (world.agent.serverId owner))
    (delay : Nat) : ∃ consignments, Delivers surroundings world delay consignments := by
  have sound := reachable.sound
  have named : ∀ owner ∈ world.agent.dueServers delay,
      ∃ id, world.agent.serverNamed? id = some owner := by
    intro owner inside
    obtain ⟨server, _, named⟩ := sound.mem_serverRefs_iff.mp (sound.mem_dueServers_iff.mp inside).1
    exact ⟨server.id, named⟩
  have apart := sound.apart_assigned ((sound.dueServerIds_nodup delay).of_map _) delay
  obtain ⟨left, same, opened⟩ : ∃ left, (Dispatch.start surroundings world delay).2 =
        { world with directory := left } ∧
      List.Forall₂ (Round.Opened world.agent delay) (world.agent.dueServers delay)
        (Dispatch.start surroundings world delay).1 :=
    openEach_of_directory directory delay (world.agent.dueServers delay) world.directory
  let begun : World := { world with directory := left }
  have fresh : world.Executed [] begun := { world.executed_refl with }
  obtain ⟨middle, rounds, workDone, executed, worked⟩ :=
    work_eq harmless sound opened named fresh apart
  -- what happens while servers answer comes when all checks are executed, so only the
  -- addresses of the servers have to last
  obtain ⟨consignments, sameOwners, tells, contacts, reports⟩ := finish_eq worked
    (fun _ inside => (sound.mem_dueServers_iff.mp inside).2)
    (fun owner inside => accepts owner (sound.mem_dueServers_iff.mp inside).1)
    (.of_servers executed.servers executed.timeout)
  have done : run surroundings world delay = Dispatch.finish surroundings middle rounds := by
    have started : Dispatch.start surroundings world delay =
        ((Dispatch.start surroundings world delay).1, begun) := Prod.ext rfl same
    rw [run, started]
    dsimp only
    rw [workDone]
  refine ⟨consignments, ?_⟩
  constructor
  case owners => exact sameOwners.trans sound.dueServers_eq
  case apart =>
    have idsApart := sound.dueServerIds_nodup delay
    rwa [← sameOwners, List.map_map] at idsApart
  case assigned => exact fun _ _ => sound.assigned_nodup
  case tells => exact tells
  case read => exact fun _ _ fits => Consignment.body?_contact fits world.agent
  case spelled => exact fun _ _ => Submission.parse?_payload _ _
  case contacts => rw [done, contacts, executed.contacts]
  case reports =>
    intro acknowledged
    rw [done, reports]
    exact reports_of_acknowledged acknowledged

theorem delivers_value_and_failure :
    let ordered := ((Agent.empty {}).perform
      (.registerServer { address := "a", hosts := [{ name := "h" }] })).perform
        (.applyOrders 0 [{ key := "k", delay := 60 }, { key := "l", delay := 60 }] default)
    let surroundings : Surroundings :=
      { execute := fun _ check =>
          { outcome := if check.key = "k" then .value "1" else .failure ["outer", "inner"] }
        peer := fun _ => .listening
          { answer := fun _ =>
              { reply := some
                  (Frame.encode (Json.writeObject [("response", Json.writeString "success")])) } }
        tracing := false
        newFile := fun _ directory => .ok { name := directory.spareName } }
    let world : World := { agent := ordered, clock := default }
    (∃ consignments, Delivers surroundings world 60 consignments) ∧
      (run surroundings world 60).1.map (·.tally) = [⟨2, 1⟩] := by
  intro ordered surroundings world
  have created : Agent.create { servers := [] } = .ok (Agent.empty {}) := rfl
  have reachable : ordered.Reachable := .perform (.perform (.create created) _) _
  refine ⟨delivers reachable ?_ (Surroundings.hasDirectory_of_spareName _ fun _ _ => rfl) ?_ 60, ?_⟩
  · constructor
    · intro host check
      dsimp only [surroundings]
      split <;> simp
    · intro host check intervention inside
      contradiction
  · exact fun _ _ => ⟨_, rfl, rfl⟩
  · decide +kernel

end Dispatch

end CheckRounds
