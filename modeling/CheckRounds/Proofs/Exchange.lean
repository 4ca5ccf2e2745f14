import CheckRounds.Exchange
import CheckRounds.Proofs.Collation.Streams
import CheckRounds.Proofs.Intervention

namespace CheckRounds

/-! What a submission does.

A server that can be connected to is sent the frame of the stream, whole and once.
Whatever happens to the agent until the reply is there, servers are addressed as before,
and nobody else is contacted.
-/

open Collation (Directory Stream)

/-! ### Addresses -/

/-- How servers are addressed, and how long they are waited for, is as before. -/
structure Agent.SameAddresses (before after : Agent) : Prop where
  serverId : ∀ ref, after.serverId ref = before.serverId ref
  timeout : after.timeout = before.timeout

namespace Agent

variable {agent before middle after : Agent} {ref : HostRef} {owner : ServerRef}

theorem SameAddresses.refl (agent : Agent) : agent.SameAddresses agent := ⟨fun _ => rfl, rfl⟩

theorem SameAddresses.trans (first : before.SameAddresses middle)
    (second : middle.SameAddresses after) : before.SameAddresses after :=
  ⟨fun ref => (second.serverId ref).trans (first.serverId ref), second.timeout.trans first.timeout⟩

theorem SameAddresses.of_servers (servers : after.servers = before.servers)
    (timeout : after.timeout = before.timeout) : before.SameAddresses after := by
  refine ⟨fun ref => ?_, timeout⟩
  rw [Agent.serverId, Agent.serverId, server, server, server?, server?, servers]

theorem sameAddresses_modifyServer {change : Server → Server}
    (sameId : ∀ server, (change server).id = server.id) :
    agent.SameAddresses (agent.modifyServer owner change) := by
  refine ⟨fun other => ?_, rfl⟩
  rw [serverId, serverId, server, server, server?_modifyServer]
  split
  · cases agent.server? other with
    | none => rfl
    | some server => exact sameId server
  · rfl

/-- Nothing that can happen to an agent gives a server another address. -/
theorem kept_sameAddresses (agent : Agent) : Kept agent.SameAddresses where
  setHost _ _ same := same.trans (.of_servers rfl rfl)
  setScheduler _ same := same.trans (.of_servers rfl rfl)
  forgetHost _ _ same := same.trans (sameAddresses_modifyServer fun _ => rfl)
  forgetServer _ same := same.trans (.of_servers rfl rfl)

end Agent

namespace World

variable {world : World}

/-- Whom the agent has contacted, and what is in the directory, is not up to others. -/
theorem intervene_alone (intervention : Intervention) :
    (world.intervene intervention).contacts = world.contacts ∧
      (world.intervene intervention).directory = world.directory := by
  cases intervention with
  | unregisterHost server host =>
      unfold intervene
      dsimp only
      split <;> exact ⟨rfl, rfl⟩
  | applyOrders server host orders =>
      unfold intervene
      dsimp only
      split <;> exact ⟨rfl, rfl⟩
  | _ => exact ⟨rfl, rfl⟩

theorem contacts_interveneAll (interventions : List Intervention) :
    (world.interveneAll interventions).contacts = world.contacts :=
  interveneAll_induct interventions (motive := fun after => after.contacts = world.contacts)
    (fun intervention same => (intervene_alone intervention).1.trans same) rfl

theorem directory_interveneAll (interventions : List Intervention) :
    (world.interveneAll interventions).directory = world.directory :=
  interveneAll_induct interventions (motive := fun after => after.directory = world.directory)
    (fun intervention same => (intervene_alone intervention).2.trans same) rfl

end World

/-! ### Connections -/

theorem Peer.listening_of_connect {peer : Peer} {timeout : Duration} {connection : Connection}
    (connected : peer.connect timeout = .ok connection) : peer = .listening connection := by
  unfold connect at connected
  split at connected <;> cases connected
  rfl

/-- A fault of a connection says nothing about a host. -/
theorem Connection.afterFault_of_write {connection : Connection} {bytes sent : List UInt8}
    {fault : Fault} (failed : connection.write bytes = (sent, .error fault)) :
    HostState.afterFault fault = .refreshFailed := by
  unfold write at failed
  split at failed <;> cases failed
  rfl

theorem Connection.write_of_unlimited {connection : Connection} (unlimited : connection.room.limit = none)
    (bytes : List UInt8) : connection.write bytes = (bytes, .ok ()) := by
  rw [write, Room.put, unlimited]

/-- The bytes of a frame that was delivered could as well have been written as they are. -/
theorem Connection.write_sent {connection : Connection} {stream : Stream} {directory : Directory}
    {tracing : Bool} {length : Nat}
    (done : (stream.deliver directory tracing connection.room).outcome = .ok length) :
    connection.write (stream.deliver directory tracing connection.room).sent =
      ((stream.deliver directory tracing connection.room).sent, .ok ()) := by
  unfold Stream.deliver at done ⊢
  split at done
  · contradiction
  · next frame closed _ =>
      simp only [Collation.Parcel.send_pack] at done ⊢
      split at done
      · next sent => rw [write, Stream.Delivery.sent, Array.toArray_toList, frame.put_sent sent]
      · contradiction

namespace Surroundings

/-- What a server says to bytes, if they are sent to it whole and it says anything in time. -/
def saysTo (surroundings : Surroundings) (server : String) (bytes : List UInt8) (timeout : Duration) :
    Except Fault (Option Acknowledgement) :=
  match (surroundings.peer server).reply bytes timeout with
  | .error fault => .error fault
  | .ok payload => World.acknowledged payload

/-- A server can be connected to, and takes whatever is sent to it. -/
def Accepts (surroundings : Surroundings) (server : String) : Prop :=
  ∃ connection, surroundings.peer server = .listening connection ∧ connection.room.limit = none

theorem sent_of_accepts {surroundings : Surroundings} {server : String}
    (accepts : surroundings.Accepts server) (bytes : List UInt8) :
    (surroundings.peer server).sent bytes = some bytes := by
  obtain ⟨connection, listening, unlimited⟩ := accepts
  rw [listening, Peer.sent, Connection.write_of_unlimited unlimited]

end Surroundings

namespace World

variable {surroundings : Surroundings} {world : World} {stream : Stream} {bytes : List UInt8}
  {server : String}

theorem contacts_contact (world : World) (server : String) (sent : Option (List UInt8)) :
    (world.contact surroundings server sent).contacts = world.contacts ++ [⟨server, sent⟩] :=
  contacts_interveneAll _

theorem directory_contact (world : World) (server : String) (sent : Option (List UInt8)) :
    (world.contact surroundings server sent).directory = world.directory :=
  directory_interveneAll _

/-- What nothing can take away from an agent is there after an exchange. -/
theorem contact_keeps {property : Agent → Prop} (kept : Agent.Kept property) (world : World)
    (holds : property world.agent) (server : String) (sent : Option (List UInt8)) :
    property (world.contact surroundings server sent).agent :=
  interveneAll_keeps kept _ holds

/-! ### Submissions -/

/-- The frame of a stream is sent as its bytes would be. -/
theorem send_of_holds (surroundings : Surroundings) (world : World) (server : String)
    (timeout : Duration) (holds : stream.Holds bytes) :
    ∃ dumps directory left, world.send surroundings server stream timeout =
      ((surroundings.peer server).reply bytes timeout,
        { world with dumps, directory }.contact surroundings server
          ((surroundings.peer server).sent bytes), left) := by
  unfold send Peer.reply
  cases peer : surroundings.peer server with
  | refusing => exact ⟨world.dumps, world.directory, stream, rfl⟩
  | unreachable => exact ⟨world.dumps, world.directory, stream, rfl⟩
  | unanswered meanwhile => exact ⟨world.dumps, world.directory, stream, rfl⟩
  | listening connection =>
      obtain ⟨transmission, delivered, sent⟩ :=
        holds.deliver world.directory surroundings.tracing connection.room
      refine ⟨world.dumps ++ transmission.dump.toList, stream.release world.directory, stream.close, ?_⟩
      dsimp only [Peer.connect]
      rw [delivered]
      simp only [Stream.Delivery.sent, sent, Peer.sent, Connection.write]
      generalize connection.room.put ⟨bytes.toArray⟩ = put
      obtain ⟨taken, outcome⟩ := put
      cases outcome <;> rfl

/-- However a stream is sent, its file is gone once it is closed. -/
theorem release_send (surroundings : Surroundings) (world : World) (server : String) (stream : Stream)
    (timeout : Duration) :
    (world.send surroundings server stream timeout).2.2.release
        (world.send surroundings server stream timeout).2.1.directory =
      stream.release world.directory := by
  unfold send
  split
  · dsimp only
    rw [directory_contact]
  · dsimp only
    rw [directory_contact, Stream.release, Stream.file?_deliver]
    exact Stream.directory_deliver stream world.directory _ _

theorem release_submit (surroundings : Surroundings) (world : World) (owner : ServerRef)
    (stream : Stream) (timeout : Duration) :
    (world.submit surroundings owner stream timeout).2.2.release
        (world.submit surroundings owner stream timeout).2.1.directory =
      stream.release world.directory :=
  release_send surroundings world (world.agent.serverId owner) stream timeout

/-- A frame is submitted once, and the server says what it says to the frame.  Nobody else is
contacted, and the server gets to see as much of the frame as can be sent to it. -/
theorem submit_of_holds (surroundings : Surroundings) (world : World) (owner : ServerRef)
    (timeout : Duration) (holds : stream.Holds bytes) :
    ∃ after left, world.submit surroundings owner stream timeout =
        (surroundings.saysTo (world.agent.serverId owner) bytes timeout, after, left) ∧
      after.contacts = world.contacts ++ [⟨world.agent.serverId owner,
        (surroundings.peer (world.agent.serverId owner)).sent bytes⟩] ∧
      world.agent.SameAddresses after.agent := by
  let id := world.agent.serverId owner
  obtain ⟨dumps, directory, left, sent⟩ := world.send_of_holds surroundings id timeout holds
  let reached := { world with dumps, directory }.contact surroundings id
    ((surroundings.peer id).sent bytes)
  refine ⟨reached.noteSubmission owner (surroundings.saysTo id bytes timeout), left, ?_, ?_, ?_⟩
  · unfold submit Surroundings.saysTo
    rewrite [sent]
    rfl
  · exact contacts_contact { world with dumps, directory } id _
  · have same : world.agent.SameAddresses reached.agent :=
      contact_keeps (Agent.kept_sameAddresses world.agent) { world with dumps, directory }
        (.refl world.agent) id _
    exact same.trans (Agent.sameAddresses_modifyServer fun _ => rfl)

end World

end CheckRounds
