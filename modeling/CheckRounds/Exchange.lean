import CheckRounds.Collation.Stream
import CheckRounds.Message.Acknowledgement
import CheckRounds.Message.Reply
import CheckRounds.Message.Request
import CheckRounds.World

namespace CheckRounds

/-! Exchanges with a server: a connection, one frame there and one frame back.

An exchange is noted whether it comes about or not, with as much of the frame as was sent.
No reply is awaited to a frame that was not sent whole.
-/

open Collation (Stream)

def Contact.body? (contact : Contact) : Option (List UInt8) :=
  contact.sent.bind fun sent => (Frame.read sent).1.toOption

def Answer.payload (answer : Answer) (timeout : Duration) : Except Fault (List UInt8) :=
  match answer.reply with
  | none => .error (.timeout timeout)
  | some bytes => (Frame.read bytes).1

/-- Writes bytes to a server: those that it is sent, and whether that is all. -/
def Connection.write (connection : Connection) (bytes : List UInt8) :
    List UInt8 × Except Fault Unit :=
  match connection.room.put ⟨bytes.toArray⟩ with
  | (sent, .error fault) => (sent.data.toList, .error (.transport fault))
  | (sent, .ok ()) => (sent.data.toList, .ok ())

namespace Peer

/-- The connection to a server, or why there is none. -/
def connect (peer : Peer) (timeout : Duration) : Except Fault Connection :=
  match peer with
  | .refusing => .error (.transport .connectionRefused)
  | .unreachable => .error (.transport .networkUnreachable)
  | .unanswered _ => .error (.timeout timeout)
  | .listening connection => .ok connection

/-- What happens until it is known what became of the bytes that were sent, if there was a
connection. -/
def lull (peer : Peer) (sent : Option (List UInt8)) : List Intervention :=
  match peer, sent with
  | .unanswered meanwhile, _ => meanwhile
  | .listening connection, some sent => (connection.answer sent).meanwhile
  | _, _ => []

/-- As much of some bytes as is sent to a server, if there is a connection. -/
def sent (peer : Peer) (bytes : List UInt8) : Option (List UInt8) :=
  match peer with
  | .listening connection => some (connection.write bytes).1
  | .refusing | .unreachable | .unanswered _ => none

/-- The payload that comes back to bytes. -/
def reply (peer : Peer) (bytes : List UInt8) (timeout : Duration) : Except Fault (List UInt8) :=
  match peer.connect timeout with
  | .error fault => .error fault
  | .ok connection =>
      match connection.write bytes with
      | (_, .error fault) => .error fault
      | (sent, .ok ()) => (connection.answer sent).payload timeout

end Peer

namespace World

variable (surroundings : Surroundings)

/-- The world once it is known what became of bytes that were sent. -/
def contact (world : World) (server : String) (sent : Option (List UInt8)) : World :=
  (world.noteContact server sent).interveneAll ((surroundings.peer server).lull sent)

/-- Sends a payload in a frame: the payload of the reply. -/
def request (world : World) (server : String) (payload : List UInt8) (timeout : Duration) :
    Except Fault (List UInt8) × World :=
  let peer := surroundings.peer server
  let frame := Frame.encode payload
  (peer.reply frame timeout, world.contact surroundings server (peer.sent frame))

/-- Sends the frame of a stream: the payload of the reply.  The frame is taken out of the
stream only once there is a connection. -/
def send (world : World) (server : String) (stream : Stream) (timeout : Duration) :
    Except Fault (List UInt8) × World × Stream :=
  match (surroundings.peer server).connect timeout with
  | .error fault => (.error fault, world.contact surroundings server none, stream)
  | .ok connection =>
      let delivery := stream.deliver world.directory surroundings.tracing connection.room
      let reply := match delivery.outcome with
        | .error fault => .error fault
        | .ok _ => (connection.answer delivery.sent).payload timeout
      let shown := { world with directory := delivery.directory }.noteDump
        (delivery.transmission.bind (·.dump))
      (reply, shown.contact surroundings server (some delivery.sent), delivery.stream)

def fetchOrders (world : World) (server host : String) (timeout : Duration) :
    Except Fault (List Order) × World :=
  match world.request surroundings server (ordersRequest host) timeout with
  | (.error fault, world) => (.error fault, world)
  | (.ok payload, world) =>
      (match Reply.parse payload with
        | .error fault => .error fault
        | .ok reply => reply.marchingOrders host, world)

/-- What a reply says about a submission; the acknowledgement of an accepted one may be
missing or unreadable. -/
def acknowledged (payload : List UInt8) : Except Fault (Option Acknowledgement) :=
  match Reply.parse payload with
  | .error fault => .error fault
  | .ok reply =>
      let info := reply.info.getD ""
      if reply.isAccepted then .ok (Acknowledgement.parse? info)
      else .error (.rejected (if info.isEmpty then reply.response else info))

def noteSubmission (world : World) (ref : ServerRef)
    (outcome : Except Fault (Option Acknowledgement)) : World :=
  world.mapAgent fun agent => agent.modifyServer ref fun server =>
    { server with
      stats :=
        match outcome with
        | .ok ack => server.stats.noteAccepted ack world.clock
        | .error fault => server.stats.noteFailed fault world.clock }

def submit (world : World) (ref : ServerRef) (stream : Stream) (timeout : Duration) :
    Except Fault (Option Acknowledgement) × World × Stream :=
  let (reply, world, stream) :=
    world.send surroundings (world.agent.serverId ref) stream timeout
  let outcome := match reply with
    | .error fault => .error fault
    | .ok payload => acknowledged payload
  (outcome, world.noteSubmission ref outcome, stream)

end World

end CheckRounds
