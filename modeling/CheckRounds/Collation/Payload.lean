import CheckRounds.Collation.Store
import CheckRounds.Frame
import CheckRounds.Room

namespace CheckRounds.Collation

/-! Sending a finished frame to where there is room for some bytes. -/

/-- What became of a frame that was sent: the bytes that were taken, how the sending
ended, and the payload text that tracing shows. -/
structure Transmission where
  sent : ByteArray
  outcome : Except IoFault Unit
  dump : Option String

namespace Payload

def length : Payload → Nat
  | .buffer bytes => bytes.size
  | .file _ _ length _ => length

def isEmpty (payload : Payload) : Bool := payload.length == 0

def hasFile : Payload → Bool
  | .buffer _ => false
  | .file .. => true

/-- The name of the file, if there is one. -/
def file? : Payload → Option String
  | .buffer _ => none
  | .file name .. => some name

def inFile : Payload → Nat
  | .buffer _ => 0
  | .file _ contents _ _ => contents.size

/-- The bytes of the frame, of a file that shrank those that are left. -/
def bytes : Payload → ByteArray
  | .buffer bytes => bytes
  | .file _ contents length _ => contents.extract 0 length

/-- The file after its length was set from outside; without a file nothing changes. -/
def withFileLength (length : Nat) : Payload → Payload
  | .buffer bytes => .buffer bytes
  | .file name contents announced streaming =>
      .file name (SpillFile.resized contents length) announced streaming

/-- The text of the payload of a frame, if the frame is long enough to have one. -/
def dumpText (frame : ByteArray) : Option String :=
  if frame.size < Frame.leadLength then none
  else some (Text.decodeReplacing (frame.data.toList.drop Frame.leadLength))

/-- Sends all bytes at once; tracing shows them first. -/
def sendWhole (payload : Payload) (tracing : Bool) (room : Room) : Transmission :=
  let (sent, outcome) := room.put payload.bytes
  { sent, outcome, dump := if tracing then dumpText payload.bytes else none }

/-- Copies a file and compares what was copied with what was announced. -/
def sendCopied (payload : Payload) (room : Room) : Transmission :=
  match room.put payload.bytes with
  | (sent, .error fault) => { sent, outcome := .error fault, dump := none }
  | (sent, .ok ()) =>
      { sent
        outcome :=
          if sent.size = payload.length then .ok () else .error (.fileShrank sent.size payload.length)
        dump := none }

/-- A streaming file is copied, unless tracing has to show it. -/
def send (payload : Payload) (tracing : Bool) (room : Room) : Transmission :=
  match payload, tracing with
  | .file _ _ _ true, false => payload.sendCopied room
  | _, _ => payload.sendWhole tracing room

def kindText : Payload → String
  | .buffer bytes => "Buffer(" ++ toString bytes.size ++ ")"
  | .file .. => "File"

end Payload

end CheckRounds.Collation
