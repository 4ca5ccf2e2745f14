import CheckRounds.Collation.Parcel
import CheckRounds.Message.Submission

namespace CheckRounds.Collation

/-! The frame of one round while it is collected.

The header is written with a length field of zeros, records are appended with a
comma each, and at the end the last comma goes, the closer follows and the length
field is overwritten.  Every operation says how it ended and what stream it leaves.
-/

structure Stream where
  mode : CollationMode
  /-- Nothing once the stream is closed or its frame was taken. -/
  store : Option Store
  byteCount : Nat
  resultCount : Nat
  /-- Where the length field is, once the header is written. -/
  lengthOffset : Option Nat
  /-- Whether the comma after the last record is gone. -/
  trimmed : Bool

namespace Stream

/-- A new stream over a store that is empty. -/
def create (mode : CollationMode) (store : Store) : Stream :=
  { mode
    store := some store
    byteCount := 0
    resultCount := 0
    lengthOffset := none
    trimmed := false }

def isOpen (stream : Stream) : Bool := stream.store.isSome

/-- The name of the file that goes when the stream is closed, if there is one. -/
def file? (stream : Stream) : Option String := stream.store.bind (·.file?)

def append (stream : Stream) (bytes : ByteArray) : Except Fault Unit × Stream :=
  match stream with
  | ⟨mode, none, byteCount, resultCount, lengthOffset, trimmed⟩ =>
      (.error .streamClosed, ⟨mode, none, byteCount, resultCount, lengthOffset, trimmed⟩)
  | ⟨mode, some store, byteCount, resultCount, lengthOffset, trimmed⟩ =>
      let size := bytes.size
      match store.append bytes with
      | (.error fault, store) =>
          (.error (.collation fault), ⟨mode, some store, byteCount, resultCount, lengthOffset, trimmed⟩)
      | (.ok (), store) =>
          (.ok (), ⟨mode, some store, byteCount + size, resultCount, lengthOffset, trimmed⟩)

def appendList (stream : Stream) (bytes : List UInt8) : Except Fault Unit × Stream :=
  stream.append ⟨bytes.toArray⟩

/-- Magic and version, a length field of zeros, and the opener. -/
def openFrame (stream : Stream) : Except Fault Unit × Stream :=
  if stream.lengthOffset.isSome then (.error (.protocol .headerAlreadyWritten), stream)
  else
    match stream.appendList Frame.header with
    | (.error fault, stream) => (.error fault, stream)
    | (.ok (), stream) =>
        let offset := stream.byteCount
        match stream.appendList (littleEndian Frame.lengthFieldLength 0) with
        | (.error fault, stream) => (.error fault, stream)
        | (.ok (), stream) =>
            { stream with lengthOffset := some offset }.appendList Submission.opener

/-- Appends one record, with the comma behind it. -/
def appendRecord (stream : Stream) (record : ByteArray) : Except Fault Unit × Stream :=
  match stream.append record with
  | (.error fault, stream) => (.error fault, stream)
  | (.ok (), ⟨mode, store, byteCount, resultCount, lengthOffset, trimmed⟩) =>
      (.ok (), ⟨mode, store, byteCount, resultCount + 1, lengthOffset, trimmed⟩)

def appendRecords (stream : Stream) : List ByteArray → Except Fault Unit × Stream
  | [] => (.ok (), stream)
  | record :: rest =>
      match stream.appendRecord record with
      | (.error fault, stream) => (.error fault, stream)
      | (.ok (), stream) => stream.appendRecords rest

/-- Drops the comma after the last record, once and only if there is a record; says
whether a byte was dropped. -/
def trim (stream : Stream) : Except Fault Bool × Stream :=
  if stream.resultCount = 0 || stream.trimmed then (.ok false, stream)
  else
    match stream.store with
    | none => (.error .streamClosed, stream)
    | some store =>
        let length := stream.byteCount - 1
        match store.truncate length with
        | (.error fault, store) => (.error (.collation fault), { stream with store := some store })
        | (.ok (), store) =>
            (.ok true, { stream with store := some store, byteCount := length, trimmed := true })

def writeCloser (stream : Stream) (clock : Int) : Except Fault Unit × Stream :=
  stream.appendList (Submission.closer clock)

/-- Writes the number of bytes behind the length field into it. -/
def patchLength (stream : Stream) : Except Fault Nat × Stream :=
  match stream.lengthOffset with
  | none => (.error (.protocol .headerNeverWritten), stream)
  | some offset =>
      let length := stream.byteCount - offset - Frame.lengthFieldLength
      match stream.store with
      | none => (.error .streamClosed, stream)
      | some store =>
          match store.overwrite offset ⟨(littleEndian Frame.lengthFieldLength length).toArray⟩ with
          | (.error fault, store) => (.error (.collation fault), { stream with store := some store })
          | (.ok (), store) => (.ok length, { stream with store := some store })

/-- Trims, closes the text and sets the length. -/
def complete (stream : Stream) (clock : Int) : Except Fault Nat × Stream :=
  match stream.trim with
  | (.error fault, stream) => (.error fault, stream)
  | (.ok _, stream) =>
      match stream.writeCloser clock with
      | (.error fault, stream) => (.error fault, stream)
      | (.ok (), stream) => stream.patchLength

def close (stream : Stream) : Stream := { stream with store := none }

/-- What is left of a directory once the stream is closed: its file is removed. -/
def release (stream : Stream) (directory : Directory) : Directory := directory.without stream.file?

/-- Takes the frame out and leaves the stream closed. -/
def takeFrame (stream : Stream) : Except Fault Payload × Stream :=
  match stream.store with
  | none => (.error .streamClosed, stream)
  | some store =>
      match store.finish with
      | .error fault => (.error (.collation fault), stream.close)
      | .ok frame => (.ok frame, stream.close)

/-- What became of a stream that was written out: the length of its frame or the
fault, the transmission if there was a frame, and the directory without the file. -/
structure Delivery where
  outcome : Except Fault Nat
  transmission : Option Transmission
  stream : Stream
  directory : Directory

/-- What was sent, whole or not. -/
def Delivery.sent (delivery : Delivery) : List UInt8 :=
  match delivery.transmission with
  | some transmission => transmission.sent.data.toList
  | none => []

def deliver (stream : Stream) (directory : Directory) (tracing : Bool) (room : Room) : Delivery :=
  match stream.takeFrame with
  | (.error fault, closed) =>
      { outcome := .error fault
        transmission := none
        stream := closed
        directory := stream.release directory }
  | (.ok frame, closed) =>
      let (parcel, stored) := frame.pack directory
      let (transmission, left) := parcel.send stored tracing room
      let outcome := match transmission.outcome with
        | .ok () => .ok frame.length
        | .error fault => .error (.transport fault)
      { outcome, transmission := some transmission, stream := closed, directory := left }

def modeText : CollationMode → String
  | .memory => "Memory"
  | .directMemory => "DirectMemory"
  | .disk => "Disk"
  | .directDisk => "DirectDisk"

def debugText (stream : Stream) : String :=
  Text.record "CollectionStream"
    [("mode", modeText stream.mode), ("byte_count", toString stream.byteCount),
      ("result_count", toString stream.resultCount), ("open", toString stream.isOpen)]

end Stream

end CheckRounds.Collation
