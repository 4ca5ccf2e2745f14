import CheckRounds.Collation.Parcel

namespace CheckRounds.Collation

/-! Sending a frame step by step.

A writer is offered bytes again and again: of an offer it takes some bytes, not always all of
them.  Flushing a writer always succeeds, so nothing is said about it.
-/

/-- A writer that takes bytes up to a limit and then refuses. -/
structure Writer extends Room where
  /-- How many bytes of an offer it would take at once, after those that it has. -/
  portion : ByteArray → ByteArray → Nat

namespace Writer

variable {writer : Writer} {taken offer : ByteArray} {count : Nat}

/-- How many bytes of an offer the writer takes, at least one unless it refuses. -/
def accepts (writer : Writer) (taken offer : ByteArray) : Option Nat :=
  let portion := min (max 1 (writer.portion taken offer)) offer.size
  match writer.limit with
  | none => some portion
  | some limit => if limit ≤ taken.size then none else some (min portion (limit - taken.size))

theorem pos_of_accepts (some_bytes : ¬offer.size = 0) (accepted : writer.accepts taken offer = some count) :
    0 < count := by
  unfold accepts at accepted
  split at accepted
  · cases accepted
    omega
  · split at accepted
    · contradiction
    · cases accepted
      omega

/-- Offers what is left of some bytes until the writer has all of them or refuses: the bytes
that it has then. -/
def writeAll (writer : Writer) (taken bytes : ByteArray) : ByteArray × Except IoFault Unit :=
  if _some_bytes : bytes.size = 0 then (taken, .ok ())
  else
    match _accepted : writer.accepts taken bytes with
    | none => (taken, .error writer.refusal)
    | some count =>
        writer.writeAll (taken ++ bytes.extract 0 count) (bytes.extract count bytes.size)
termination_by bytes.size
decreasing_by
  have taken_some := pos_of_accepts (by assumption) (by assumption)
  rw [ByteArray.size_extract]
  omega

/-- Writes pieces one after the other. -/
def writeEach (writer : Writer) (taken : ByteArray) :
    List ByteArray → ByteArray × Except IoFault Unit
  | [] => (taken, .ok ())
  | piece :: rest =>
      match writer.writeAll taken piece with
      | (taken, .error fault) => (taken, .error fault)
      | (taken, .ok ()) => writer.writeEach taken rest

end Writer

/-- Writes a frame.  A streaming file is copied in the pieces into which it is cut, unless
tracing has to show it, and what was copied is compared with what was announced. -/
def Payload.writeTo (cut : ByteArray → List ByteArray) (payload : Payload) (tracing : Bool)
    (writer : Writer) : Transmission :=
  match payload, tracing with
  | .file _ contents length true, false =>
      match writer.writeEach .empty (cut (contents.extract 0 length)) with
      | (sent, .error fault) => { sent, outcome := .error fault, dump := none }
      | (sent, .ok ()) =>
          { sent
            outcome := if sent.size = length then .ok () else .error (.fileShrank sent.size length)
            dump := none }
  | payload, tracing =>
      let (sent, outcome) := writer.writeAll .empty payload.bytes
      { sent, outcome, dump := if tracing then Payload.dumpText payload.bytes else none }

/-- Writes the frame and drops it, whether or not it could be written. -/
def Parcel.writeTo (cut : ByteArray → List ByteArray) (parcel : Parcel) (directory : Directory)
    (tracing : Bool) (writer : Writer) : Transmission × Directory :=
  let transmission := match parcel.unpack directory with
    | .error fault => { sent := .empty, outcome := .error fault, dump := none }
    | .ok payload => payload.writeTo cut tracing writer
  (transmission, parcel.drop directory)

end CheckRounds.Collation
