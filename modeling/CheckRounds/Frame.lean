import CheckRounds.Fault
import CheckRounds.Number.Words

namespace CheckRounds.Frame

/-! The binary envelope of every message: four magic bytes, a version byte, the
length of the payload in eight bytes, least significant first, and the payload.

`decode` takes a frame from the front of some bytes that are all there; `read` takes
one from a source that may end early and says what is left of the source.
-/

def magic : List UInt8 := [0x5A, 0x42, 0x58, 0x44]

def version : UInt8 := 1

def header : List UInt8 := magic ++ [version]

def headerLength : Nat := 5

def lengthFieldLength : Nat := 8

def leadLength : Nat := 13

/-- The longest payload that is accepted: 128 MiB. -/
def payloadLimit : Nat := 134217728

def encode (payload : List UInt8) : List UInt8 :=
  header ++ littleEndian lengthFieldLength payload.length ++ payload

/-- The payload length that the bytes in front of a payload announce. -/
def announced (lead : List UInt8) : Except ProtocolFault Nat :=
  if lead.take 4 ≠ magic then .error (.badMagic (lead.take 4))
  else if lead.getD 4 0 ≠ version then .error (.unsupportedVersion (lead.getD 4 0))
  else
    let length := ofLittleEndian ((lead.drop headerLength).take lengthFieldLength)
    if payloadLimit < length then .error (.oversizedPayload length) else .ok length

/-- The payload of the frame at the start of some bytes; what follows is ignored. -/
def decode (bytes : List UInt8) : Except ProtocolFault (List UInt8) :=
  if bytes.length < leadLength then .error (.shortFrame bytes.length)
  else
    match announced (bytes.take leadLength) with
    | .error fault => .error fault
    | .ok length =>
        let body := bytes.drop leadLength
        if body.length < length then .error (.truncatedFrame length body.length)
        else .ok (body.take length)

/-- Reads one frame from a source, which loses what was read, on a failure too. -/
def read (source : List UInt8) : Except Fault (List UInt8) × List UInt8 :=
  if source.length < leadLength then (.error (.transport .earlyEof), [])
  else
    let rest := source.drop leadLength
    match announced (source.take leadLength) with
    | .error fault => (.error (.protocol fault), rest)
    | .ok length =>
        if rest.length < length then (.error (.transport .earlyEof), [])
        else (.ok (rest.take length), rest.drop length)

theorem length_read_lt {source payload rest : List UInt8} (found : read source = (.ok payload, rest)) :
    rest.length < source.length := by
  unfold read at found
  split at found
  · simp at found
  · next long =>
      dsimp only at found
      split at found
      · simp at found
      · split at found
        · simp at found
        · simp only [Prod.mk.injEq] at found
          rw [← found.2]
          simp only [leadLength, List.length_drop] at long ⊢
          omega

/-- Reads frames until one cannot be read: the payloads, the fault, and what is left. -/
def readAll (source : List UInt8) : List (List UInt8) × Fault × List UInt8 :=
  match _found : read source with
  | (.error fault, rest) => ([], fault, rest)
  | (.ok payload, rest) =>
      let (payloads, fault, left) := readAll rest
      (payload :: payloads, fault, left)
termination_by source.length
decreasing_by exact length_read_lt (by assumption)

end CheckRounds.Frame
