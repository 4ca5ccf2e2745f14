import CheckRounds.Frame

namespace CheckRounds.Frame

/-! Frames in a source whose bytes arrive in pieces.

A source is the list of the pieces in which its bytes arrive, wherever they are cut.  What is
taken of a piece is gone, and the rest of it comes first in what is left.
-/

abbrev Source := List (List UInt8)

/-- Takes so many bytes from a source.  A source that ends before gives what it has, and
nothing comes of it. -/
def takeExactly (count : Nat) : Source → Option (List UInt8) × Source
  | [] => (if count = 0 then some [] else none, [])
  | piece :: rest =>
      if count ≤ piece.length then (some (piece.take count), piece.drop count :: rest)
      else
        match takeExactly (count - piece.length) rest with
        | (none, left) => (none, left)
        | (some more, left) => (some (piece ++ more), left)

/-- Reads one frame: first the bytes in front of the payload, then as many as they announce. -/
def readFrom (source : Source) : Except Fault (List UInt8) × Source :=
  match takeExactly leadLength source with
  | (none, left) => (.error (.transport .earlyEof), left)
  | (some lead, left) =>
      match announced lead with
      | .error fault => (.error (.protocol fault), left)
      | .ok length =>
          match takeExactly length left with
          | (none, left) => (.error (.transport .earlyEof), left)
          | (some payload, left) => (.ok payload, left)

/-- Reads so many frames, or fewer if one cannot be read: the payloads, the fault if there was
one, and what is left. -/
def readMany : Nat → Source → List (List UInt8) × Option Fault × Source
  | 0, source => ([], none, source)
  | count + 1, source =>
      match readFrom source with
      | (.error fault, left) => ([], some fault, left)
      | (.ok payload, left) =>
          let (payloads, fault, left) := readMany count left
          (payload :: payloads, fault, left)

/-- Writes a payload in a frame behind what was written before. -/
def write (written payload : List UInt8) : List UInt8 := written ++ encode payload

end CheckRounds.Frame
