import CheckRounds.Fault

namespace CheckRounds

/-! Room for bytes, at the other end of a connection or on a disk. -/

/-- How many bytes are taken, if there is a limit, and the fault of those that are too many. -/
structure Room where
  limit : Option Nat := none
  refusal : IoFault := .writerFull
deriving DecidableEq

namespace Room

/-- The bytes that are taken, and whether that is all. -/
def put (room : Room) (bytes : ByteArray) : ByteArray × Except IoFault Unit :=
  match room.limit with
  | none => (bytes, .ok ())
  | some limit =>
      if bytes.size ≤ limit then (bytes, .ok ())
      else (bytes.extract 0 limit, .error room.refusal)

/-- The room that is left behind so many bytes. -/
def after (room : Room) (count : Nat) : Room := { room with limit := room.limit.map (· - count) }

end Room

end CheckRounds
