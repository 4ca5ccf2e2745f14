import CheckRounds.Json.Text

namespace CheckRounds

/-! One result of a check as it is submitted. -/

/-- A value, or the message of a failure in the place of the value. -/
structure Record where
  host : String
  key : String
  value : String
  failed : Bool
  clock : Int
deriving DecidableEq, Repr, Inhabited

namespace Record

/-- Only records of failures have a state. -/
def members (record : Record) : List (String × List UInt8) :=
  [("host", Json.writeString record.host), ("key", Json.writeString record.key),
    ("value", Json.writeString record.value)] ++
  (if record.failed then [("state", Json.writeInt 1)] else []) ++
  [("clock", Json.writeInt record.clock)]

def write (record : Record) : List UInt8 := Json.writeObject record.members

/-- The record and the comma that separates it from the next one. -/
def writeSeparated (record : Record) : List UInt8 := record.write ++ [0x2C]

end Record

end CheckRounds
