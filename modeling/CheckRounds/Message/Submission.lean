import CheckRounds.Message.Record

namespace CheckRounds

/-! The message that carries the results of a round: an opener, the records with
commas between them, and a closer with the time of submission. -/

namespace Submission

def opener : List UInt8 := utf8 "\x7b\"request\":\"agent data\",\"data\":["

def closer (clock : Int) : List UInt8 := utf8 "],\"clock\":" ++ Json.writeInt clock ++ utf8 "\x7d"

def payload (records : List Record) (clock : Int) : List UInt8 :=
  opener ++ Json.commaSeparated (records.map Record.write) ++ closer clock

end Submission

end CheckRounds
