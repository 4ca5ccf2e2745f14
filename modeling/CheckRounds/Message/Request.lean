import CheckRounds.Json.Text

namespace CheckRounds

/-! The message that asks for marching orders. -/

def ordersRequest (host : String) : List UInt8 :=
  Json.writeObject [("request", Json.writeString "active checks"), ("host", Json.writeString host)]

end CheckRounds
