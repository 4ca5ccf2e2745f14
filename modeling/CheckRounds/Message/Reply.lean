import CheckRounds.Fault
import CheckRounds.Message.Order
import CheckRounds.Text.Caseless

namespace CheckRounds

/-! What a server answers, to a request for marching orders and to a submission. -/

structure Reply where
  response : String
  info : Option String := none
  orders : Option (List Order) := none
deriving DecidableEq, Repr, Inhabited

namespace Reply

def read? (tree : Json.Tree) : Option Reply := do
  let fields ← tree.fields? ["response", "info", "data"] 1
  let response ← Json.Tree.required? Json.Tree.text? fields "response"
  let info ← Json.Tree.defaulted? (Json.Tree.optional? Json.Tree.text?) none fields "info"
  let orders ←
    Json.Tree.defaulted? (Json.Tree.optional? (Json.Tree.list? Order.read?)) none fields "data"
  return { response, info, orders }

def parse (payload : List UInt8) : Except Fault Reply :=
  match (Json.Tree.parse? payload).bind read? with
  | some reply => .ok reply
  | none => .error (.protocol .malformedJson)

def isAccepted (reply : Reply) : Bool := reply.response == "success"

/-- Whether a line says that something is not found or not monitored. -/
def saysMissing (line : List Char) : Bool :=
  Text.contains " not found".toList line || Text.contains " not monitored".toList line

/-- Whether a host is named and the same line goes on to say that it is missing. -/
def saysHostMissing : List Char → Bool
  | [] => false
  | c :: text =>
      (match Text.afterWord? "host ".toList (c :: text) with
        | some rest => saysMissing (rest.takeWhile (· ≠ '\n'))
        | none => false) || saysHostMissing text

/-- Whether a refusal means that the server does not know the host. -/
def saysUnknownHost (info : String) : Bool :=
  saysHostMissing info.toList || Text.contains "no active checks on server".toList info.toList

/-- The reason of a refusal: the info, or the response if there is none. -/
def reason (reply : Reply) : String := reply.info.getD reply.response

def marchingOrders (reply : Reply) (host : String) : Except Fault (List Order) :=
  if reply.isAccepted then .ok (reply.orders.getD [])
  else if saysUnknownHost reply.reason then .error (.unknownHost host)
  else .error (.rejected reply.reason)

end Reply

end CheckRounds
