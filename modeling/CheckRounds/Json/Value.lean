import CheckRounds.Json.Number
import CheckRounds.Json.Tree
import CheckRounds.Sorted.Map

namespace CheckRounds.Json

/-! JSON values to be written: compact, the members of objects sorted by key. -/

inductive Value
  | null
  | bool (value : Bool)
  | number (value : Number)
  | string (text : String)
  | array (items : List Value)
  | object (members : List (String × Value))

namespace Value

instance : Inhabited Value := ⟨.null⟩

def ofInt (value : Int) : Value := .number (.integer value)

def ofNat (value : Nat) : Value := .ofInt value

def ofList {α : Type} (values : List α) (write : α → Value) : Value := .array (values.map write)

def ofOption {α : Type} (value : Option α) (write : α → Value) : Value :=
  match value with
  | none => .null
  | some value => write value

def ofString (spelling : List UInt8) : Value := .string ((decodeString? spelling).getD "")

mutual

/-- What a text says, to be written again. -/
def ofTree : Tree → Value
  | .null => .null
  | .bool value => .bool value
  | .number spelling => .number (.ofSpelling spelling)
  | .string spelling => ofString spelling
  | .array items => .array (ofTrees items)
  | .object members => .object (ofMembers members)

def ofTrees : List Tree → List Value
  | [] => []
  | item :: rest => ofTree item :: ofTrees rest

def ofMembers : List (List UInt8 × Tree) → List (String × Value)
  | [] => []
  | member :: rest => ((decodeString? member.1).getD "", ofTree member.2) :: ofMembers rest

end

end Value

def sortMembers (members : List (String × List UInt8)) : List (String × List UInt8) :=
  (members.foldl (fun sorted member => sorted.insert member.1 member.2)
    (SortedMap.empty : SortedMap String (List UInt8))).toList

mutual

def Value.write : Value → List UInt8
  | .null => utf8 "null"
  | .bool value => utf8 (if value then "true" else "false")
  | .number value => value.write
  | .string text => writeString text
  | .array items => writeArray (writeItems items)
  | .object members => writeObject (sortMembers (writeMembers members))

def writeItems : List Value → List (List UInt8)
  | [] => []
  | item :: rest => item.write :: writeItems rest

def writeMembers : List (String × Value) → List (String × List UInt8)
  | [] => []
  | member :: rest => (member.1, member.2.write) :: writeMembers rest

end

def discovery (records : List Value) : List UInt8 :=
  writeObject [("data", writeArray (writeItems records))]

end CheckRounds.Json
