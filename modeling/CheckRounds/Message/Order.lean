import CheckRounds.Json.Tree
import CheckRounds.Text.Blank

namespace CheckRounds

/-! One entry of the marching orders: a key to collect, and how often. -/

structure Order where
  key : String
  delay : Nat
  lastLogSize : Nat := 0
  mtime : Nat := 0
deriving DecidableEq, Repr, Inhabited

namespace Order

/-- A number of seconds, written as a number or as a string around its numeral. -/
def readDelay? (tree : Json.Tree) : Option Nat :=
  match tree with
  | .string _ => tree.text?.bind fun text => readNumeral? (Text.trimList text.toList)
  | _ => tree.natural?

def read? (tree : Json.Tree) : Option Order := do
  let fields ← tree.fields? ["key", "delay", "lastlogsize", "mtime"] 2
  let key ← Json.Tree.required? Json.Tree.text? fields "key"
  let delay ← Json.Tree.required? readDelay? fields "delay"
  let lastLogSize ← Json.Tree.defaulted? Json.Tree.natural? 0 fields "lastlogsize"
  let mtime ← Json.Tree.defaulted? Json.Tree.natural? 0 fields "mtime"
  return { key, delay, lastLogSize, mtime }

end Order

end CheckRounds
