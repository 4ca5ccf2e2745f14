namespace CheckRounds.Collation

/-! Files that an earlier run left in the collation directory. -/

inductive EntryKind
  | file
  | directory
  | link
deriving DecidableEq, Repr, Inhabited

structure Entry where
  name : String
  kind : EntryKind
deriving DecidableEq, Repr, Inhabited

namespace Entry

def nameStart : List Char := "guardia-collation-".toList

def nameEnd : List Char := ".frame".toList

def isLeftover (entry : Entry) : Bool :=
  entry.kind = .file && nameStart.isPrefixOf entry.name.toList &&
    nameEnd.isSuffixOf entry.name.toList

/-- Removes the leftovers: how many there were, and the entries that stay. -/
def sweep (entries : List Entry) : Nat × List Entry :=
  let (leftovers, others) := entries.partition isLeftover
  (leftovers.length, others)

end Entry

end CheckRounds.Collation
