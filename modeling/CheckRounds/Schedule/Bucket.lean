import CheckRounds.Sorted.Map
import CheckRounds.Sorted.Set
import CheckRounds.Text.Quoted

namespace CheckRounds.Schedule

/-! A bucket: for each delay the items that are due at it.

No delay has an empty set of items.  Whether an item is held under a delay, `Holds`,
is the view that clients reason about; the events say which delays began or ceased
to be in use.
-/

/-- A delay came into use, or went out of use. -/
inductive Event
  | start (delay : Nat)
  | cancel (delay : Nat)
deriving DecidableEq, Repr

inductive Change (α : Type)
  | insert (delay : Nat) (item : α)
  | delete (delay : Nat) (item : α)
deriving DecidableEq, Repr

/-- What an owner of a bucket tells about its delays one level up. -/
def Event.toChange {α : Type} (name : α) : Event → Change α
  | .start delay => .insert delay name
  | .cancel delay => .delete delay name

structure Bucket (α : Type) [LT α] where
  name : String
  entries : SortedMap Nat (SortedSet α)

namespace Bucket

variable {α : Type} [LT α]

def empty (name : String) : Bucket α := ⟨name, .empty⟩

instance : Inhabited (Bucket α) := ⟨empty ""⟩

def items (bucket : Bucket α) (delay : Nat) : SortedSet α := (bucket.entries.get? delay).getD .empty

def Holds (bucket : Bucket α) (delay : Nat) (item : α) : Prop := item ∈ bucket.items delay

/-- The delays in use, in ascending order. -/
def delays (bucket : Bucket α) : List Nat := bucket.entries.keys

def isEmpty (bucket : Bucket α) : Bool := bucket.entries.isEmpty

section Ordered

variable [DecidableEq α]

instance (bucket : Bucket α) (delay : Nat) (item : α) : Decidable (bucket.Holds delay item) :=
  inferInstanceAs (Decidable (item ∈ bucket.items delay))

/-- What a change did: whether anything changed, the event it caused, and the bucket
it left. -/
structure Outcome (α : Type) [LT α] where
  changed : Bool
  event : Option Event
  bucket : Bucket α

def delete (bucket : Bucket α) (delay : Nat) (item : α) : Outcome α :=
  if bucket.Holds delay item then
    let left := (bucket.items delay).erase item
    if left.isEmpty then
      ⟨true, some (.cancel delay), { bucket with entries := bucket.entries.erase delay }⟩
    else ⟨true, none, { bucket with entries := bucket.entries.insert delay left }⟩
  else ⟨false, none, bucket⟩

variable [DecidableLT α] [LE α] [Std.IsLinearOrder α] [Std.LawfulOrderLT α]

def insert (bucket : Bucket α) (delay : Nat) (item : α) : Outcome α :=
  if bucket.Holds delay item then ⟨false, none, bucket⟩
  else
    ⟨true, if (bucket.items delay).isEmpty then some (.start delay) else none,
      { bucket with entries := bucket.entries.insert delay ((bucket.items delay).insert item) }⟩

def apply (bucket : Bucket α) : Change α → Outcome α
  | .insert delay item => bucket.insert delay item
  | .delete delay item => bucket.delete delay item

/-- Makes changes one after the other; the events come in the order of the changes. -/
def applyAll (bucket : Bucket α) : List (Change α) → List Event × Bucket α
  | [] => ([], bucket)
  | change :: rest =>
      let outcome := bucket.apply change
      let (events, final) := applyAll outcome.bucket rest
      (outcome.event.toList ++ events, final)

end Ordered

/-- Moves an item from one delay to another; to the same delay it is only added. -/
def moveChanges (old new : Nat) (item : α) : List (Change α) :=
  if old = new then [.insert new item] else [.delete old item, .insert new item]

/-- The delays at which an item is due, in ascending order. -/
def delaysOf [DecidableEq α] (bucket : Bucket α) (item : α) : List Nat :=
  bucket.delays.filter fun delay => decide (bucket.Holds delay item)

def removalChanges [DecidableEq α] (bucket : Bucket α) (item : α) : List (Change α) :=
  (bucket.delaysOf item).map fun delay => .delete delay item

end Bucket

def Bucket.debugText (bucket : Bucket String) : String :=
  let entries := bucket.entries.toList.map fun entry =>
    toString entry.1 ++ ": " ++ Text.listed "\x7b" "\x7d" (entry.2.toList.map Text.quoted)
  Text.record "ScheduleBucket"
    [("name", Text.quoted bucket.name), ("entries", Text.listed "\x7b" "\x7d" entries)]

end CheckRounds.Schedule
