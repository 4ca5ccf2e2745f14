namespace CheckRounds

/-! Time stamps that can also name a moment inside an inserted leap second.

Such a stamp has the number of the second before the inserted one and a fraction of
one second or more.  Of two stamps on one day the inserted second between them
counts.
-/

structure Stamp where
  seconds : Int
  nanos : Nat
deriving DecidableEq, Repr, Inhabited

namespace Stamp

def nanosPerSecond : Int := 1000000000

def inInsertedSecond (stamp : Stamp) : Bool := 1000000000 ≤ stamp.nanos

def secondOfDay (stamp : Stamp) : Int := stamp.seconds % 86400

/-- The inserted second that lies between two times of day and that their numbers
do not show. -/
def insertedBetween (earlier later : Stamp) : Int :=
  if earlier.secondOfDay < later.secondOfDay then
    if earlier.inInsertedSecond then 1 else 0
  else if later.secondOfDay < earlier.secondOfDay then
    if later.inInsertedSecond then -1 else 0
  else 0

/-- The whole seconds that have passed; none if the second stamp is the earlier one. -/
def secondsUntil (earlier later : Stamp) : Nat :=
  let seconds := later.seconds - earlier.seconds + insertedBetween earlier later
  ((seconds * nanosPerSecond + ((later.nanos : Int) - earlier.nanos)) / nanosPerSecond).toNat

theorem insertedBetween_eq_zero {earlier later : Stamp}
    (earlierPlain : earlier.inInsertedSecond = false)
    (laterPlain : later.inInsertedSecond = false) : insertedBetween earlier later = 0 := by
  unfold insertedBetween
  simp only [earlierPlain, laterPlain, Bool.false_eq_true, if_false, ite_self]

end Stamp

end CheckRounds
