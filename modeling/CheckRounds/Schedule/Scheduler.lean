import CheckRounds.Schedule.Forest
import CheckRounds.Schedule.Timers

namespace CheckRounds.Schedule

/-! The schedule of an agent: its buckets and the timers that the root bucket arms.

The root bucket has the number zero.  Its events go to the timers; the events of all
buckets are kept in a journal.
-/

structure Scheduler where
  forest : Forest
  timers : Timers
  /-- Every event so far, in the order in which they arose. -/
  journal : List (BucketRef × Event)

namespace Scheduler

def rootRef : BucketRef := 0

def withRoot (name : String) : Scheduler := ⟨Forest.empty.plant name none, .empty, []⟩

instance : Inhabited Scheduler := ⟨withRoot "root"⟩

def root (scheduler : Scheduler) : Bucket String := scheduler.forest.bucket rootRef

def bucket (scheduler : Scheduler) (ref : BucketRef) : Bucket String := scheduler.forest.bucket ref

def eventsAt (ref : BucketRef) (events : List (BucketRef × Event)) : List Event :=
  (events.filter (·.1 = ref)).map (·.2)

/-- Adds an empty bucket under a parent; its number is the number of buckets before. -/
def plant (scheduler : Scheduler) (name : String) (parent : BucketRef) (reportedAs : String) :
    Scheduler :=
  { scheduler with forest := scheduler.forest.plant name (some (parent, reportedAs)) }

/-- Changes a bucket and tells the timers what that meant for the root. -/
def applyAll (scheduler : Scheduler) (ref : BucketRef) (changes : List (Change String)) :
    Scheduler :=
  let (events, forest) := scheduler.forest.applyAll ref changes
  { forest
    timers := (eventsAt rootRef events).foldl Timers.receive scheduler.timers
    journal := scheduler.journal ++ events }

def advance (scheduler : Scheduler) (seconds : Nat) : List (Nat × Nat) × Scheduler :=
  let (ticks, timers) := scheduler.timers.advance seconds
  (ticks, { scheduler with timers })

def dropReceiver (scheduler : Scheduler) : Scheduler :=
  { scheduler with timers := scheduler.timers.dropReceiver }

def timerDelays (scheduler : Scheduler) : List Nat := scheduler.timers.timerDelays

end Scheduler

end CheckRounds.Schedule
