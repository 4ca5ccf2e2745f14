import CheckRounds.Schedule.Bucket

namespace CheckRounds.Schedule

/-! Recurring timers, one for each delay in use.

A timer is due a whole delay after it was armed and then after every further delay;
a delay of zero counts as one second.  Timers have a clock of their own, in seconds.
-/

structure Timers where
  now : Nat
  /-- For each armed delay the time at which its timer is due next. -/
  armed : SortedMap Nat Nat
  /-- Whether anybody still takes the ticks. -/
  received : Bool
deriving DecidableEq

namespace Timers

def empty : Timers := ⟨0, .empty, true⟩

instance : Inhabited Timers := ⟨empty⟩

def period (delay : Nat) : Nat := max delay 1

/-- Arms a timer when a delay comes into use and cancels it when it goes out of use. -/
def receive (timers : Timers) : Event → Timers
  | .start delay => { timers with armed := timers.armed.insert delay (timers.now + period delay) }
  | .cancel delay => { timers with armed := timers.armed.erase delay }

def timerDelays (timers : Timers) : List Nat := timers.armed.keys

/-- How often a timer is due up to and including a time. -/
def ticksUntil (time delay due : Nat) : Nat :=
  if due ≤ time then (time - due) / period delay + 1 else 0

/-- Lets time pass: the timers that were due, with how often, and the timers after it. -/
def advance (timers : Timers) (seconds : Nat) : List (Nat × Nat) × Timers :=
  let time := timers.now + seconds
  let ticks := timers.armed.toList.map fun timer => (timer.1, ticksUntil time timer.1 timer.2)
  let armed := timers.armed.mapValues fun delay due => due + ticksUntil time delay due * period delay
  (if timers.received then ticks.filter (0 < ·.2) else [], { timers with now := time, armed })

/-- Nobody takes the ticks any more; the timers stay armed. -/
def dropReceiver (timers : Timers) : Timers := { timers with received := false }

end Timers

end CheckRounds.Schedule
