import CheckRounds.Time.Stamp

namespace CheckRounds

/-! Points in time, and the whole seconds from one to another. -/

/-- A point of the wall clock, in nanoseconds from the start of 1970. -/
structure Instant where
  nanos : Int
deriving DecidableEq, Repr, Inhabited

namespace Instant

open Stamp (nanosPerSecond)

def ofMillis (millis : Int) : Instant := ⟨millis * 1000000⟩

/-- The last whole second that is not after the instant. -/
def seconds (instant : Instant) : Int := instant.nanos / nanosPerSecond

def millis (instant : Instant) : Int := instant.nanos / 1000000

/-- The stamp of an instant; none lies in an inserted second. -/
def stamp (instant : Instant) : Stamp :=
  ⟨instant.seconds, (instant.nanos % nanosPerSecond).toNat⟩

/-- The whole seconds from one instant to another, as they are counted between stamps. -/
def secondsUntil (earlier later : Instant) : Nat := earlier.stamp.secondsUntil later.stamp

theorem inInsertedSecond_stamp (instant : Instant) : instant.stamp.inInsertedSecond = false := by
  unfold Stamp.inInsertedSecond stamp nanosPerSecond
  rw [decide_eq_false_iff_not]
  dsimp only
  omega

theorem secondsUntil_eq (earlier later : Instant) :
    earlier.secondsUntil later = ((later.nanos - earlier.nanos) / nanosPerSecond).toNat := by
  unfold secondsUntil Stamp.secondsUntil
  rw [Stamp.insertedBetween_eq_zero earlier.inInsertedSecond_stamp later.inInsertedSecond_stamp]
  unfold stamp seconds nanosPerSecond
  dsimp only
  omega

theorem secondsUntil_mono {earlier first second : Instant} (ordered : first.nanos ≤ second.nanos) :
    earlier.secondsUntil first ≤ earlier.secondsUntil second := by
  rw [secondsUntil_eq, secondsUntil_eq, nanosPerSecond]
  omega

/-- The year, month and day of a day counted from the start of 1970.  Years are
counted from March, so that the day that leap years add comes last. -/
def civilDay (day : Int) : Int × Nat × Nat :=
  let shifted := day + 719468
  let era := shifted / 146097
  let dayOfEra := shifted % 146097
  let yearOfEra := (dayOfEra - dayOfEra / 1460 + dayOfEra / 36524 - dayOfEra / 146096) / 365
  let dayOfYear := dayOfEra - (365 * yearOfEra + yearOfEra / 4 - yearOfEra / 100)
  let shiftedMonth := (5 * dayOfYear + 2) / 153
  let dayOfMonth := dayOfYear - (153 * shiftedMonth + 2) / 5 + 1
  let month := if shiftedMonth < 10 then shiftedMonth + 3 else shiftedMonth - 9
  let year := yearOfEra + era * 400 + (if month ≤ 2 then 1 else 0)
  (year, month.toNat, dayOfMonth.toNat)

def padded (width number : Nat) : String :=
  let digits := toString number
  String.ofList (List.replicate (width - digits.length) '0') ++ digits

/-- Years of more than four digits and years before the first carry a sign. -/
def yearText (year : Int) : String :=
  if 0 ≤ year ∧ year ≤ 9999 then padded 4 year.toNat
  else if year < 0 then "-" ++ padded 4 (-year).toNat
  else "+" ++ padded 5 year.toNat

/-- The digits after the second: none, three, six or nine, as few as are needed. -/
def fractionText (nanos : Nat) : String :=
  if nanos = 0 then ""
  else if nanos % 1000000 = 0 then "." ++ padded 3 (nanos / 1000000)
  else if nanos % 1000 = 0 then "." ++ padded 6 (nanos / 1000)
  else "." ++ padded 9 nanos

/-- The instant as a calendar date and time of day, for example `1970-01-01T00:00:00.005Z`. -/
def calendarText (instant : Instant) : String :=
  let day := instant.seconds / 86400
  let second := (instant.seconds % 86400).toNat
  let (year, month, dayOfMonth) := civilDay day
  yearText year ++ "-" ++ padded 2 month ++ "-" ++ padded 2 dayOfMonth ++ "T" ++
    padded 2 (second / 3600) ++ ":" ++ padded 2 (second / 60 % 60) ++ ":" ++
    padded 2 (second % 60) ++ fractionText instant.stamp.nanos ++ "Z"

end Instant

end CheckRounds
