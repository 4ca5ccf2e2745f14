namespace CheckRounds

/-! Lengths of time, and how they are written.

A duration is written in the largest unit of which it holds at least one, with as
many decimals as it needs.
-/

structure Duration where
  nanos : Nat
deriving DecidableEq, Repr, Inhabited

namespace Duration

def ofMillis (millis : Nat) : Duration := ⟨millis * 1000000⟩

def ofSeconds (seconds : Nat) : Duration := ⟨seconds * 1000000000⟩

def dropLastZeros (digits : List Char) : List Char :=
  (digits.reverse.dropWhile (· = '0')).reverse

/-- A number of small units written in a unit that is `10 ^ places` times as large. -/
def inUnit (small places : Nat) (unitName : String) : String :=
  let scale := Nat.pow 10 places
  let fraction := (toString (scale + small % scale)).toList.drop 1
  let decimals := dropLastZeros fraction
  let point := if decimals.isEmpty then "" else "."
  toString (small / scale) ++ point ++ String.ofList decimals ++ unitName

def text (duration : Duration) : String :=
  if 1000000000 ≤ duration.nanos then inUnit duration.nanos 9 "s"
  else if 1000000 ≤ duration.nanos then inUnit duration.nanos 6 "ms"
  else if 1000 ≤ duration.nanos then inUnit duration.nanos 3 "µs"
  else inUnit duration.nanos 0 "ns"

end Duration

end CheckRounds
