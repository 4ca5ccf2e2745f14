import CheckRounds.Json.Text
import CheckRounds.Json.Token
import CheckRounds.Number.Shortest
import CheckRounds.Number.Words

namespace CheckRounds.Json

/-! Numbers of JSON text.

A number that is written as an integer stays one if it fits into 64 bits, with a sign
if it is negative.  All others are floating point numbers, also the negative zero.
-/

inductive Number
  | integer (value : Int)
  | float (negative : Bool) (size : Binary64)
deriving DecidableEq, Repr, Inhabited

/-- Appends digits to a value as long as it fits into 64 bits: the value, and the digits
that were left off. -/
def appendDigits (value : Nat) : List UInt8 → Nat × List UInt8
  | [] => (value, [])
  | digit :: rest =>
      if value * 10 + digitOf digit < wordLimit then appendDigits (value * 10 + digitOf digit) rest
      else (value, digit :: rest)

namespace Number

/-- A spelling without its sign, cut at the point and at the exponent. -/
structure Parts where
  whole : List UInt8
  fraction : List UInt8
  exponent : Int
  isWhole : Bool

def exponentOf : List UInt8 → Int
  | 0x2D :: digits => -(digitsOf digits : Int)
  | 0x2B :: digits => digitsOf digits
  | digits => digitsOf digits

def parts (unsigned : List UInt8) : Parts :=
  let whole := unsigned.takeWhile isDigit
  let behind := unsigned.dropWhile isDigit
  let pointed := behind.head? = some 0x2E
  let fraction := if pointed then (behind.drop 1).takeWhile isDigit else []
  let power := if pointed then (behind.drop 1).dropWhile isDigit else behind
  { whole, fraction, exponent := exponentOf (power.drop 1), isWhole := behind.isEmpty }

/-- The decimal of as many leading digits as fit into 64 bits. -/
def Parts.scientific (parts : Parts) : Scientific :=
  let (kept, wholeLeft) := appendDigits 0 parts.whole
  let (digits, fractionLeft) := appendDigits kept parts.fraction
  let places := parts.fraction.length - fractionLeft.length
  ⟨digits, parts.exponent + wholeLeft.length - places⟩

def Parts.number (parts : Parts) (negative : Bool) : Number :=
  let value := digitsOf parts.whole
  let fits := if negative then 0 < value && value ≤ Nat.pow 2 63 else value < wordLimit
  if parts.isWhole && fits then .integer (if negative then -(value : Int) else value)
  else .float negative (.ofScientific parts.scientific)

def ofSpelling (spelling : List UInt8) : Number :=
  if spelling.head? = some 0x2D then (parts (spelling.drop 1)).number true
  else (parts spelling).number false

/-- The exponents of a first digit that are written without an exponent. -/
def isPositional (exponent : Int) : Bool := -5 ≤ exponent && exponent ≤ 15

def positionalText (digits : List Char) (place : Int) : List Char :=
  let zeros (count : Int) := List.replicate count.toNat '0'
  if place ≤ 0 then '0' :: '.' :: zeros (-place) ++ digits
  else if digits.length ≤ place then digits ++ zeros (place - digits.length) ++ ['.', '0']
  else digits.take place.toNat ++ '.' :: digits.drop place.toNat

def exponentText (digits : List Char) (exponent : Int) : List Char :=
  let point := if digits.length = 1 then [] else ['.']
  let sign := if exponent < 0 then '-' else '+'
  digits.take 1 ++ point ++ digits.drop 1 ++ 'e' :: sign :: (toString exponent.natAbs).toList

/-- A decimal number with at least one place behind the point, or with an exponent that
has a sign. -/
def decimalText (decimal : Scientific) : String :=
  let digits := (toString decimal.digits).toList
  let place : Int := digits.length + decimal.exponent
  String.ofList
    (if isPositional (place - 1) then positionalText digits place
      else exponentText digits (place - 1))

/-- Floating point numbers are written in the shortest way that is read back; there is no
way to write infinity. -/
def write : Number → List UInt8
  | .integer value => writeInt value
  | .float negative size =>
      if size = .infinity then utf8 "null"
      else utf8 ((if negative then "-" else "") ++ decimalText size.shortest)

end Number

end CheckRounds.Json
