import CheckRounds.Number.Binary64
import CheckRounds.Number.Words
import CheckRounds.Text.Blank
import CheckRounds.Text.Caseless

namespace CheckRounds

/-! The acknowledgement of a submission: how many records the server processed, how
many of them failed, their total, and the seconds it spent. -/

structure Acknowledgement where
  processed : Nat
  failed : Nat
  total : Nat
  seconds : Binary64
deriving DecidableEq, Repr, Inhabited

namespace Acknowledgement

def skipOne (mark : Char) : List Char → List Char
  | [] => []
  | c :: rest => if c = mark then rest else c :: rest

/-- A word, an optional colon and the place of a number, with any blanks around. -/
def afterLabel? (word text : List Char) : Option (List Char) :=
  (Text.afterWord? word (Text.skipBlanks text)).map fun rest =>
    Text.skipBlanks (skipOne ':' rest)

def digits? (text : List Char) : Option (List Char × List Char) :=
  let digits := text.takeWhile Char.isDigit
  if digits.isEmpty then none else some (digits, text.dropWhile Char.isDigit)

/-- A labelled number that fits into 64 bits, with an optional semicolon behind. -/
def counter? (word text : List Char) : Option (Nat × List Char) := do
  let text ← afterLabel? word text
  let (digits, rest) ← digits? text
  if digitsValue digits < wordLimit then return (digitsValue digits, skipOne ';' rest) else none

/-- Digits with an optional point and more digits. -/
def decimal? (text : List Char) : Option (Decimal × List Char) := do
  let (whole, rest) ← digits? text
  match rest with
  | '.' :: behind =>
      let (fraction, rest) ← digits? behind
      return (⟨digitsValue (whole ++ fraction), fraction.length⟩, rest)
  | _ => return (⟨digitsValue whole, 0⟩, rest)

def parseList? (text : List Char) : Option Acknowledgement := do
  let (processed, text) ← counter? "processed".toList text
  let (failed, text) ← counter? "failed".toList text
  let (total, text) ← counter? "total".toList text
  let text ← afterLabel? "seconds spent".toList text
  let (seconds, rest) ← decimal? text
  if rest.all Text.isBlank then
    return { processed, failed, total, seconds := Binary64.ofDecimal seconds }
  else none

def parse? (info : String) : Option Acknowledgement := parseList? info.toList

end Acknowledgement

end CheckRounds
