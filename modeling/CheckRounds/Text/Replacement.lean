namespace CheckRounds.Text

/-! Bytes shown as text although they may not be UTF-8.

Every longest piece of bytes that starts a character and cannot be finished, and
every byte that starts none, becomes one replacement character; all else is
decoded.
-/

/-- How many bytes follow a first byte, and the bounds of the second byte.
Second bytes outside the bounds would spell a surrogate, a code point past the
last one, or a longer form of a shorter character. -/
def followers? (first : UInt8) : Option (Nat × UInt8 × UInt8) :=
  if first < 0x80 then some (0, 0x80, 0xBF)
  else if first < 0xC2 then none
  else if first < 0xE0 then some (1, 0x80, 0xBF)
  else if first = 0xE0 then some (2, 0xA0, 0xBF)
  else if first = 0xED then some (2, 0x80, 0x9F)
  else if first < 0xF0 then some (2, 0x80, 0xBF)
  else if first = 0xF0 then some (3, 0x90, 0xBF)
  else if first < 0xF4 then some (3, 0x80, 0xBF)
  else if first = 0xF4 then some (3, 0x80, 0x8F)
  else none

/-- The following bytes that are there, at most as many as are wanted. -/
def takeFollowers : Nat → UInt8 → UInt8 → List UInt8 → List UInt8
  | 0, _, _, _ => []
  | _ + 1, _, _, [] => []
  | wanted + 1, low, high, byte :: rest =>
      if low ≤ byte ∧ byte ≤ high then byte :: takeFollowers wanted 0x80 0xBF rest else []

/-- The code point that a first byte and its following bytes spell. -/
def codePoint (first : UInt8) (followers : List UInt8) : Nat :=
  let head := match followers.length with
    | 0 => first.toNat
    | 1 => first.toNat % 32
    | 2 => first.toNat % 16
    | _ => first.toNat % 8
  followers.foldl (fun code byte => code * 64 + byte.toNat % 64) head

def replacementChar : Char := '\uFFFD'

/-- The character at the start of some bytes, and how many more bytes than the
first it takes. -/
def firstChar (first : UInt8) (rest : List UInt8) : Char × Nat :=
  match followers? first with
  | none => (replacementChar, 0)
  | some (wanted, low, high) =>
      let found := takeFollowers wanted low high rest
      if found.length = wanted then (Char.ofNat (codePoint first found), wanted)
      else (replacementChar, found.length)

def decodeList : List UInt8 → List Char
  | [] => []
  | first :: rest =>
      let (c, more) := firstChar first rest
      c :: decodeList (rest.drop more)
termination_by bytes => bytes.length
decreasing_by simp only [List.length_drop, List.length_cons]; omega

def decodeReplacing (bytes : List UInt8) : String := String.ofList (decodeList bytes)

end CheckRounds.Text
