namespace CheckRounds

/-! Unsigned 64-bit numbers: their eight bytes, least significant first, and their
decimal numerals. -/

/-- The numbers below this one fit into 64 bits. -/
def wordLimit : Nat := Nat.pow 2 64

/-- The given number of bytes of a number, least significant first. -/
def littleEndian : Nat → Nat → List UInt8
  | 0, _ => []
  | count + 1, number => (number % 256).toUInt8 :: littleEndian count (number / 256)

def ofLittleEndian : List UInt8 → Nat
  | [] => 0
  | byte :: rest => byte.toNat + 256 * ofLittleEndian rest

@[simp] theorem length_littleEndian (count number : Nat) :
    (littleEndian count number).length = count := by
  induction count generalizing number with
  | zero => rfl
  | succ count ih => simp [littleEndian, ih]

theorem ofLittleEndian_littleEndian {count number : Nat} (fits : number < Nat.pow 256 count) :
    ofLittleEndian (littleEndian count number) = number := by
  induction count generalizing number with
  | zero =>
      have none : number = 0 := Nat.lt_one_iff.mp fits
      rw [none]
      rfl
  | succ count ih =>
      have rest : number / 256 < Nat.pow 256 count := by
        rw [Nat.div_lt_iff_lt_mul (by decide)]
        exact fits
      simp only [littleEndian, ofLittleEndian, ih rest]
      have byte : (number % 256).toUInt8.toNat = number % 256 := by
        simp [Nat.toUInt8]
      omega

theorem littleEndian_ofLittleEndian (bytes : List UInt8) :
    littleEndian bytes.length (ofLittleEndian bytes) = bytes := by
  induction bytes with
  | nil => rfl
  | cons byte rest ih =>
      have small : byte.toNat < 256 := byte.toNat_lt
      have low : (byte.toNat + 256 * ofLittleEndian rest) % 256 = byte.toNat := by omega
      have high : (byte.toNat + 256 * ofLittleEndian rest) / 256 = ofLittleEndian rest := by omega
      simp [littleEndian, ofLittleEndian, low, high, ih]

theorem ofLittleEndian_lt (bytes : List UInt8) :
    ofLittleEndian bytes < Nat.pow 256 bytes.length := by
  induction bytes with
  | nil => exact Nat.zero_lt_one
  | cons byte rest ih =>
      have small : byte.toNat < 256 := byte.toNat_lt
      have longer : Nat.pow 256 (byte :: rest).length = Nat.pow 256 rest.length * 256 := rfl
      rw [ofLittleEndian, longer]
      omega

def digitsValue (digits : List Char) : Nat :=
  digits.foldl (fun value digit => value * 10 + (digit.toNat - '0'.toNat)) 0

/-- Reads a decimal numeral that fits into 64 bits; a plus sign may stand in front. -/
def readNumeral? (text : List Char) : Option Nat :=
  let digits := match text with
    | '+' :: rest => rest
    | _ => text
  if digits.isEmpty || !digits.all Char.isDigit then none
  else if digitsValue digits < wordLimit then some (digitsValue digits) else none

end CheckRounds
