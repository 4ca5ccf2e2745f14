namespace CheckRounds.Json

/-! The tokens of JSON text.

Strings and numbers keep the bytes they are written with.  A string is only checked
for control bytes and for the form of its escapes, so that text nobody reads may
hold anything else.
-/

inductive Token
  | openObject
  | closeObject
  | openArray
  | closeArray
  | comma
  | colon
  | null
  | bool (value : Bool)
  | number (spelling : List UInt8)
  | string (spelling : List UInt8)
deriving DecidableEq, Repr

def isSpace (byte : UInt8) : Bool := byte = 0x20 || byte = 0x09 || byte = 0x0A || byte = 0x0D

def isDigit (byte : UInt8) : Bool := 0x30 ≤ byte && byte ≤ 0x39

def digitOf (byte : UInt8) : Nat := byte.toNat - 0x30

def digitsOf (bytes : List UInt8) : Nat :=
  bytes.foldl (fun value byte => value * 10 + digitOf byte) 0

def isHexDigit (byte : UInt8) : Bool :=
  isDigit byte || (0x41 ≤ byte && byte ≤ 0x46) || (0x61 ≤ byte && byte ≤ 0x66)

/-- The letters that name a character behind a backslash. -/
def isEscapeLetter (byte : UInt8) : Bool :=
  byte = 0x22 || byte = 0x5C || byte = 0x2F || byte = 0x62 || byte = 0x66 || byte = 0x6E ||
    byte = 0x72 || byte = 0x74

/-- The inside of a string, and what follows its closing quote. -/
def scanString : List UInt8 → Option (List UInt8 × List UInt8)
  | [] => none
  | 0x22 :: rest => some ([], rest)
  | 0x5C :: 0x75 :: a :: b :: c :: d :: rest =>
      if isHexDigit a && isHexDigit b && isHexDigit c && isHexDigit d then
        (scanString rest).map fun found => (0x5C :: 0x75 :: a :: b :: c :: d :: found.1, found.2)
      else none
  | 0x5C :: letter :: rest =>
      if isEscapeLetter letter then
        (scanString rest).map fun found => (0x5C :: letter :: found.1, found.2)
      else none
  | byte :: rest =>
      if byte < 0x20 || byte = 0x5C then none
      else (scanString rest).map fun found => (byte :: found.1, found.2)

def scanDigits? (bytes : List UInt8) : Option (List UInt8 × List UInt8) :=
  let digits := bytes.takeWhile isDigit
  if digits.isEmpty then none else some (digits, bytes.dropWhile isDigit)

/-- The digits before the point: a zero alone, or a run that starts with another digit. -/
def scanWhole? : List UInt8 → Option (List UInt8 × List UInt8)
  | 0x30 :: rest => some ([0x30], rest)
  | bytes => scanDigits? bytes

/-- A point with digits after it, if there is a point. -/
def scanFraction? : List UInt8 → Option (List UInt8 × List UInt8)
  | 0x2E :: rest => (scanDigits? rest).map fun found => (0x2E :: found.1, found.2)
  | bytes => some ([], bytes)

def scanSigned? : List UInt8 → Option (List UInt8 × List UInt8)
  | [] => none
  | sign :: rest =>
      if sign = 0x2B || sign = 0x2D then
        (scanDigits? rest).map fun found => (sign :: found.1, found.2)
      else scanDigits? (sign :: rest)

/-- An exponent, if there is a letter that starts one. -/
def scanExponent? : List UInt8 → Option (List UInt8 × List UInt8)
  | [] => some ([], [])
  | letter :: rest =>
      if letter = 0x65 || letter = 0x45 then
        (scanSigned? rest).map fun found => (letter :: found.1, found.2)
      else some ([], letter :: rest)

def scanUnsigned? (bytes : List UInt8) : Option (List UInt8 × List UInt8) := do
  let (whole, rest) ← scanWhole? bytes
  let (fraction, rest) ← scanFraction? rest
  let (exponent, rest) ← scanExponent? rest
  return (whole ++ fraction ++ exponent, rest)

def scanNumber? : List UInt8 → Option (List UInt8 × List UInt8)
  | 0x2D :: rest => (scanUnsigned? rest).map fun found => (0x2D :: found.1, found.2)
  | bytes => scanUnsigned? bytes

/-- The token at the start of some bytes, and what follows it. -/
def scanToken? : List UInt8 → Option (Token × List UInt8)
  | 0x7B :: rest => some (.openObject, rest)
  | 0x7D :: rest => some (.closeObject, rest)
  | 0x5B :: rest => some (.openArray, rest)
  | 0x5D :: rest => some (.closeArray, rest)
  | 0x2C :: rest => some (.comma, rest)
  | 0x3A :: rest => some (.colon, rest)
  | 0x22 :: rest => (scanString rest).map fun found => (.string found.1, found.2)
  | 0x6E :: 0x75 :: 0x6C :: 0x6C :: rest => some (.null, rest)
  | 0x74 :: 0x72 :: 0x75 :: 0x65 :: rest => some (.bool true, rest)
  | 0x66 :: 0x61 :: 0x6C :: 0x73 :: 0x65 :: rest => some (.bool false, rest)
  | bytes => (scanNumber? bytes).map fun found => (.number found.1, found.2)

/-- Nothing is lost and nothing added: what was scanned and what is left are the input. -/
theorem scanString_append {bytes spelling rest : List UInt8}
    (found : scanString bytes = some (spelling, rest)) : bytes = spelling ++ 0x22 :: rest := by
  fun_induction scanString bytes generalizing spelling rest
  case case2 => simp_all
  case case3 ih =>
    simp only [Option.map_eq_some_iff, Prod.mk.injEq, Prod.exists] at found
    obtain ⟨inner, after, scanned, rfl, rfl⟩ := found
    simp [ih scanned]
  case case5 ih =>
    simp only [Option.map_eq_some_iff, Prod.mk.injEq, Prod.exists] at found
    obtain ⟨inner, after, scanned, rfl, rfl⟩ := found
    simp [ih scanned]
  case case8 ih =>
    simp only [Option.map_eq_some_iff, Prod.mk.injEq, Prod.exists] at found
    obtain ⟨inner, after, scanned, rfl, rfl⟩ := found
    simp [ih scanned]
  all_goals simp at found

theorem scanDigits?_append {bytes digits rest : List UInt8}
    (found : scanDigits? bytes = some (digits, rest)) : bytes = digits ++ rest ∧ digits ≠ [] := by
  unfold scanDigits? at found
  dsimp only at found
  split at found
  · simp at found
  · next some_digits =>
      simp only [Option.some.injEq, Prod.mk.injEq] at found
      rw [← found.1, ← found.2, List.takeWhile_append_dropWhile]
      exact ⟨rfl, by simpa using some_digits⟩

theorem scanWhole?_append {bytes whole rest : List UInt8}
    (found : scanWhole? bytes = some (whole, rest)) : bytes = whole ++ rest ∧ whole ≠ [] := by
  unfold scanWhole? at found
  split at found
  · simp only [Option.some.injEq, Prod.mk.injEq] at found
    simp [← found.1, ← found.2]
  · exact scanDigits?_append found

theorem scanFraction?_append {bytes fraction rest : List UInt8}
    (found : scanFraction? bytes = some (fraction, rest)) : bytes = fraction ++ rest := by
  unfold scanFraction? at found
  split at found
  · simp only [Option.map_eq_some_iff, Prod.mk.injEq, Prod.exists] at found
    obtain ⟨digits, after, scanned, rfl, rfl⟩ := found
    simp [(scanDigits?_append scanned).1]
  · simp only [Option.some.injEq, Prod.mk.injEq] at found
    simp [← found.1, ← found.2]

theorem scanSigned?_append {bytes digits rest : List UInt8}
    (found : scanSigned? bytes = some (digits, rest)) : bytes = digits ++ rest := by
  unfold scanSigned? at found
  split at found
  · simp at found
  · split at found
    · simp only [Option.map_eq_some_iff, Prod.mk.injEq, Prod.exists] at found
      obtain ⟨run, after, scanned, rfl, rfl⟩ := found
      simp [(scanDigits?_append scanned).1]
    · exact (scanDigits?_append found).1

theorem scanExponent?_append {bytes exponent rest : List UInt8}
    (found : scanExponent? bytes = some (exponent, rest)) : bytes = exponent ++ rest := by
  unfold scanExponent? at found
  split at found
  · simp only [Option.some.injEq, Prod.mk.injEq] at found
    simp [← found.1, ← found.2]
  · split at found
    · simp only [Option.map_eq_some_iff, Prod.mk.injEq, Prod.exists] at found
      obtain ⟨digits, after, scanned, rfl, rfl⟩ := found
      simp [scanSigned?_append scanned]
    · simp only [Option.some.injEq, Prod.mk.injEq] at found
      simp [← found.1, ← found.2]

theorem scanUnsigned?_append {bytes spelling rest : List UInt8}
    (found : scanUnsigned? bytes = some (spelling, rest)) :
    bytes = spelling ++ rest ∧ spelling ≠ [] := by
  unfold scanUnsigned? at found
  simp only [Option.bind_eq_bind, Option.bind_eq_some_iff, Prod.exists, Option.pure_def,
    Option.some.injEq, Prod.mk.injEq] at found
  obtain ⟨whole, afterWhole, wholeFound, fraction, afterFraction, fractionFound, exponent,
    afterExponent, exponentFound, rfl, rfl⟩ := found
  obtain ⟨rfl, some_digits⟩ := scanWhole?_append wholeFound
  rw [scanFraction?_append fractionFound, scanExponent?_append exponentFound]
  simp [some_digits]

theorem scanNumber?_append {bytes spelling rest : List UInt8}
    (found : scanNumber? bytes = some (spelling, rest)) :
    bytes = spelling ++ rest ∧ spelling ≠ [] := by
  unfold scanNumber? at found
  split at found
  · simp only [Option.map_eq_some_iff, Prod.mk.injEq, Prod.exists] at found
    obtain ⟨digits, after, scanned, rfl, rfl⟩ := found
    simp [(scanUnsigned?_append scanned).1]
  · exact scanUnsigned?_append found

theorem length_scanToken?_lt {bytes rest : List UInt8} {token : Token}
    (found : scanToken? bytes = some (token, rest)) : rest.length < bytes.length := by
  unfold scanToken? at found
  split at found
  case h_7 =>
    simp only [Option.map_eq_some_iff, Prod.mk.injEq, Prod.exists] at found
    obtain ⟨spelling, after, scanned, _, rfl⟩ := found
    rw [scanString_append scanned]
    simp only [List.length_cons, List.length_append]
    omega
  case h_11 =>
    simp only [Option.map_eq_some_iff, Prod.mk.injEq, Prod.exists] at found
    obtain ⟨spelling, after, scanned, _, rfl⟩ := found
    obtain ⟨rfl, nonempty⟩ := scanNumber?_append scanned
    have := List.length_pos_iff.mpr nonempty
    simp only [List.length_append]
    omega
  all_goals
    simp only [Option.some.injEq, Prod.mk.injEq] at found
    rw [← found.2]
    simp only [List.length_cons]
    omega

/-- All tokens of a text, with any white space between them. -/
def tokens? : List UInt8 → Option (List Token)
  | [] => some []
  | byte :: rest =>
      if isSpace byte then tokens? rest
      else
        match _found : scanToken? (byte :: rest) with
        | none => none
        | some (token, after) => (tokens? after).map (token :: ·)
termination_by bytes => bytes.length
decreasing_by
  · simp
  · exact length_scanToken?_lt (by assumption)

end CheckRounds.Json
