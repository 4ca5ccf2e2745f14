namespace CheckRounds

/-! JSON text as it is written: compact, strings escaped as little as JSON allows.

Text is kept as its UTF-8 bytes.  Only ASCII bytes are ever escaped, so escaping byte
by byte keeps characters of several bytes as they are.
-/

def utf8 (text : String) : List UInt8 := text.toUTF8.data.toList

/-- The string with the given UTF-8 bytes, if they are UTF-8. -/
def ofUtf8? (bytes : List UInt8) : Option String := String.fromUTF8? ⟨bytes.toArray⟩

namespace Json

/-- The hexadecimal digit, in small letters, of a number below 16. -/
def hexDigit (value : UInt8) : UInt8 := if value < 10 then 0x30 + value else 0x57 + value

/-- Quotes and backslashes take a backslash; control bytes a letter where JSON has one
and four hexadecimal digits otherwise. -/
def escapeByte (byte : UInt8) : List UInt8 :=
  if byte = 0x22 then [0x5C, 0x22]
  else if byte = 0x5C then [0x5C, 0x5C]
  else if 0x20 ≤ byte then [byte]
  else if byte = 0x08 then [0x5C, 0x62]
  else if byte = 0x0C then [0x5C, 0x66]
  else if byte = 0x0A then [0x5C, 0x6E]
  else if byte = 0x0D then [0x5C, 0x72]
  else if byte = 0x09 then [0x5C, 0x74]
  else [0x5C, 0x75, 0x30, 0x30, hexDigit (byte / 16), hexDigit (byte % 16)]

def escape (bytes : List UInt8) : List UInt8 := bytes.flatMap escapeByte

def quote (bytes : List UInt8) : List UInt8 := 0x22 :: escape bytes ++ [0x22]

def writeString (text : String) : List UInt8 := quote (utf8 text)

def writeInt (value : Int) : List UInt8 := utf8 (toString value)

def commaSeparated : List (List UInt8) → List UInt8
  | [] => []
  | [last] => last
  | first :: rest => first ++ 0x2C :: commaSeparated rest

def writeArray (items : List (List UInt8)) : List UInt8 := 0x5B :: commaSeparated items ++ [0x5D]

def writeObject (members : List (String × List UInt8)) : List UInt8 :=
  0x7B :: commaSeparated (members.map fun member => writeString member.1 ++ 0x3A :: member.2) ++ [0x7D]

end Json

end CheckRounds
