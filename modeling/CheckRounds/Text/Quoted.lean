import CheckRounds.Text.Shown

namespace CheckRounds.Text

/-! Text in double quotes, as diagnostics show it: what cannot be shown by itself is
written as an escape. -/

def hexDigits (number : Nat) : String := String.ofList (Nat.toDigits 16 number)

def showChar (c : Char) : String :=
  if c = '\x00' then "\\0"
  else if c = '\t' then "\\t"
  else if c = '\r' then "\\r"
  else if c = '\n' then "\\n"
  else if c = '\\' then "\\\\"
  else if c = '"' then "\\\""
  else if isShown c then c.toString
  else "\\u\x7b" ++ hexDigits c.toNat ++ "\x7d"

def quoted (text : String) : String :=
  "\"" ++ String.join (text.toList.map showChar) ++ "\""

def listed (opening closing : String) (items : List String) : String :=
  opening ++ ", ".intercalate items ++ closing

/-- A named group of fields: `Name { first: .., second: .. }`. -/
def record (name : String) (fields : List (String × String)) : String :=
  name ++ " \x7b " ++ ", ".intercalate (fields.map fun field => field.1 ++ ": " ++ field.2) ++ " \x7d"

end CheckRounds.Text
