namespace CheckRounds.Text

/-! White space in the sense of the Unicode property `White_Space`, and the text
that is left when it is taken away from both ends. -/

def isBlank (c : Char) : Bool :=
  let code := c.toNat
  (9 ≤ code && code ≤ 13) || code == 0x20 || code == 0x85 || code == 0xA0 || code == 0x1680 ||
    (0x2000 ≤ code && code ≤ 0x200A) || code == 0x2028 || code == 0x2029 || code == 0x202F ||
    code == 0x205F || code == 0x3000

def skipBlanks (text : List Char) : List Char := text.dropWhile isBlank

def dropLastBlanks (text : List Char) : List Char := (text.reverse.dropWhile isBlank).reverse

def trimList (text : List Char) : List Char := dropLastBlanks (skipBlanks text)

def trim (text : String) : String := String.ofList (trimList text.toList)

def isBlankText (text : String) : Bool := text.toList.all isBlank

end CheckRounds.Text
