import CheckRounds.Json.Text
import CheckRounds.Json.Token
import CheckRounds.Number.Words

namespace CheckRounds.Json

/-! JSON text as a tree, and the typed readings of its nodes.

The tree is built by a machine that takes one token after the other and keeps the
containers that are still open on a stack, so nesting may be of any depth.  Strings
are decoded when they are read: a string that nobody reads need not be UTF-8.
-/

inductive Tree
  | null
  | bool (value : Bool)
  | number (spelling : List UInt8)
  | string (spelling : List UInt8)
  | array (items : List Tree)
  | object (members : List (List UInt8 × Tree))
deriving Repr

instance : Inhabited Tree := ⟨.null⟩

/-- A container that is still open, with what was read of it, the latest first; an
object also has the key whose value comes next. -/
inductive Container
  | array (items : List Tree)
  | object (members : List (List UInt8 × Tree)) (key : List UInt8)

/-- What the text read so far asks for.  `complete` asks for nothing more. -/
inductive Reading
  | needsValue (stack : List Container)
  | needsFirstItem (stack : List Container)
  | needsFirstKey (stack : List Container)
  | needsKey (members : List (List UInt8 × Tree)) (stack : List Container)
  | needsColon (members : List (List UInt8 × Tree)) (key : List UInt8) (stack : List Container)
  | afterItem (items : List Tree) (stack : List Container)
  | afterMember (members : List (List UInt8 × Tree)) (stack : List Container)
  | complete (tree : Tree)

namespace Reading

/-- Hands a finished value to the innermost open container. -/
def finish (tree : Tree) : List Container → Reading
  | [] => .complete tree
  | .array items :: stack => .afterItem (tree :: items) stack
  | .object members key :: stack => .afterMember ((key, tree) :: members) stack

/-- Takes the first token of a value. -/
def start? (stack : List Container) : Token → Option Reading
  | .null => some (finish .null stack)
  | .bool value => some (finish (.bool value) stack)
  | .number spelling => some (finish (.number spelling) stack)
  | .string spelling => some (finish (.string spelling) stack)
  | .openArray => some (.needsFirstItem stack)
  | .openObject => some (.needsFirstKey stack)
  | _ => none

def step? : Reading → Token → Option Reading
  | .needsValue stack, token => start? stack token
  | .needsFirstItem stack, .closeArray => some (finish (.array []) stack)
  | .needsFirstItem stack, token => start? (.array [] :: stack) token
  | .needsFirstKey stack, .closeObject => some (finish (.object []) stack)
  | .needsFirstKey stack, .string key => some (.needsColon [] key stack)
  | .needsKey members stack, .string key => some (.needsColon members key stack)
  | .needsColon members key stack, .colon => some (.needsValue (.object members key :: stack))
  | .afterItem items stack, .comma => some (.needsValue (.array items :: stack))
  | .afterItem items stack, .closeArray => some (finish (.array items.reverse) stack)
  | .afterMember members stack, .comma => some (.needsKey members stack)
  | .afterMember members stack, .closeObject => some (finish (.object members.reverse) stack)
  | _, _ => none

end Reading

/-- The tree that some tokens spell, if they spell exactly one. -/
def Tree.ofTokens? (tokens : List Token) : Option Tree :=
  match tokens.foldlM Reading.step? (.needsValue []) with
  | some (.complete tree) => some tree
  | _ => none

def Tree.parse? (bytes : List UInt8) : Option Tree := (tokens? bytes).bind Tree.ofTokens?

def hexValue (digit : UInt8) : Nat :=
  if isDigit digit then digit.toNat - 0x30
  else if 0x61 ≤ digit then digit.toNat - 0x57
  else digit.toNat - 0x37

/-- The 16-bit unit that four hexadecimal digits spell. -/
def unitValue (a b c d : UInt8) : Nat :=
  ((hexValue a * 16 + hexValue b) * 16 + hexValue c) * 16 + hexValue d

/-- The byte that a letter behind a backslash stands for. -/
def escapedByte (letter : UInt8) : UInt8 :=
  if letter = 0x62 then 0x08
  else if letter = 0x66 then 0x0C
  else if letter = 0x6E then 0x0A
  else if letter = 0x72 then 0x0D
  else if letter = 0x74 then 0x09
  else letter

def utf8OfCode (code : Nat) : List UInt8 := utf8 (Char.ofNat code).toString

/-- The bytes that the inside of a string spells.  Surrogates must come in pairs. -/
def unescape? : List UInt8 → Option (List UInt8)
  | [] => some []
  | 0x5C :: 0x75 :: a :: b :: c :: d :: rest =>
      let unit := unitValue a b c d
      if unit < 0xD800 || 0xE000 ≤ unit then (unescape? rest).map (utf8OfCode unit ++ ·)
      else if 0xDC00 ≤ unit then none
      else
        match rest with
        | 0x5C :: 0x75 :: e :: f :: g :: h :: rest =>
            let second := unitValue e f g h
            if 0xDC00 ≤ second && second < 0xE000 then
              (unescape? rest).map
                (utf8OfCode (0x10000 + (unit - 0xD800) * 0x400 + (second - 0xDC00)) ++ ·)
            else none
        | _ => none
  | 0x5C :: letter :: rest => (unescape? rest).map (escapedByte letter :: ·)
  | byte :: rest => (unescape? rest).map (byte :: ·)

/-- The string that is spelled between two quotes. -/
def decodeString? (spelling : List UInt8) : Option String := (unescape? spelling).bind ofUtf8?

namespace Tree

def text? : Tree → Option String
  | .string spelling => decodeString? spelling
  | _ => none

/-- A number written with digits alone that fits into 64 bits. -/
def natural? : Tree → Option Nat
  | .number spelling =>
      if spelling.all isDigit then
        if digitsOf spelling < wordLimit then some (digitsOf spelling) else none
      else none
  | _ => none

/-- A number written with digits alone, or with digits behind a minus sign. -/
def integer? : Tree → Option Int
  | .number (0x2D :: digits) => (natural? (.number digits)).map fun value => -(value : Int)
  | tree => tree.natural?.map Int.ofNat

/-- The members of an object, by their names; nothing else has any. -/
def members : Tree → List (String × Tree)
  | .object members => members.filterMap fun member => (decodeString? member.1).map (·, member.2)
  | _ => []

def items : Tree → List Tree
  | .array items => items
  | _ => []

/-- The member with a name, or `null`. -/
def member (tree : Tree) (name : String) : Tree := (tree.members.lookup name).getD .null

def isNull : Tree → Bool
  | .null => true
  | _ => false

def optional? {α : Type} (read? : Tree → Option α) : Tree → Option (Option α)
  | .null => some none
  | tree => (read? tree).map some

def list? {α : Type} (read? : Tree → Option α) : Tree → Option (List α)
  | .array items => items.mapM read?
  | _ => none

/-- A name by itself or as the key of an object whose one value is `null`. -/
def name? : Tree → Option String
  | .string spelling => decodeString? spelling
  | .object [(key, .null)] => decodeString? key
  | _ => none

/-- The fields of a record that are known by name.  Unknown members are passed over,
but no known one may come twice.  A record can also be an array of its fields in
order, of which the last ones may be absent. -/
def fields? (names : List String) (required : Nat) : Tree → Option (List (String × Tree))
  | .array items =>
      if required ≤ items.length ∧ items.length ≤ names.length then some (names.zip items) else none
  | .object members => do
      let named ← members.mapM fun member => (decodeString? member.1).map (·, member.2)
      let known := named.filter fun member => names.contains member.1
      if (known.map (·.1)).Nodup then some known else none
  | _ => none

def required? {α : Type} (read? : Tree → Option α) (fields : List (String × Tree))
    (name : String) : Option α := (fields.lookup name).bind read?

def defaulted? {α : Type} (read? : Tree → Option α) (default : α) (fields : List (String × Tree))
    (name : String) : Option α :=
  match fields.lookup name with
  | none => some default
  | some tree => read? tree

end Tree

end CheckRounds.Json
