import CheckRounds.Proofs.Json.Fields
import CheckRounds.Proofs.Message.Reply
import CheckRounds.Proofs.Number.Numerals
import CheckRounds.Proofs.Text.Blanks

namespace CheckRounds

/-! Marching orders are read as they are meant, however their reply is written, and a delay that
is no number of seconds makes the whole reply unreadable.
-/

open Json (HasField HasFields SpellsText Tree Writes)

/-! ### Numerals -/

/-- Digits with a plus sign in front or none, and blanks around them. -/
structure IsNumeral (text : List Char) (number : Nat) : Prop where
  shape : ∃ lead sign digits gap, text = lead ++ (sign ++ digits) ++ gap ∧
    lead.all Text.isBlank = true ∧ gap.all Text.isBlank = true ∧ (sign = [] ∨ sign = ['+']) ∧
    digits ≠ [] ∧ digits.all Char.isDigit = true ∧ digitsValue digits = number
  fits : number < wordLimit

theorem readNumeral?_trimList_eq_some_iff {text : List Char} {number : Nat} :
    readNumeral? (Text.trimList text) = some number ↔ IsNumeral text number := by
  constructor
  · intro read
    obtain ⟨sign, digits, same, isSign, some_digits, allDigits, value, fits⟩ :=
      readNumeral?_eq_some_iff.mp read
    obtain ⟨lead, gap, shape, blankLead, blankGap, _⟩ := Text.exists_blanks text
    rw [same] at shape
    exact ⟨⟨lead, sign, digits, gap, shape, blankLead, blankGap, isSign, some_digits, allDigits, value⟩,
      fits⟩
  · intro ⟨⟨lead, sign, digits, gap, shape, blankLead, blankGap, isSign, some_digits, allDigits, value⟩,
      fits⟩
    have solid : ∀ c ∈ sign ++ digits, Text.isBlank c = false := by
      intro c inside
      rcases List.mem_append.mp inside with inSign | inDigits
      · rcases isSign with rfl | rfl
        · contradiction
        · rw [List.mem_singleton.mp inSign]
          decide
      · exact Text.not_isBlank_of_isDigit (List.all_eq_true.mp allDigits c inDigits)
    rw [shape, Text.trimList_append blankLead blankGap (Text.solidEnds_of_all solid)]
    exact readNumeral?_eq_some_iff.mpr ⟨sign, digits, rfl, isSign, some_digits, allDigits, value, fits⟩

/-! ### Fields of orders and replies -/

/-- A string under a name, however it is spelled. -/
def HasText (fields : List (String × Tree)) (name text : String) : Prop :=
  ∃ spelling, (name, .string spelling) ∈ fields ∧ SpellsText spelling text.toList

/-- An integer of 64 bits without sign, fraction or exponent. -/
inductive IsCount : Tree → Nat → Prop
  | digits {spelling : List UInt8} (all : spelling.all Json.isDigit = true)
      (fits : Json.digitsOf spelling < wordLimit) :
      IsCount (.number spelling) (Json.digitsOf spelling)

/-- A count under a name, or no such name for zero. -/
def HasCount (fields : List (String × Tree)) (name : String) (count : Nat) : Prop :=
  (∃ value, (name, value) ∈ fields ∧ IsCount value count) ∨
    count = 0 ∧ ∀ value, (name, value) ∉ fields

/-- A number of seconds, by itself or as a numeral in a string. -/
inductive IsDelay : Tree → Nat → Prop
  | count {value : Tree} {delay : Nat} (isCount : IsCount value delay) : IsDelay value delay
  | text {spelling : List UInt8} {text : List Char} {delay : Nat} (spells : SpellsText spelling text)
      (isNumeral : IsNumeral text delay) : IsDelay (.string spelling) delay

namespace Order

def names : List String := ["key", "delay", "lastlogsize", "mtime"]

structure ToldBy (fields : List (String × Tree)) (order : Order) : Prop where
  key : HasText fields "key" order.key
  delay : ∃ value, ("delay", value) ∈ fields ∧ IsDelay value order.delay
  lastLogSize : HasCount fields "lastlogsize" order.lastLogSize
  mtime : HasCount fields "mtime" order.mtime

/-- An object tells an order by its fields, among any others. -/
def Tells (tree : Tree) (order : Order) : Prop :=
  ∃ fields, HasFields names tree fields ∧ ToldBy fields order

end Order

namespace Reply

def names : List String := ["response", "info", "data"]

structure ToldBy (fields : List (String × Tree)) (orders : List Order) : Prop where
  response : HasText fields "response" "success"
  data : ∃ entries, ("data", .array entries) ∈ fields ∧ List.Forall₂ Order.Tells entries orders
  info : (∀ value, ("info", value) ∉ fields) ∨ ("info", .null) ∈ fields ∨
    ∃ text, HasText fields "info" text

def Tells (tree : Tree) (orders : List Order) : Prop :=
  ∃ fields, HasFields names tree fields ∧ ToldBy fields orders

end Reply

/-! ### Reading -/

section

variable {names : List String} {name text : String} {tree value : Tree}
  {fields : List (String × Tree)} {count delay : Nat}

theorem HasText.required?_eq (told : HasText fields name text) (has : HasFields names tree fields)
    (known : name ∈ names) :
    Tree.required? Tree.text? (Json.knownFields names fields) name = some text := by
  obtain ⟨spelling, inside, spells⟩ := told
  rw [Tree.required?, has.lookup_eq_some known inside]
  exact spells.decodeString?_eq

theorem natural?_eq_some_iff : value.natural? = some count ↔ IsCount value count := by
  constructor
  · intro read
    cases value with
    | number spelling =>
        rw [Tree.natural?, Option.ite_none_right_eq_some, Option.ite_none_right_eq_some] at read
        obtain ⟨all, fits, same⟩ := read
        cases same
        exact .digits all fits
    | _ => contradiction
  · intro isCount
    cases isCount with
    | digits all fits => rw [Tree.natural?, if_pos all, if_pos fits]

theorem HasCount.defaulted?_eq (told : HasCount fields name count) (has : HasFields names tree fields)
    (known : name ∈ names) :
    Tree.defaulted? Tree.natural? 0 (Json.knownFields names fields) name = some count := by
  rcases told with ⟨value, inside, isCount⟩ | ⟨rfl, absent⟩
  · rw [Tree.defaulted?, has.lookup_eq_some known inside]
    exact natural?_eq_some_iff.mpr isCount
  · rw [Tree.defaulted?, Json.lookup_knownFields_eq_none absent]

theorem IsDelay.readDelay?_eq (isDelay : IsDelay value delay) : Order.readDelay? value = some delay := by
  cases isDelay with
  | count isCount =>
      cases isCount with
      | digits all fits => exact natural?_eq_some_iff.mpr (.digits all fits)
  | @text spelling text _ spells isNumeral =>
      have decoded : Tree.text? (.string spelling) = some (String.ofList text) :=
        SpellsText.decodeString?_eq (by rwa [String.toList_ofList])
      rw [Order.readDelay?, decoded, Option.bind_some, String.toList_ofList]
      exact readNumeral?_trimList_eq_some_iff.mpr isNumeral

theorem isDelay_of_readDelay? {part : List UInt8} (writes : Writes value part)
    (read : Order.readDelay? value = some delay) : IsDelay value delay := by
  cases value with
  | string spelling =>
      obtain ⟨text, decoded, isNumeral⟩ := Option.bind_eq_some_iff.mp read
      have spells := writes.isSpelling.decodeString?_eq_some_iff.mp decoded
      exact .text spells (readNumeral?_trimList_eq_some_iff.mp isNumeral)
  | _ => exact .count (natural?_eq_some_iff.mp read)

theorem Order.Tells.read?_eq {order : Order} (tells : Order.Tells tree order) :
    Order.read? tree = some order := by
  obtain ⟨fields, has, told⟩ := tells
  obtain ⟨value, inside, isDelay⟩ := told.delay
  have known : tree.fields? ["key", "delay", "lastlogsize", "mtime"] 2 =
      some (Json.knownFields Order.names fields) := has.fields?_eq 2
  have key := told.key.required?_eq has (by decide)
  have delay : Tree.required? Order.readDelay? (Json.knownFields Order.names fields) "delay" =
      some order.delay := by
    rw [Tree.required?, has.lookup_eq_some (by decide) inside]
    exact isDelay.readDelay?_eq
  have lastLogSize := told.lastLogSize.defaulted?_eq has (by decide)
  have mtime := told.mtime.defaulted?_eq has (by decide)
  rw [Order.read?, known]
  simp [key, delay, lastLogSize, mtime]

theorem list?_eq_of_tells {entries : List Tree} {orders : List Order}
    (tells : List.Forall₂ Order.Tells entries orders) :
    Tree.list? Order.read? (.array entries) = some orders := by
  rw [Tree.list?]
  induction tells with
  | nil => rfl
  | cons first _ ih =>
      rw [List.mapM_cons, first.read?_eq, ih]
      rfl

theorem Reply.ToldBy.info?_eq {orders : List Order} (told : Reply.ToldBy fields orders)
    (has : HasFields Reply.names tree fields) :
    ∃ info, Tree.defaulted? (Tree.optional? Tree.text?) none (Json.knownFields Reply.names fields)
      "info" = some info := by
  rcases told.info with absent | inside | ⟨text, spelling, inside, spells⟩
  · rw [Tree.defaulted?, Json.lookup_knownFields_eq_none absent]
    exact ⟨none, rfl⟩
  · rw [Tree.defaulted?, has.lookup_eq_some (by decide) inside]
    exact ⟨none, rfl⟩
  · rw [Tree.defaulted?, has.lookup_eq_some (by decide) inside]
    exact ⟨some text, congrArg (Option.map some) spells.decodeString?_eq⟩

theorem Reply.Tells.read?_eq {orders : List Order} (tells : Reply.Tells tree orders) :
    ∃ info, Reply.read? tree = some ⟨"success", info, some orders⟩ := by
  obtain ⟨fields, has, told⟩ := tells
  obtain ⟨entries, inside, each⟩ := told.data
  obtain ⟨info, readInfo⟩ := told.info?_eq has
  have known : tree.fields? ["response", "info", "data"] 1 =
      some (Json.knownFields Reply.names fields) := has.fields?_eq 1
  have response := told.response.required?_eq has (by decide)
  have data : Tree.defaulted? (Tree.optional? (Tree.list? Order.read?)) none
      (Json.knownFields Reply.names fields) "data" = some (some orders) := by
    rw [Tree.defaulted?, has.lookup_eq_some (by decide) inside]
    exact congrArg (Option.map some) (list?_eq_of_tells each)
  refine ⟨info, ?_⟩
  rw [Reply.read?, known]
  simp [response, readInfo, data]

end

namespace Reply

theorem marchingOrders_of_tells {tree : Tree} {payload : List UInt8} {orders : List Order}
    (writes : Writes tree payload) (tells : Tells tree orders) (host : String) :
    ∃ reply, parse payload = .ok reply ∧ reply.marchingOrders host = .ok orders := by
  obtain ⟨info, read⟩ := tells.read?_eq
  refine ⟨⟨"success", info, some orders⟩, ?_, rfl⟩
  rw [parse, writes.parse?_eq, Option.bind_some, read]

/-- An order is not read without its delay. -/
theorem read?_order_eq_none {entry value : Tree}
    (has : HasField Order.names "delay" value entry) (unread : Order.readDelay? value = none) :
    Order.read? entry = none := by
  rw [Order.read?]
  cases known : entry.fields? ["key", "delay", "lastlogsize", "mtime"] 2 with
  | none => rfl
  | some fields =>
      have found : fields.lookup "delay" = some value := has.lookup_eq_some (by decide) (by decide) known
      have delay : Tree.required? Order.readDelay? fields "delay" = none := by
        rw [Tree.required?, found]
        exact unread
      simp [delay]

theorem parse_of_no_delay {tree entry value : Tree} {payload : List UInt8} {entries : List Tree}
    (writes : Writes tree payload) (data : HasField names "data" (.array entries) tree)
    (inside : entry ∈ entries) (has : HasField Order.names "delay" value entry)
    (noDelay : ∀ delay, ¬IsDelay value delay) : parse payload = .error (.protocol .malformedJson) := by
  obtain ⟨_, writesData⟩ := data.exists_text writes
  obtain ⟨_, writesEntry⟩ := writesData.exists_item inside
  obtain ⟨_, writesValue⟩ := has.exists_text writesEntry
  have unread : Order.readDelay? value = none := by
    rw [Option.eq_none_iff_forall_ne_some]
    exact fun delay read => noDelay delay (isDelay_of_readDelay? writesValue read)
  cases known : tree.fields? ["response", "info", "data"] 1 with
  | none =>
      rw [parse, writes.parse?_eq, Option.bind_some, read?, known]
      rfl
  | some fields =>
      have found : fields.lookup "data" = some (.array entries) :=
        data.lookup_eq_some (by decide) (by decide) known
      exact parse_of_malformed ⟨tree, fields, entries, writes.parse?_eq, known, found, inside⟩
        (read?_order_eq_none has unread)

/-- However the orders are written, they are read as they are, one for one and in their order; and
one entry whose delay is no number of seconds makes the whole reply an error. -/
theorem reads_orders_as_written :
    (∀ (host : String) (orders : List Order) (tree : Tree) (payload : List UInt8),
      Writes tree payload → Tells tree orders →
        ∃ reply, parse payload = .ok reply ∧ reply.marchingOrders host = .ok orders) ∧
      ∀ (tree : Tree) (payload : List UInt8) (entries : List Tree) (entry value : Tree),
        Writes tree payload → HasField names "data" (.array entries) tree → entry ∈ entries →
          HasField Order.names "delay" value entry → (∀ delay, ¬IsDelay value delay) →
            parse payload = .error (.protocol .malformedJson) := by
  constructor
  · intro host orders tree payload writes tells
    exact marchingOrders_of_tells writes tells host
  · intro tree payload entries entry value writes data inside has noDelay
    exact parse_of_no_delay writes data inside has noDelay

theorem reads_order_with_escape_and_blanks :
    (∃ reply, parse (utf8
        "\x7b\"data\":[\x7b\"delay\":\" 60\", \"\\u006bey\":\"a\",\"x\":[]\x7d],\"response\":\"success\"\x7d") =
          .ok reply ∧ reply.marchingOrders "web" = .ok [⟨"a", 60, 0, 0⟩]) ∧
      parse (utf8 "\x7b\"response\":\"success\",\"data\":[\x7b\"delay\":-5\x7d]\x7d") =
        .error (.protocol .malformedJson) := by
  let member (name : String) (text : List UInt8) (tree : Tree) : Json.Labelled :=
    ⟨Json.writeString name, Json.escape (utf8 name), text, tree⟩
  let string (text : String) : Tree := .string (Json.escape (utf8 text))
  let object (members : List Json.Labelled) : Json.Item :=
    ⟨0x7B :: Json.commaSeparated (members.map Json.Labelled.written) ++ [0x7D],
      .object (members.map Json.Labelled.read)⟩
  let response := member "response" (Json.writeString "success") (string "success")
  let data (entry : Json.Item) := member "data" (Json.writeArray [entry.text]) (.array [entry.tree])
  have writesData (entry : Json.Item) (writes : Writes entry.tree entry.text) :
      Writes (.array [entry.tree]) (Json.writeArray [entry.text]) :=
    .array [entry] (List.forall_mem_singleton.mpr writes)
  constructor
  · let spelledKey : List UInt8 := [0x5C, 0x75, 0x30, 0x30, 0x36, 0x62, 0x65, 0x79]
    have spellsKey : SpellsText spelledKey "key".toList :=
      .cons (.unit rfl rfl) (Json.spellsText_escape "ey")
    let entry := object [member "delay" (Json.writeString " 60") (string " 60"),
      ⟨[0x20] ++ 0x22 :: spelledKey ++ 0x22 :: [], spelledKey, Json.writeString "a", string "a"⟩,
      member "x" ([0x5B] ++ [] ++ [0x5D]) (.array [])]
    have writesEntry : Writes entry.tree entry.text := by
      apply Writes.object
      · simp only [List.forall_mem_cons, List.not_mem_nil, false_imp_iff, implies_true, and_true]
        exact ⟨Json.isLabel_writeString _, .quoted spellsKey.isSpelling rfl rfl,
          Json.isLabel_writeString _⟩
      · simp only [List.forall_mem_cons, List.not_mem_nil, false_imp_iff, implies_true, and_true]
        exact ⟨Json.writes_writeString _, Json.writes_writeString _, .emptyArray rfl⟩
    have writes : Writes (object [data entry, response]).tree (object [data entry, response]).text := by
      apply Writes.object
      · simp only [List.forall_mem_cons, List.not_mem_nil, false_imp_iff, implies_true, and_true]
        exact ⟨Json.isLabel_writeString _, Json.isLabel_writeString _⟩
      · simp only [List.forall_mem_cons, List.not_mem_nil, false_imp_iff, implies_true, and_true]
        exact ⟨writesData entry writesEntry, Json.writes_writeString _⟩
    have isDelay : IsDelay (string " 60") 60 := .text (Json.spellsText_escape " 60")
      ⟨⟨[' '], [], ['6', '0'], [], rfl, rfl, rfl, .inl rfl, by decide, rfl, rfl⟩, by decide⟩
    have tellsOrder : Order.Tells entry.tree ⟨"a", 60, 0, 0⟩ := by
      refine ⟨[("delay", string " 60"), ("key", string "a"), ("x", .array [])], ⟨⟨_, rfl, ?_⟩, ?_⟩, ?_⟩
      · exact .cons ⟨Json.spellsText_escape _, rfl⟩ (.cons ⟨spellsKey, rfl⟩
          (.cons ⟨Json.spellsText_escape _, rfl⟩ .nil))
      · decide
      · exact {
          key := ⟨_, by simp [string], Json.spellsText_escape "a"⟩
          delay := ⟨_, List.mem_cons_self, isDelay⟩
          lastLogSize := .inr ⟨rfl, by simp⟩
          mtime := .inr ⟨rfl, by simp⟩ }
    have tells : Tells (object [data entry, response]).tree [⟨"a", 60, 0, 0⟩] := by
      refine ⟨[("data", .array [entry.tree]), ("response", string "success")], ⟨⟨_, rfl, ?_⟩, ?_⟩, ?_⟩
      · exact .cons ⟨Json.spellsText_escape _, rfl⟩ (.cons ⟨Json.spellsText_escape _, rfl⟩ .nil)
      · decide
      · exact {
          response := ⟨_, by simp [string], Json.spellsText_escape "success"⟩
          data := ⟨_, List.mem_cons_self, .cons tellsOrder .nil⟩
          info := .inl (by simp) }
    exact reads_orders_as_written.1 "web" _ _ _ writes tells
  · let minusFive : Tree := .number (Json.writeInt (-5))
    let entry := object [member "delay" (Json.writeInt (-5)) minusFive]
    have writesEntry : Writes entry.tree entry.text := by
      apply Writes.object
      · exact List.forall_mem_singleton.mpr (Json.isLabel_writeString _)
      · exact List.forall_mem_singleton.mpr (.number (Json.isNumber_writeInt (-5)))
    have writes : Writes (object [response, data entry]).tree (object [response, data entry]).text := by
      apply Writes.object
      · simp only [List.forall_mem_cons, List.not_mem_nil, false_imp_iff, implies_true, and_true]
        exact ⟨Json.isLabel_writeString _, Json.isLabel_writeString _⟩
      · simp only [List.forall_mem_cons, List.not_mem_nil, false_imp_iff, implies_true, and_true]
        exact ⟨Json.writes_writeString _, writesData entry writesEntry⟩
    have noDelay : ∀ delay, ¬IsDelay minusFive delay := by
      intro delay isDelay
      have unread : Order.readDelay? minusFive = none := by decide +kernel
      rw [isDelay.readDelay?_eq] at unread
      contradiction
    exact reads_orders_as_written.2 _ _ [entry.tree] entry.tree minusFive writes
      (.member (List.mem_cons_of_mem _ List.mem_cons_self) (Json.spellsText_escape _))
      List.mem_cons_self (.member List.mem_cons_self (Json.spellsText_escape _)) noDelay

end Reply

end CheckRounds
