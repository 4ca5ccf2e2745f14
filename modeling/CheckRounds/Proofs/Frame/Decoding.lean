import CheckRounds.Proofs.Frame

namespace CheckRounds.Frame

/-! What is taken for a frame, and why nothing else is.

Bytes are decoded just when they start with the frame of a payload that is not too long.  All
other bytes are told apart by what is missing or wrong in them first.  Decoding never looks at
bytes that are not there, and loses nothing of a length when it is kept in a word.
-/

variable {bytes payload found field body : List UInt8} {byte : UInt8} {fault : ProtocolFault}

/-! ### The parts of bytes that are long enough for a lead -/

/-- Bytes fall into four for the magic, one for the version, eight for the length, and the body. -/
structure Parts (bytes found : List UInt8) (byte : UInt8) (field body : List UInt8) : Prop where
  whole : bytes = found ++ byte :: (field ++ body)
  four : found.length = 4
  eight : field.length = lengthFieldLength

theorem exists_parts (long : leadLength ≤ bytes.length) :
    ∃ found byte field body, Parts bytes found byte field body := by
  have lead := split_lead (List.length_take_of_le long)
  refine ⟨(bytes.take leadLength).take 4, (bytes.take leadLength).getD 4 0,
    ((bytes.take leadLength).drop headerLength).take lengthFieldLength, bytes.drop leadLength, ?_, ?_, ?_⟩
  · conv => lhs; rw [← List.take_append_drop leadLength bytes, lead]
    simp only [List.append_assoc, List.cons_append]
  · simp only [List.length_take, leadLength] at long ⊢
    omega
  · simp only [List.length_take, List.length_drop, leadLength, headerLength, lengthFieldLength] at long ⊢
    omega

theorem parts_of_lead {length : Nat} :
    Parts (header ++ littleEndian lengthFieldLength length ++ body) magic version
      (littleEndian lengthFieldLength length) body :=
  ⟨by simp [header], rfl, length_littleEndian _ _⟩

namespace Parts

theorem length_lead (parts : Parts bytes found byte field body) :
    (found ++ byte :: field).length = leadLength := by
  rw [List.length_append, List.length_cons, parts.four, parts.eight]
  rfl

theorem split (parts : Parts bytes found byte field body) :
    bytes = (found ++ byte :: field) ++ body := by simp [parts.whole]

theorem long (parts : Parts bytes found byte field body) : ¬bytes.length < leadLength := by
  rw [parts.split, List.length_append, parts.length_lead]
  omega

theorem lead (parts : Parts bytes found byte field body) :
    bytes.take leadLength = found ++ byte :: field := by
  rw [parts.split, List.take_left' parts.length_lead]

theorem behind (parts : Parts bytes found byte field body) : bytes.drop leadLength = body := by
  rw [parts.split, List.drop_left' parts.length_lead]

theorem magic_eq (parts : Parts bytes found byte field body) : (found ++ byte :: field).take 4 = found :=
  List.take_left' parts.four

theorem version_eq (parts : Parts bytes found byte field body) :
    (found ++ byte :: field)[4]? = some byte := by
  rw [List.getElem?_append_right (Nat.le_of_eq parts.four), parts.four]
  rfl

theorem field_eq (parts : Parts bytes found byte field body) :
    (found ++ byte :: field).drop headerLength = field := by
  have whole : found ++ byte :: field = (found ++ [byte]) ++ field := by simp
  have length : (found ++ [byte]).length = headerLength := by
    rw [List.length_append, parts.four]
    rfl
  rw [whole, List.drop_left' length]

/-- What the lead announces depends on its three parts one after the other. -/
theorem announced_eq (parts : Parts bytes found byte field body) :
    announced (bytes.take leadLength) =
      if found ≠ magic then .error (.badMagic found)
      else if byte ≠ version then .error (.unsupportedVersion byte)
      else if payloadLimit < ofLittleEndian field then .error (.oversizedPayload (ofLittleEndian field))
      else .ok (ofLittleEndian field) := by
  have version : (found ++ byte :: field).getD 4 0 = byte := by
    rw [List.getD_eq_getElem?_getD, parts.version_eq]
    rfl
  have field' : ((found ++ byte :: field).drop headerLength).take lengthFieldLength = field := by
    rw [parts.field_eq, List.take_of_length_le (Nat.le_of_eq parts.eight)]
  rw [parts.lead, announced, parts.magic_eq, version, field']

theorem decode_eq (parts : Parts bytes found byte field body) :
    decode bytes =
      match announced (bytes.take leadLength) with
      | .error fault => .error fault
      | .ok length =>
          if body.length < length then .error (.truncatedFrame length body.length)
          else .ok (body.take length) := by
  rw [← parts.behind]
  exact if_neg parts.long

theorem ofLittleEndian_lt (parts : Parts bytes found byte field body) :
    ofLittleEndian field < wordLimit := by
  have small := CheckRounds.ofLittleEndian_lt field
  rw [parts.eight] at small
  exact Nat.lt_of_lt_of_le small (by decide)

/-- With the right magic and version, the bytes are told by the length in the field. -/
theorem eq_of_header (parts : Parts bytes magic version field body) :
    bytes = header ++ littleEndian lengthFieldLength (ofLittleEndian field) ++ body := by
  have same : littleEndian lengthFieldLength (ofLittleEndian field) = field := by
    rw [← parts.eight, littleEndian_ofLittleEndian]
  rw [same, parts.whole]
  simp [header]

end Parts

/-! ### Faults -/

/-- Why some bytes do not start with a frame: what is missing or wrong in them first. -/
inductive Refused (bytes : List UInt8) : ProtocolFault → Prop
  | short (cut : bytes.length < leadLength) : Refused bytes (.shortFrame bytes.length)
  | otherMagic {found rest : List UInt8} (long : leadLength ≤ bytes.length)
      (start : bytes = found ++ rest) (four : found.length = 4) (other : found ≠ magic) :
      Refused bytes (.badMagic found)
  | otherVersion {byte : UInt8} {rest : List UInt8} (long : leadLength ≤ bytes.length)
      (start : bytes = magic ++ byte :: rest) (other : byte ≠ version) :
      Refused bytes (.unsupportedVersion byte)
  | oversized {length : Nat} {rest : List UInt8} (word : length < wordLimit)
      (start : bytes = header ++ littleEndian lengthFieldLength length ++ rest)
      (beyond : payloadLimit < length) : Refused bytes (.oversizedPayload length)
  | truncated {length : Nat} {body : List UInt8} (fits : length ≤ payloadLimit)
      (start : bytes = header ++ littleEndian lengthFieldLength length ++ body)
      (cut : body.length < length) : Refused bytes (.truncatedFrame length body.length)

theorem refused_of_decode (failed : decode bytes = .error fault) : Refused bytes fault := by
  by_cases short : bytes.length < leadLength
  · rw [decode, if_pos short] at failed
    cases failed
    exact .short short
  · have long : leadLength ≤ bytes.length := Nat.le_of_not_lt short
    obtain ⟨found, byte, field, body, parts⟩ := exists_parts long
    rw [parts.decode_eq, parts.announced_eq] at failed
    by_cases sameMagic : found = magic
    · subst sameMagic
      by_cases sameVersion : byte = version
      · subst sameVersion
        by_cases beyond : payloadLimit < ofLittleEndian field
        · simp only [ne_eq, not_true_eq_false, if_false, if_pos beyond, Except.error.injEq] at failed
          subst failed
          exact .oversized parts.ofLittleEndian_lt parts.eq_of_header beyond
        · simp only [ne_eq, not_true_eq_false, if_false, if_neg beyond] at failed
          split at failed
          · next cut =>
              cases failed
              exact .truncated (Nat.le_of_not_lt beyond) parts.eq_of_header cut
          · contradiction
      · simp only [ne_eq, not_true_eq_false, if_false, sameVersion, not_false_eq_true, if_true,
          Except.error.injEq] at failed
        subst failed
        exact .otherVersion long parts.whole sameVersion
    · simp only [ne_eq, sameMagic, not_false_eq_true, if_true, Except.error.injEq] at failed
      subst failed
      exact .otherMagic long parts.whole parts.four sameMagic

theorem Refused.decode_eq (refused : Refused bytes fault) : decode bytes = .error fault := by
  cases refused with
  | short cut => rw [decode, if_pos cut]
  | @otherMagic found rest long start four other =>
      obtain ⟨present, byte, field, body, parts⟩ := exists_parts long
      have same : present = found := by
        refine (List.append_inj (parts.whole.symm.trans start) ?_).1
        rw [parts.four, four]
      subst same
      rw [parts.decode_eq, parts.announced_eq, if_pos other]
  | @otherVersion byte rest long start other =>
      obtain ⟨present, second, field, body, parts⟩ := exists_parts long
      obtain ⟨rfl, behind⟩ := List.append_inj (parts.whole.symm.trans start) parts.four
      obtain ⟨rfl, _⟩ := List.cons.inj behind
      rw [parts.decode_eq, parts.announced_eq, if_neg (not_not_intro rfl), if_pos other]
  | @oversized length rest word start beyond =>
      subst start
      rw [parts_of_lead.decode_eq, parts_of_lead.announced_eq, ofLittleEndian_littleEndian word]
      simp [beyond]
  | @truncated length body fits start cut =>
      subst start
      have inField : length < Nat.pow 256 lengthFieldLength := Nat.lt_of_le_of_lt fits (by decide)
      rw [parts_of_lead.decode_eq, parts_of_lead.announced_eq, ofLittleEndian_littleEndian inField]
      simp [Nat.not_lt_of_le fits, cut]

/-! ### Frames -/

theorem decode_eq_ok_iff : decode bytes = .ok payload ↔
    payload.length ≤ payloadLimit ∧ encode payload <+: bytes := by
  constructor
  · intro done
    by_cases short : bytes.length < leadLength
    · rw [decode, if_pos short] at done
      contradiction
    · obtain ⟨found, byte, field, body, parts⟩ := exists_parts (Nat.le_of_not_lt short)
      rw [parts.decode_eq] at done
      cases announcing : announced (bytes.take leadLength) with
      | error fault =>
          rw [announcing] at done
          contradiction
      | ok length =>
          rw [announcing] at done
          dsimp only at done
          split at done
          · contradiction
          · next present =>
              cases done
              have whole : (bytes.take leadLength).length = leadLength :=
                List.length_take_of_le (Nat.le_of_not_lt short)
              have exactly : (body.take length).length = length :=
                List.length_take_of_le (Nat.le_of_not_lt present)
              obtain ⟨fits, lead⟩ := lead_of_announced whole announcing
              refine ⟨exactly.symm ▸ fits, body.drop length, ?_⟩
              rw [encode, exactly, ← lead, List.append_assoc, List.take_append_drop, ← parts.behind,
                List.take_append_drop]
  · rintro ⟨fits, tail, rfl⟩
    exact decode_encode_append fits

/-! ### Staying inside -/

/-- The part of some bytes from one position up to another, if it lies inside of them. -/
def slice? (bytes : List UInt8) (start stop : Nat) : Option (List UInt8) :=
  if start ≤ stop ∧ stop ≤ bytes.length then some ((bytes.take stop).drop start) else none

/-- What a lead announces; nothing if a part of it is looked at that is not there. -/
def announced? (lead : List UInt8) : Option (Except ProtocolFault Nat) := do
  let found ← slice? lead 0 4
  if found ≠ magic then return .error (.badMagic found)
  let byte ← lead[4]?
  if byte ≠ version then return .error (.unsupportedVersion byte)
  let field ← slice? lead headerLength leadLength
  let length := ofLittleEndian field
  if payloadLimit < length then return .error (.oversizedPayload length)
  return .ok length

/-- Decodes with lengths kept in words of so many bits; nothing if a part of the bytes is
looked at that is not there. -/
def decode? (wordBits : Nat) (bytes : List UInt8) : Option (Except ProtocolFault (List UInt8)) := do
  if bytes.length < leadLength then return .error (.shortFrame bytes.length)
  let lead ← slice? bytes 0 leadLength
  match ← announced? lead with
  | .error fault => return .error fault
  | .ok announcement =>
      let length := announcement % Nat.pow 2 wordBits
      let body ← slice? bytes leadLength bytes.length
      if body.length < length then return .error (.truncatedFrame length body.length)
      let payload ← slice? body 0 length
      return .ok payload

theorem slice?_start {stop : Nat} (inside : stop ≤ bytes.length) :
    slice? bytes 0 stop = some (bytes.take stop) := if_pos ⟨Nat.zero_le _, inside⟩

theorem slice?_rest {start stop : Nat} (inside : start ≤ bytes.length) (last : bytes.length = stop) :
    slice? bytes start stop = some (bytes.drop start) := by
  subst last
  rw [slice?, if_pos ⟨inside, Nat.le_refl _⟩, List.take_length]

theorem Parts.announced?_eq (parts : Parts bytes found byte field body) :
    announced? (bytes.take leadLength) = some (announced (bytes.take leadLength)) := by
  have length : (found ++ byte :: field).length = leadLength := parts.length_lead
  have first : slice? (found ++ byte :: field) 0 4 = some found := by
    rw [slice?_start (by rw [length]; decide), parts.magic_eq]
  have last : slice? (found ++ byte :: field) headerLength leadLength = some field := by
    rw [slice?_rest (by rw [length]; decide) length, parts.field_eq]
  rw [parts.announced_eq, parts.lead, announced?, first, parts.version_eq, last]
  by_cases sameMagic : found = magic
  · by_cases sameVersion : byte = version
    · by_cases beyond : payloadLimit < ofLittleEndian field <;> simp [sameMagic, sameVersion, beyond]
    · simp [sameMagic, sameVersion]
  · simp [sameMagic]

/-- Words that can hold the longest payload hold every length that gets that far. -/
theorem decode?_eq {wordBits : Nat} (wide : payloadLimit < Nat.pow 2 wordBits) (bytes : List UInt8) :
    decode? wordBits bytes = some (decode bytes) := by
  by_cases short : bytes.length < leadLength
  · rw [decode?, decode, if_pos short, if_pos short]
    rfl
  · have long : leadLength ≤ bytes.length := Nat.le_of_not_lt short
    obtain ⟨found, byte, field, body, parts⟩ := exists_parts long
    have whole : (bytes.take leadLength).length = leadLength := List.length_take_of_le long
    rw [decode?, if_neg short, slice?_start long, parts.decode_eq]
    simp only [Option.bind_eq_bind, Option.bind_some, parts.announced?_eq]
    cases announcing : announced (bytes.take leadLength) with
    | error fault => rfl
    | ok length =>
        have narrow : length % Nat.pow 2 wordBits = length :=
          Nat.mod_eq_of_lt (Nat.lt_of_le_of_lt (lead_of_announced whole announcing).1 wide)
        dsimp only
        rw [narrow, slice?_rest long rfl, parts.behind]
        by_cases cut : body.length < length
        · simp [cut]
        · simp [cut, slice?_start (Nat.le_of_not_lt cut)]

/-! ### All bytes -/

/-- What decoding does with some bytes. -/
structure Decodes (bytes : List UInt8) : Prop where
  /-- Exactly the frames of payloads within the limit are taken, whatever follows them. -/
  taken : ∀ payload, decode bytes = .ok payload ↔
    payload.length ≤ payloadLimit ∧ encode payload <+: bytes
  /-- To encode what was decoded gives the bytes that were used. -/
  encoded : ∀ payload, decode bytes = .ok payload →
    encode payload = bytes.take (leadLength + payload.length)
  /-- Bytes start with one frame at most. -/
  single : ∀ payload other, payload.length ≤ payloadLimit → other.length ≤ payloadLimit →
    encode payload <+: bytes → encode other <+: bytes → payload = other
  /-- What does not start with a frame is refused, and the fault says why. -/
  refused : ∀ fault, decode bytes = .error fault ↔ Refused bytes fault
  frame_or_refused : (∃ payload, payload.length ≤ payloadLimit ∧ encode payload <+: bytes) ∨
    ∃ fault, Refused bytes fault
  /-- Nothing is looked at that is not there, and lengths fit into words of 28 bits or more. -/
  inside : ∀ wordBits, 28 ≤ wordBits → decode? wordBits bytes = some (decode bytes)

theorem decodes_frames (bytes : List UInt8) : Decodes bytes := by
  refine ⟨fun _ => decode_eq_ok_iff, ?_, ?_, ?_, ?_, ?_⟩
  · intro payload done
    obtain ⟨_, tail, rfl⟩ := decode_eq_ok_iff.mp done
    rw [← length_encode, List.take_left]
  · intro payload other fits otherFits starts otherStarts
    have first := decode_eq_ok_iff.mpr ⟨fits, starts⟩
    have second := decode_eq_ok_iff.mpr ⟨otherFits, otherStarts⟩
    exact Except.ok.inj (first.symm.trans second)
  · exact fun _ => ⟨refused_of_decode, Refused.decode_eq⟩
  · cases result : decode bytes with
    | ok payload => exact .inl ⟨payload, decode_eq_ok_iff.mp result⟩
    | error fault => exact .inr ⟨fault, refused_of_decode result⟩
  · intro wordBits wide
    have widest : 2 ^ 28 ≤ Nat.pow 2 wordBits := Nat.pow_le_pow_right (by decide) wide
    exact decode?_eq (Nat.lt_of_lt_of_le (by decide) widest) bytes

end CheckRounds.Frame
