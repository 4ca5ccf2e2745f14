import CheckRounds.Frame

namespace CheckRounds.Frame

/-! A frame that was written is taken from the front of whatever starts with it, and nothing
else is taken for a frame. -/

variable {payload tail : List UInt8}

theorem encode_append (payload tail : List UInt8) : encode payload ++ tail =
    header ++ littleEndian lengthFieldLength payload.length ++ (payload ++ tail) := by
  simp [encode]

theorem length_lead (length : Nat) :
    (header ++ littleEndian lengthFieldLength length).length = leadLength := by simp; rfl

theorem length_encode (payload : List UInt8) :
    (encode payload).length = leadLength + payload.length := by
  rw [encode, List.length_append, length_lead]

theorem take_lead_encode : (encode payload ++ tail).take leadLength =
    header ++ littleEndian lengthFieldLength payload.length := by
  rw [encode_append, List.take_left' (length_lead _)]

theorem drop_lead_encode : (encode payload ++ tail).drop leadLength = payload ++ tail := by
  rw [encode_append, List.drop_left' (length_lead _)]

theorem announced_lead {length : Nat} (fits : length ≤ payloadLimit) :
    announced (header ++ littleEndian lengthFieldLength length) = .ok length := by
  have inField : length < Nat.pow 256 lengthFieldLength := Nat.lt_of_le_of_lt fits (by decide)
  have magicFirst : (header ++ littleEndian lengthFieldLength length).take 4 = magic := rfl
  have versionNext : (header ++ littleEndian lengthFieldLength length).getD 4 0 = version := rfl
  have field : ((header ++ littleEndian lengthFieldLength length).drop headerLength).take
      lengthFieldLength = littleEndian lengthFieldLength length := by
    have behind : (header ++ littleEndian lengthFieldLength length).drop headerLength =
        littleEndian lengthFieldLength length := rfl
    have short : (littleEndian lengthFieldLength length).length ≤ lengthFieldLength :=
      Nat.le_of_eq (length_littleEndian _ _)
    rw [behind, List.take_of_length_le short]
  rw [announced, magicFirst, versionNext, field, ofLittleEndian_littleEndian inField]
  simp [Nat.not_lt_of_le fits]

/-- A frame is decoded to its payload, if that is not too long; what follows is ignored. -/
theorem decode_encode_append (fits : payload.length ≤ payloadLimit) :
    decode (encode payload ++ tail) = .ok payload := by
  have long : ¬(encode payload ++ tail).length < leadLength := by
    rw [List.length_append, length_encode]
    omega
  rw [decode, if_neg long, take_lead_encode, announced_lead fits, drop_lead_encode]
  simp

/-- A frame is read to its payload, and nothing behind it is touched. -/
theorem read_encode_append (fits : payload.length ≤ payloadLimit) :
    read (encode payload ++ tail) = (.ok payload, tail) := by
  have long : ¬(encode payload ++ tail).length < leadLength := by
    rw [List.length_append, length_encode]
    omega
  rw [read, if_neg long, take_lead_encode, announced_lead fits, drop_lead_encode]
  simp

theorem split_lead {lead : List UInt8} (whole : lead.length = leadLength) :
    lead = lead.take 4 ++ lead.getD 4 0 :: (lead.drop headerLength).take lengthFieldLength := by
  have inside : 4 < lead.length := Nat.lt_of_lt_of_eq (by decide) whole.symm
  have field : (lead.drop headerLength).take lengthFieldLength = lead.drop (4 + 1) :=
    List.take_of_length_le (by simp [whole, leadLength, headerLength, lengthFieldLength])
  have versionNext : lead.getD 4 0 = lead[4] := by simp [inside]
  rw [field, versionNext, ← List.drop_eq_getElem_cons inside, List.take_append_drop]

/-- Nothing but the lead of a frame announces a length. -/
theorem lead_of_announced {lead : List UInt8} {length : Nat} (whole : lead.length = leadLength)
    (found : announced lead = .ok length) :
    length ≤ payloadLimit ∧ lead = header ++ littleEndian lengthFieldLength length := by
  unfold announced at found
  split at found
  · contradiction
  · next sameMagic =>
      split at found
      · contradiction
      · next sameVersion =>
          dsimp only at found
          split at found
          · contradiction
          · next fits =>
              rw [Except.ok.injEq] at found
              rw [found] at fits
              have field := littleEndian_ofLittleEndian ((lead.drop headerLength).take lengthFieldLength)
              have eight : ((lead.drop headerLength).take lengthFieldLength).length = lengthFieldLength := by
                simp [whole, leadLength, headerLength, lengthFieldLength]
              rw [eight, found] at field
              refine ⟨Nat.le_of_not_lt fits, ?_⟩
              rw [split_lead whole, Classical.not_not.mp sameMagic, Classical.not_not.mp sameVersion, field, header]
              simp

/-- Bytes are read as a frame just when they start with one. -/
theorem read_eq_ok_iff {bytes : List UInt8} : read bytes = (.ok payload, tail) ↔
    payload.length ≤ payloadLimit ∧ bytes = encode payload ++ tail := by
  constructor
  · intro found
    unfold read at found
    split at found
    · simp at found
    · next long =>
        dsimp only at found
        split at found
        · simp at found
        · next length announcing =>
            split at found
            · simp at found
            · next present =>
                rw [Prod.mk.injEq, Except.ok.injEq] at found
                obtain ⟨rfl, rfl⟩ := found
                have whole : (bytes.take leadLength).length = leadLength := by
                  rw [List.length_take]
                  omega
                have exactly : ((bytes.drop leadLength).take length).length = length := by
                  rw [List.length_take]
                  omega
                obtain ⟨fits, lead⟩ := lead_of_announced whole announcing
                refine ⟨exactly.symm ▸ fits, ?_⟩
                rw [encode, exactly, ← lead, List.append_assoc, List.take_append_drop,
                  List.take_append_drop]
  · rintro ⟨fits, rfl⟩
    exact read_encode_append fits

end CheckRounds.Frame
