import CheckRounds.Frame.Source
import CheckRounds.Proofs.Frame.Decoding

namespace CheckRounds.Frame

/-! Reading frames from a source against decoding them.

Wherever the bytes of a source are cut into pieces, one reading does what decoding all of them
at once does: it takes the same payloads, and of the bytes just the frame; it refuses the same
leads, and takes just the lead.  Only bytes that are missing are another fault.  So frames that
were written one behind the other are read one after the other.
-/

variable {source left : Source} {payload rest : List UInt8} {fault : Fault}

/-! ### Pieces -/

/-- What is taken from a source depends on its bytes alone. -/
theorem takeExactly_eq (count : Nat) (source : Source) :
    (takeExactly count source).1 =
        (if count ≤ source.flatten.length then some (source.flatten.take count) else none) ∧
      (takeExactly count source).2.flatten = source.flatten.drop count := by
  induction source generalizing count with
  | nil =>
      simp only [takeExactly, List.flatten_nil, List.length_nil, List.take_nil, List.drop_nil,
        Nat.le_zero_eq, and_self]
  | cons piece rest ih =>
      rw [takeExactly, List.flatten_cons, List.length_append]
      by_cases inside : count ≤ piece.length
      · have enough : count ≤ piece.length + rest.flatten.length := Nat.le_add_right_of_le inside
        rw [if_pos inside, if_pos enough, List.take_append_of_le_length inside,
          List.drop_append_of_le_length inside]
        exact ⟨rfl, List.flatten_cons⟩
      · have split : count = piece.length + (count - piece.length) := by omega
        obtain ⟨taken, remaining⟩ := ih (count - piece.length)
        have takes : (piece ++ rest.flatten).take count =
            piece ++ rest.flatten.take (count - piece.length) := by
          conv => lhs; rw [split]
          exact List.take_length_add_append _
        have drops : (piece ++ rest.flatten).drop count = rest.flatten.drop (count - piece.length) := by
          conv => lhs; rw [split]
          exact List.drop_length_add_append _
        have enough_iff : count ≤ piece.length + rest.flatten.length ↔
            count - piece.length ≤ rest.flatten.length := by omega
        rw [if_neg inside, takes, drops]
        cases result : takeExactly (count - piece.length) rest with
        | mk more left =>
            rw [result] at taken remaining
            dsimp only at taken
            subst taken
            by_cases enough : count - piece.length ≤ rest.flatten.length
            · rw [if_pos enough, if_pos (enough_iff.mpr enough)]
              exact ⟨rfl, remaining⟩
            · rw [if_neg enough, if_neg (mt enough_iff.mp enough)]
              exact ⟨rfl, remaining⟩

theorem takeExactly_of_le {count : Nat} (enough : count ≤ source.flatten.length) :
    ∃ left, takeExactly count source = (some (source.flatten.take count), left) ∧
      left.flatten = source.flatten.drop count := by
  obtain ⟨taken, remaining⟩ := takeExactly_eq count source
  rw [if_pos enough] at taken
  exact ⟨_, Prod.ext taken rfl, remaining⟩

theorem takeExactly_of_lt {count : Nat} (short : source.flatten.length < count) :
    ∃ left, takeExactly count source = (none, left) ∧ left.flatten = [] := by
  obtain ⟨taken, remaining⟩ := takeExactly_eq count source
  rw [if_neg (Nat.not_le_of_lt short)] at taken
  exact ⟨_, Prod.ext taken rfl, remaining.trans (List.drop_eq_nil_of_le (Nat.le_of_lt short))⟩

/-- A frame is read alike wherever the bytes are cut. -/
theorem readFrom_eq (source : Source) :
    ∃ left, readFrom source = ((read source.flatten).1, left) ∧
      left.flatten = (read source.flatten).2 := by
  by_cases short : source.flatten.length < leadLength
  · obtain ⟨left, taken, nothing⟩ := takeExactly_of_lt short
    refine ⟨left, ?_, ?_⟩
    · rw [readFrom, taken, read, if_pos short]
    · rw [read, if_pos short, nothing]
  · obtain ⟨body, taken, behind⟩ := takeExactly_of_le (Nat.le_of_not_lt short)
    rw [readFrom, taken, read, if_neg short]
    dsimp only
    cases announced (source.flatten.take leadLength) with
    | error fault => exact ⟨body, rfl, behind⟩
    | ok length =>
        dsimp only
        rw [← behind]
        by_cases cut : body.flatten.length < length
        · obtain ⟨left, taken, nothing⟩ := takeExactly_of_lt cut
          rw [taken, if_pos cut]
          exact ⟨left, rfl, nothing⟩
        · obtain ⟨left, taken, remaining⟩ := takeExactly_of_le (Nat.le_of_not_lt cut)
          rw [taken, if_neg cut]
          exact ⟨left, rfl, remaining⟩

/-! ### One frame -/

/-- What is left of a source without its first so many bytes. -/
def Leaves (source : Source) (count : Nat) (left : Source) : Prop :=
  ∃ used, used.length = count ∧ source.flatten = used ++ left.flatten

theorem leaves_of_drop {count : Nat} (enough : count ≤ source.flatten.length)
    (remaining : left.flatten = source.flatten.drop count) : Leaves source count left := by
  refine ⟨source.flatten.take count, List.length_take_of_le enough, ?_⟩
  rw [remaining, List.take_append_drop]

theorem frame_of_readFrom (done : readFrom source = (.ok payload, left)) :
    payload.length ≤ payloadLimit ∧ source.flatten = encode payload ++ left.flatten := by
  obtain ⟨other, same, remaining⟩ := readFrom_eq source
  rw [same, Prod.mk.injEq] at done
  obtain ⟨result, rfl⟩ := done
  exact read_eq_ok_iff.mp (Prod.ext result remaining.symm)

theorem readFrom_of_frame (fits : payload.length ≤ payloadLimit)
    (starts : source.flatten = encode payload ++ rest) :
    ∃ left, readFrom source = (.ok payload, left) ∧ left.flatten = rest := by
  obtain ⟨left, same, remaining⟩ := readFrom_eq source
  rw [starts, read_encode_append fits] at same remaining
  exact ⟨left, same, remaining⟩

/-- Bytes are missing, and nothing is wrong with those that are there. -/
def IsLack : ProtocolFault → Prop
  | .shortFrame _ => True
  | .truncatedFrame _ _ => True
  | _ => False

/-- Reading tells bytes that are missing from a lead that is wrong. -/
theorem read_of_refused {bytes : List UInt8} {cause : ProtocolFault} (refused : Refused bytes cause) :
    (IsLack cause ∧ read bytes = (.error (.transport .earlyEof), [])) ∨
      (leadLength ≤ bytes.length ∧ announced (bytes.take leadLength) = .error cause) := by
  by_cases short : bytes.length < leadLength
  · have failed := refused.decode_eq
    rw [decode, if_pos short] at failed
    cases failed
    exact .inl ⟨trivial, by rw [read, if_pos short]⟩
  · have long : leadLength ≤ bytes.length := Nat.le_of_not_lt short
    have failed := refused.decode_eq
    rw [decode, if_neg short] at failed
    cases announcing : announced (bytes.take leadLength) with
    | error fault =>
        rw [announcing] at failed
        cases failed
        exact .inr ⟨long, rfl⟩
    | ok length =>
        rw [announcing] at failed
        dsimp only at failed
        split at failed
        · next cut =>
            cases failed
            refine .inl ⟨trivial, ?_⟩
            rw [read, if_neg short, announcing]
            exact if_pos cut
        · contradiction

/-- What one reading of a source does, as told by decoding all of its bytes. -/
structure ReadsAsDecoded (source : Source) : Prop where
  decoded : ∀ payload, (readFrom source).1 = .ok payload ↔ decode source.flatten = .ok payload
  /-- A frame that was read is gone, and nothing behind it. -/
  used : ∀ payload, (readFrom source).1 = .ok payload →
    Leaves source (leadLength + payload.length) (readFrom source).2
  /-- A lead that is refused is gone, and nothing behind it. -/
  refused : ∀ fault, leadLength ≤ source.flatten.length →
    announced (source.flatten.take leadLength) = .error fault →
      decode source.flatten = .error fault ∧ (readFrom source).1 = .error (.protocol fault) ∧
        Leaves source leadLength (readFrom source).2
  /-- Where bytes are missing and nothing is wrong, the source has ended too early. -/
  missing : ∀ fault, decode source.flatten = .error fault → IsLack fault →
    (readFrom source).1 = .error (.transport .earlyEof)
  missing_or_refused : ∀ fault, decode source.flatten = .error fault → IsLack fault ∨
    (leadLength ≤ source.flatten.length ∧ announced (source.flatten.take leadLength) = .error fault)

theorem isLack_of_announced {lead : List UInt8} {cause : ProtocolFault}
    (announcing : announced lead = .error cause) : ¬IsLack cause := by
  unfold announced at announcing
  split at announcing
  · cases announcing
    exact id
  · split at announcing
    · cases announcing
      exact id
    · dsimp only at announcing
      split at announcing
      · cases announcing
        exact id
      · contradiction

theorem readsAsDecoded (source : Source) : ReadsAsDecoded source := by
  obtain ⟨left, same, remaining⟩ := readFrom_eq source
  have first : (readFrom source).1 = (read source.flatten).1 := by rw [same]
  have second : (readFrom source).2.flatten = (read source.flatten).2 := by rw [same, remaining]
  refine ⟨?_, ?_, ?_, ?_, ?_⟩
  · intro payload
    rw [first, decode_eq_ok_iff]
    constructor
    · intro result
      obtain ⟨fits, starts⟩ := read_eq_ok_iff.mp (Prod.ext result rfl)
      exact ⟨fits, _, starts.symm⟩
    · rintro ⟨fits, rest, starts⟩
      rw [← starts, read_encode_append fits]
  · intro payload result
    obtain ⟨_, starts⟩ := frame_of_readFrom (Prod.ext result rfl)
    exact ⟨encode payload, length_encode payload, starts⟩
  · intro fault long announcing
    have notShort : ¬source.flatten.length < leadLength := Nat.not_lt_of_le long
    have reading : read source.flatten = (.error (.protocol fault), source.flatten.drop leadLength) := by
      rw [read, if_neg notShort]
      dsimp only
      rw [announcing]
    refine ⟨?_, ?_, ?_⟩
    · rw [decode, if_neg notShort, announcing]
    · rw [first, reading]
    · refine leaves_of_drop long ?_
      rw [second, reading]
  · intro fault failed lack
    rcases read_of_refused (refused_of_decode failed) with ⟨_, reading⟩ | ⟨_, announcing⟩
    · rw [first, reading]
    · exact absurd lack (isLack_of_announced announcing)
  · intro fault failed
    exact (read_of_refused (refused_of_decode failed)).imp_left And.left

/-! ### Frame after frame -/

theorem readMany_of_error {count : Nat} (failed : readFrom source = (.error fault, left)) :
    readMany (count + 1) source = ([], some fault, left) := by
  rw [readMany, failed]

theorem readMany_of_ok {count : Nat} (done : readFrom source = (.ok payload, left)) :
    readMany (count + 1) source =
      (payload :: (readMany count left).1, (readMany count left).2.1, (readMany count left).2.2) := by
  rw [readMany, done]

theorem readAll_of_error {bytes : List UInt8} (failed : read bytes = (.error fault, rest)) :
    readAll bytes = ([], fault, rest) := by
  rw [readAll]
  split
  · next found =>
      rw [failed] at found
      cases found
      rfl
  · next found =>
      rw [failed] at found
      cases found

theorem readAll_of_ok {bytes : List UInt8} (done : read bytes = (.ok payload, rest)) :
    readAll bytes = (payload :: (readAll rest).1, (readAll rest).2.1, (readAll rest).2.2) := by
  rw [readAll]
  split
  · next found =>
      rw [done] at found
      cases found
  · next found =>
      rw [done] at found
      cases found
      rfl

theorem foldl_write (written : List UInt8) (payloads : List (List UInt8)) :
    payloads.foldl write written = written ++ payloads.flatMap encode := by
  induction payloads generalizing written with
  | nil => rw [List.foldl_nil, List.flatMap_nil, List.append_nil]
  | cons payload rest ih => rw [List.foldl_cons, ih, write, List.flatMap_cons, List.append_assoc]

/-- Frames that stand one behind the other are read one after the other. -/
theorem readMany_of_frames {payloads : List (List UInt8)} {tail : List UInt8}
    (fit : ∀ payload ∈ payloads, payload.length ≤ payloadLimit)
    (starts : source.flatten = payloads.flatMap encode ++ tail) :
    ∃ left, readMany payloads.length source = (payloads, none, left) ∧ left.flatten = tail := by
  induction payloads generalizing source with
  | nil => exact ⟨source, rfl, starts⟩
  | cons payload others ih =>
      rw [List.flatMap_cons, List.append_assoc] at starts
      obtain ⟨behind, first, remaining⟩ :=
        readFrom_of_frame (fit payload List.mem_cons_self) starts
      obtain ⟨left, others, last⟩ := ih (fun other among => fit other (List.mem_cons_of_mem _ among)) remaining
      refine ⟨left, ?_, last⟩
      rw [List.length_cons, readMany_of_ok first, others]

/-- Every frame takes bytes, so there is a reading that fails. -/
theorem readMany_ends {count : Nat} (enough : source.flatten.length < leadLength * count) :
    ∃ payloads fault left, readMany count source = (payloads, some fault, left) ∧
      readAll source.flatten = (payloads, fault, left.flatten) := by
  induction count generalizing source with
  | zero => exact absurd enough (Nat.not_lt_zero _)
  | succ count ih =>
      obtain ⟨left, same, remaining⟩ := readFrom_eq source
      cases result : (read source.flatten).1 with
      | error fault =>
          rw [result] at same
          exact ⟨[], fault, left, readMany_of_error same, readAll_of_error (Prod.ext result remaining.symm)⟩
      | ok payload =>
          rw [result] at same
          obtain ⟨_, starts⟩ := frame_of_readFrom same
          have fewer : left.flatten.length < leadLength * count := by
            have whole := congrArg List.length starts
            rw [List.length_append, length_encode] at whole
            rw [Nat.mul_succ] at enough
            omega
          obtain ⟨payloads, fault, final, others, all⟩ := ih fewer
          refine ⟨payload :: payloads, fault, final, ?_, ?_⟩
          · rw [readMany_of_ok same, others]
          · rw [readAll_of_ok (Prod.ext result remaining.symm), all]

/-- A source is read as its bytes are decoded, wherever they are cut.  Frames that were written
one behind the other are read in their order, up to the first byte behind them, and however many
frames there are in a source, the reading ends. -/
theorem reads_as_decoded :
    (∀ source, ReadsAsDecoded source) ∧
    (∀ payloads tail source, (∀ payload ∈ payloads, payload.length ≤ payloadLimit) →
      source.flatten = payloads.foldl write [] ++ tail →
        ∃ left, readMany payloads.length source = (payloads, none, left) ∧ left.flatten = tail) ∧
    ∀ source, ∃ count ≤ source.flatten.length / leadLength + 1, ∃ payloads fault left,
      readMany count source = (payloads, some fault, left) ∧
        readAll source.flatten = (payloads, fault, left.flatten) := by
  refine ⟨readsAsDecoded, ?_, ?_⟩
  · intro payloads tail source fit starts
    rw [foldl_write, List.nil_append] at starts
    exact readMany_of_frames fit starts
  · intro source
    refine ⟨_, Nat.le_refl _, readMany_ends ?_⟩
    exact Nat.lt_mul_div_succ _ (by decide)

/-- Two frames in pieces that are cut inside of a lead, inside of a payload and between the frames,
with a byte behind them. -/
theorem reads_as_decoded_of_pieces :
    let frames := [[0x61, 0x62], [0x63]].foldl write []
    let source : Source := [frames.take 3, [], (frames.drop 3).take 11, frames.drop 14 ++ [0x21]]
    ∃ left, readMany 2 source = ([[0x61, 0x62], [0x63]], none, left) ∧ left.flatten = [0x21] :=
  reads_as_decoded.2.1 [[0x61, 0x62], [0x63]] [0x21] _ (by decide) (by decide)

end CheckRounds.Frame
