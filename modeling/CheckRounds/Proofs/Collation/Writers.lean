import CheckRounds.Collation.Writer
import CheckRounds.Proofs.Collation.Parcels
import CheckRounds.Proofs.Collation.Transmissions

namespace CheckRounds.Collation

/-! However a frame is kept and however its writer takes it, the same bytes go out.

Offering bytes until all are taken or refused gives away as many of them as the writer has
room for, whatever it takes at once; and writing pieces one after the other is writing what
they make up.  So a file that is copied, a file that is read first and a buffer with the same
bytes are sent alike.
-/

/-- How many of so many bytes are not beyond a limit. -/
def share (limit : Option Nat) (size : Nat) : Nat :=
  match limit with
  | none => size
  | some most => min most size

/-- The limit that is left once there are so many bytes. -/
def limitAfter (limit : Option Nat) (count : Nat) : Option Nat := limit.map (· - count)

section Shares

variable {limit : Option Nat} {room : Room} {size count more : Nat} {bytes front back : ByteArray}

theorem share_le : share limit size ≤ size := by
  cases limit with
  | none => exact Nat.le_refl _
  | some most => exact Nat.min_le_right _ _

theorem share_eq_iff_fits : share limit size = size ↔ Fits limit size := by
  cases limit with
  | none => exact iff_of_true rfl (fun _ impossible => by contradiction)
  | some most =>
      have inside_iff : share (some most) size = size ↔ size ≤ most := by
        simp only [share]
        omega
      exact inside_iff.trans
        ⟨fun inside _ same => Option.some.inj same ▸ inside, fun fits => fits most rfl⟩

/-- A part of a share goes in as a whole. -/
theorem share_of_le_share (part : count ≤ share limit size) : share limit count = count := by
  cases limit with
  | none => rfl
  | some most =>
      simp only [share] at part ⊢
      omega

/-- What goes first takes its share, and what follows takes a share of the limit that is left. -/
theorem share_add : share limit (count + more) = share limit count + share (limitAfter limit count) more := by
  cases limit with
  | none => rfl
  | some most =>
      simp only [share, limitAfter, Option.map_some]
      omega

theorem limitAfter_add : limitAfter limit (count + more) = limitAfter (limitAfter limit count) more := by
  cases limit with
  | none => rfl
  | some most => exact congrArg some (Nat.sub_add_eq most count more)

/-- What does not go in as a whole leaves nothing to what follows. -/
theorem share_add_of_short (short : share limit count ≠ count) :
    share limit (count + more) = share limit count := by
  cases limit with
  | none => exact absurd rfl short
  | some most =>
      simp only [share] at short ⊢
      omega

theorem extract_append_rest : bytes.extract 0 count ++ bytes.extract count bytes.size = bytes := by
  rw [ByteArray.extract_append_extract, Nat.zero_min, extract_all (Nat.le_max_right _ _)]

theorem put_eq : room.put bytes = (bytes.extract 0 (share room.limit bytes.size),
    if share room.limit bytes.size = bytes.size then .ok () else .error room.refusal) := by
  by_cases fits : share room.limit bytes.size = bytes.size
  · rw [put_of_fits (share_eq_iff_fits.mp fits), fits, if_pos rfl, ByteArray.extract_zero_size]
  · rw [if_neg fits]
    unfold Room.put
    split
    · next unlimited => exact absurd (by rw [unlimited]; rfl) fits
    · next most limited =>
        rw [limited] at fits ⊢
        simp only [share] at fits ⊢
        have beyond : ¬bytes.size ≤ most := by omega
        have all : min most bytes.size = most := by omega
        rw [if_neg beyond, all]

end Shares

namespace Writer

variable {writer : Writer} {taken offer bytes front back : ByteArray} {count : Nat}

/-- The limit of what a writer still takes. -/
def left (writer : Writer) (taken : ByteArray) : Option Nat := limitAfter writer.limit taken.size

theorem left_append : writer.left (taken ++ bytes) = limitAfter (writer.left taken) bytes.size := by
  rw [left, ByteArray.size_append, limitAfter_add]
  rfl

theorem left_empty : writer.left .empty = writer.limit := by
  rw [left, limitAfter]
  cases writer.limit <;> rfl

theorem share_of_accepts_none (refused : writer.accepts taken offer = none) :
    share (writer.left taken) offer.size = 0 := by
  unfold accepts at refused
  split at refused
  · contradiction
  · next limit same =>
      split at refused
      · next full =>
          rw [left, same, limitAfter, Option.map_some, share]
          omega
      · contradiction

theorem le_share_of_accepts (accepted : writer.accepts taken offer = some count) :
    count ≤ share (writer.left taken) offer.size := by
  unfold accepts at accepted
  split at accepted
  · next same =>
      cases accepted
      rw [left, same, limitAfter, Option.map_none, share]
      exact Nat.min_le_right _ _
  · next limit same =>
      split at accepted
      · contradiction
      · cases accepted
        rw [left, same, limitAfter, Option.map_some, share]
        omega

/-- What comes of bytes: what the writer has once it took its share of them, and whether the
share is all. -/
def result (writer : Writer) (taken bytes : ByteArray) : ByteArray × Except IoFault Unit :=
  let taken_of_bytes := share (writer.left taken) bytes.size
  (taken ++ bytes.extract 0 taken_of_bytes,
    if taken_of_bytes = bytes.size then .ok () else .error writer.refusal)

theorem result_of_fits (fits : share (writer.left taken) bytes.size = bytes.size) :
    writer.result taken bytes = (taken ++ bytes, .ok ()) := by
  simp only [result, fits, if_pos, ByteArray.extract_zero_size]

theorem result_of_short (short : share (writer.left taken) bytes.size ≠ bytes.size) :
    writer.result taken bytes =
      (taken ++ bytes.extract 0 (share (writer.left taken) bytes.size), .error writer.refusal) := by
  simp only [result, if_neg short]

/-- If all of the front is taken, the back is offered to a writer that has the front. -/
theorem result_append_of_fits (fits : share (writer.left taken) front.size = front.size) :
    writer.result taken (front ++ back) = writer.result (taken ++ front) back := by
  have shares : share (writer.left taken) (front.size + back.size) =
      front.size + share (writer.left (taken ++ front)) back.size := by
    rw [share_add, fits, left_append]
  have given : (front ++ back).extract 0 (front.size + share (writer.left (taken ++ front)) back.size) =
      front ++ back.extract 0 (share (writer.left (taken ++ front)) back.size) := by
    rw [ByteArray.extract_append, extract_all (Nat.le_add_right _ _), Nat.zero_sub,
      Nat.add_sub_cancel_left]
  simp only [result, ByteArray.size_append, shares, given, ByteArray.append_assoc,
    Nat.add_left_cancel_iff]

/-- If only some of the front is taken, nothing of the back is. -/
theorem result_append_of_short (short : share (writer.left taken) front.size ≠ front.size) :
    writer.result taken (front ++ back) = writer.result taken front := by
  have shares : share (writer.left taken) (front ++ back).size = share (writer.left taken) front.size := by
    rw [ByteArray.size_append, share_add_of_short short]
  have inside : share (writer.left taken) front.size ≤ front.size := share_le
  have short_of_all : share (writer.left taken) (front ++ back).size ≠ (front ++ back).size := by
    rw [shares, ByteArray.size_append]
    omega
  have none : back.extract (0 - front.size) (share (writer.left taken) front.size - front.size) =
      .empty := extract_none (by omega)
  rw [result_of_short short, result_of_short short_of_all, shares, ByteArray.extract_append, none,
    ByteArray.append_empty]

/-- In how many portions the bytes are taken makes no difference.  The induction follows the
offers; a portion that is taken is a front of which all is taken. -/
theorem writeAll_eq (writer : Writer) (taken bytes : ByteArray) :
    writer.writeAll taken bytes = writer.result taken bytes := by
  fun_induction writer.writeAll taken bytes with
  | case1 taken bytes nothing =>
      have fits : share (writer.left taken) bytes.size = bytes.size := by
        rw [nothing]
        exact Nat.le_zero.mp share_le
      rw [result_of_fits fits, ByteArray.size_eq_zero_iff.mp nothing, ByteArray.append_empty]
  | case2 taken bytes some_bytes refused =>
      have nothing := share_of_accepts_none refused
      have short : share (writer.left taken) bytes.size ≠ bytes.size :=
        fun all => some_bytes (all.symm.trans nothing)
      rw [result_of_short short, nothing, extract_none (Nat.min_le_left _ _), ByteArray.append_empty]
  | case3 taken bytes some_bytes count accepted ih =>
      have part := le_share_of_accepts accepted
      have portion : (bytes.extract 0 count).size = count := by
        have inside := Nat.le_trans part share_le
        rw [ByteArray.size_extract]
        omega
      have fits : share (writer.left taken) (bytes.extract 0 count).size =
          (bytes.extract 0 count).size := by
        rw [portion]
        exact share_of_le_share part
      rw [ih, ← result_append_of_fits fits, extract_append_rest]

/-- What pieces make up, one after the other. -/
def joined (pieces : List ByteArray) : ByteArray := pieces.foldr (· ++ ·) .empty

/-- Writing pieces is writing what they make up. -/
theorem writeEach_eq (writer : Writer) (taken : ByteArray) (pieces : List ByteArray) :
    writer.writeEach taken pieces = writer.result taken (joined pieces) := by
  induction pieces generalizing taken with
  | nil =>
      have fits : share (writer.left taken) (joined []).size = (joined []).size :=
        Nat.le_zero.mp share_le
      rw [result_of_fits fits, writeEach, joined, List.foldr_nil, ByteArray.append_empty]
  | cons piece rest ih =>
      have front : joined (piece :: rest) = piece ++ joined rest := rfl
      rw [writeEach, writeAll_eq, front]
      by_cases fits : share (writer.left taken) piece.size = piece.size
      · rw [result_append_of_fits fits, result_of_fits fits]
        exact ih (taken ++ piece)
      · rw [result_append_of_short fits, result_of_short fits]

end Writer

/-! ### Frames -/

/-- What becomes of a frame with these bytes, however it is kept. -/
def Writer.transmission (writer : Writer) (tracing : Bool) (bytes : ByteArray) : Transmission :=
  let (sent, outcome) := writer.result .empty bytes
  { sent, outcome, dump := if tracing then Payload.dumpText bytes else none }

theorem Writer.sent_transmission {writer : Writer} {tracing : Bool} {bytes : ByteArray} :
    (writer.transmission tracing bytes).sent = bytes.extract 0 (share writer.limit bytes.size) := by
  rw [Writer.transmission, Writer.result, Writer.left_empty, ByteArray.empty_append]

theorem Writer.outcome_transmission {writer : Writer} {tracing : Bool} {bytes : ByteArray} :
    (writer.transmission tracing bytes).outcome =
      if share writer.limit bytes.size = bytes.size then .ok () else .error writer.refusal := by
  rw [Writer.transmission, Writer.result, Writer.left_empty]

namespace Payload

variable {cut : ByteArray → List ByteArray} {frame : Payload} {tracing : Bool} {writer : Writer}

theorem writeTo_of_not_isCopied (whole : frame.isCopied tracing = false) :
    frame.writeTo cut tracing writer = writer.transmission tracing frame.bytes := by
  rw [Writer.transmission, ← Writer.writeAll_eq]
  match frame, tracing with
  | .buffer _, _ => rfl
  | .file _ _ _ false, _ => rfl
  | .file _ _ _ true, true => rfl

/-- A frame that is copied differs from others only if it is shorter than announced. -/
theorem writeTo_of_isCopied (in_order : ∀ bytes, Writer.joined (cut bytes) = bytes)
    (copied : frame.isCopied tracing = true) :
    frame.writeTo cut tracing writer =
      match writer.result .empty frame.bytes with
      | (sent, .error fault) => { sent, outcome := .error fault, dump := none }
      | (sent, .ok ()) =>
          { sent
            outcome :=
              if sent.size = frame.length then .ok ()
              else .error (.fileShrank sent.size frame.length)
            dump := none } := by
  match frame, tracing with
  | .file _ contents length true, false =>
      rw [writeTo, Writer.writeEach_eq, in_order]
      rfl

theorem writeTo_of_length (in_order : ∀ bytes, Writer.joined (cut bytes) = bytes)
    (whole : frame.bytes.size = frame.length) :
    frame.writeTo cut tracing writer = writer.transmission tracing frame.bytes := by
  cases copied : frame.isCopied tracing with
  | false => exact writeTo_of_not_isCopied copied
  | true =>
      have untraced : tracing = false := by
        match frame, tracing with
        | .file _ _ _ true, false => rfl
      rw [writeTo_of_isCopied in_order copied, Writer.transmission, untraced]
      by_cases fits : share (writer.left .empty) frame.bytes.size = frame.bytes.size
      · rw [Writer.result_of_fits fits]
        dsimp only
        rw [ByteArray.empty_append, if_pos whole]
        rfl
      · rw [Writer.result_of_short fits]
        rfl

/-- Whatever the pieces and portions are, a frame is sent as if all of it was put into the room
of the writer at once, also if its file has become shorter. -/
theorem writeTo_eq_send (in_order : ∀ bytes, Writer.joined (cut bytes) = bytes) :
    frame.writeTo cut tracing writer = frame.send tracing writer.toRoom := by
  have results : writer.result .empty frame.bytes = writer.put frame.bytes := by
    rw [put_eq, Writer.result, Writer.left_empty, ByteArray.empty_append]
  cases copied : frame.isCopied tracing with
  | true =>
      rw [writeTo_of_isCopied in_order copied, send_of_isCopied copied, results]
      rfl
  | false =>
      rw [writeTo_of_not_isCopied copied, send_of_not_isCopied copied, Writer.transmission, results,
        sendWhole]

end Payload

/-! ### Frames with their files -/

namespace Parcel

variable {cut : ByteArray → List ByteArray} {parcel : Parcel} {directory : Directory}
  {bytes : ByteArray} {name : String} {tracing : Bool} {writer : Writer}

/-- The bytes of a frame are those with which it was finished. -/
def Keeps (parcel : Parcel) (directory : Directory) (bytes : ByteArray) : Prop :=
  ∃ frame, parcel.unpack directory = .ok frame ∧ frame.bytes = bytes ∧ frame.length = bytes.size

theorem keeps_buffer : (buffer bytes).Keeps directory bytes := ⟨.buffer bytes, rfl, rfl, rfl⟩

theorem keeps_file {streaming : Bool} (unaltered : directory.get? name = some bytes) :
    (file name bytes.size streaming).Keeps directory bytes := by
  refine ⟨.file name bytes bytes.size streaming, ?_, ByteArray.extract_zero_size, rfl⟩
  rw [unpack, unaltered]

theorem Keeps.toBytes (keeps : parcel.Keeps directory bytes) : parcel.toBytes directory = .ok bytes := by
  obtain ⟨frame, unpacked, same, _⟩ := keeps
  rw [Parcel.toBytes, unpacked, ← same]
  rfl

theorem Keeps.send {frame : Payload} (keeps : parcel.Keeps directory bytes)
    (in_order : ∀ bytes, Writer.joined (cut bytes) = bytes)
    (unpacked : parcel.unpack directory = .ok frame) :
    frame.send tracing writer.toRoom = writer.transmission tracing bytes := by
  obtain ⟨same_frame, same_unpacked, same, length⟩ := keeps
  rw [unpacked] at same_unpacked
  cases same_unpacked
  have whole : frame.bytes.size = frame.length := by rw [same, length]
  rw [← Payload.writeTo_eq_send in_order, Payload.writeTo_of_length in_order whole, same]

theorem Keeps.writeTo (keeps : parcel.Keeps directory bytes)
    (in_order : ∀ bytes, Writer.joined (cut bytes) = bytes) :
    parcel.writeTo cut directory tracing writer =
      (writer.transmission tracing bytes, parcel.drop directory) := by
  obtain ⟨frame, unpacked, same, length⟩ := keeps
  have whole : frame.bytes.size = frame.length := by rw [same, length]
  rw [Parcel.writeTo, unpacked, ← same]
  dsimp only
  rw [Payload.writeTo_of_length in_order whole]

/-- The same bytes are sent alike from a buffer, from a file that is read first and from one that
is copied, traced or not: as many of them as the writer takes, and without a fault exactly if
it takes all.  Afterwards the file is gone, and every other file is as it was. -/
theorem written_alike (in_order : ∀ bytes, Writer.joined (cut bytes) = bytes)
    (unaltered : directory.get? name = some bytes) (writer : Writer) (tracing : Bool) :
    ∃ transmission : Transmission,
      transmission.sent = bytes.extract 0 (share writer.limit bytes.size) ∧
      (transmission.outcome = .ok () ↔ Fits writer.limit bytes.size) ∧
      (¬Fits writer.limit bytes.size → transmission.outcome = .error writer.refusal) ∧
      ∀ parcel ∈ [buffer bytes, file name bytes.size false, file name bytes.size true],
        parcel.toBytes directory = .ok bytes ∧
        (∀ frame, parcel.unpack directory = .ok frame →
          frame.send tracing writer.toRoom = transmission) ∧
        ∃ after, parcel.writeTo cut directory tracing writer = (transmission, after) ∧
          ∀ other, after.get? other =
            if parcel.path = some other then none else directory.get? other := by
  refine ⟨writer.transmission tracing bytes, Writer.sent_transmission, ?_, ?_, ?_⟩
  · rw [Writer.outcome_transmission, ← share_eq_iff_fits]
    simp
  · intro short
    rw [← share_eq_iff_fits] at short
    rw [Writer.outcome_transmission, if_neg short]
  · intro parcel listed
    have keeps : parcel.Keeps directory bytes := by
      simp only [List.mem_cons, List.not_mem_nil, or_false] at listed
      obtain rfl | rfl | rfl := listed
      · exact keeps_buffer
      · exact keeps_file unaltered
      · exact keeps_file unaltered
    exact ⟨keeps.toBytes, fun _ unpacked => keeps.send in_order unpacked, _,
      keeps.writeTo in_order, directory.get?_without parcel.path⟩

/-- Some bytes cut into pieces that fill a buffer of a size, save the last. -/
def piecesOf (size : Nat) (bytes : ByteArray) : List ByteArray :=
  if _more : size ≠ 0 ∧ size < bytes.size then
    bytes.extract 0 size :: piecesOf size (bytes.extract size bytes.size)
  else [bytes]
termination_by bytes.size
decreasing_by
  rw [ByteArray.size_extract]
  omega

theorem joined_piecesOf (size : Nat) (bytes : ByteArray) : Writer.joined (piecesOf size bytes) = bytes := by
  fun_induction piecesOf size bytes with
  | case1 bytes more ih =>
      rw [Writer.joined, List.foldr_cons]
      exact (congrArg _ ih).trans extract_append_rest
  | case2 bytes last => exact ByteArray.append_empty

/-- A writer that takes half of what it is offered stops in the second piece of a copied file. -/
theorem written_alike_of_pieces :
    let bytes : ByteArray := ⟨Array.replicate 20000 7⟩
    let writer : Writer := { limit := some 8200, portion := fun _ offer => offer.size / 2 }
    let directory : Directory := SortedMap.empty.insert "frame" bytes
    ∃ transmission : Transmission, transmission.sent = bytes.extract 0 8200 ∧
      transmission.outcome = .error .writerFull ∧
      ∃ after, (file "frame" 20000 true).writeTo (piecesOf 8192) directory false writer =
        (transmission, after) ∧ after.get? "frame" = none := by
  intro bytes writer directory
  have size : bytes.size = 20000 := Array.size_replicate
  have unaltered : directory.get? "frame" = some bytes := SortedMap.get?_insert.trans (if_pos rfl)
  obtain ⟨transmission, sent, _, failed, alike⟩ :=
    written_alike (joined_piecesOf 8192) unaltered writer false
  have short : ¬Fits writer.limit bytes.size := by
    intro fits
    have beyond := fits 8200 rfl
    rw [size] at beyond
    exact absurd beyond (by decide)
  obtain ⟨_, _, after, written, files⟩ := alike (file "frame" bytes.size true) (by simp)
  rw [size] at sent written files
  exact ⟨transmission, sent, failed short, after, written, files "frame"⟩

end Parcel

/-! ### Finished frames -/

namespace Store

variable {store : Store} {threshold : Nat}

/-- A frame that is finished keeps what its store held. -/
theorem Steady.keeps_pack (steady : store.Steady threshold) (directory : Directory) :
    ∃ frame, store.finish = .ok frame ∧
      (frame.pack directory).1.Keeps (frame.pack directory).2 store.contents := by
  cases store with
  | memory store => exact ⟨_, rfl, Parcel.keeps_buffer⟩
  | disk store =>
      refine ⟨_, steady.1.toFiled.finish, ?_⟩
      exact Parcel.keeps_file (SortedMap.get?_insert.trans (if_pos rfl))

/-- In whatever mode a frame was collected, the bytes that the same operations leave in memory
are sent. -/
theorem writeTo_of_run {cut : ByteArray → List ByteArray}
    (in_order : ∀ bytes, Writer.joined (cut bytes) = bytes) (mode : CollationMode) (threshold : Nat)
    (name : String) (operations : List Operation) (directory : Directory) (writer : Writer)
    (tracing : Bool) :
    let bytes := ((Store.memory .create).run operations).2.contents
    ∃ frame, ((create mode threshold { name }).run operations).2.finish = .ok frame ∧
      let (parcel, stored) := frame.pack directory
      parcel.writeTo cut stored tracing writer =
        (writer.transmission tracing bytes, parcel.drop stored) := by
  intro bytes
  have steady_memory : (Store.memory .create).Steady 0 := trivial
  obtain ⟨steady, _, _, same⟩ := (steady_create mode threshold rfl).run operations steady_memory
    (contents_create mode threshold { name })
  obtain ⟨frame, finished, keeps⟩ := steady.keeps_pack directory
  rw [same] at keeps
  exact ⟨frame, finished, keeps.writeTo in_order⟩

end Store

end CheckRounds.Collation
