import CheckRounds.Collation.Stream
import CheckRounds.Proofs.Collation.Parcels
import CheckRounds.Proofs.Collation.Transmissions
import CheckRounds.Proofs.Frame
import CheckRounds.Proofs.Message.Submission

namespace CheckRounds.Collation

/-! The frame that a stream builds in pieces is the one that is encoded at once.

A stream writes a length of zero before it knows the length, a comma behind every record,
and takes the last comma back.  What is left in the end is the frame of the payload, in
whatever kind of store it was built.
-/

namespace Stream

/-- An open stream with some bytes, all of them counted. -/
def Holds (stream : Stream) (bytes : List UInt8) : Prop :=
  ∃ store, stream.store = some store ∧ store.Steady FileStore.defaultThreshold ∧
    store.contents.data.toList = bytes ∧ stream.byteCount = bytes.length

/-- What a stream begins with: the length field is not filled in. -/
def beginning : List UInt8 :=
  Frame.header ++ littleEndian Frame.lengthFieldLength 0 ++ Submission.opener

/-- A stream into which records were put, each with a comma behind it. -/
structure Collects (stream : Stream) (records : List Record) : Prop where
  holds : stream.Holds (beginning ++ records.flatMap Record.writeSeparated)
  counted : stream.resultCount = records.length
  lengthOffset : stream.lengthOffset = some Frame.headerLength
  untrimmed : stream.trimmed = false

variable {stream : Stream} {bytes : List UInt8} {records : List Record}

theorem holds_create {store : Store} (mode : CollationMode)
    (steady : store.Steady FileStore.defaultThreshold) (empty : store.contents = .empty) :
    (create mode store).Holds [] := by
  refine ⟨store, rfl, steady, ?_, rfl⟩
  rw [empty]
  rfl

/-- A new stream in a mode, over a file of this name if the mode takes one. -/
def fresh (mode : CollationMode) (name : String) : Stream :=
  create mode (.create mode FileStore.defaultThreshold { name })

theorem holds_fresh (mode : CollationMode) (name : String) : (fresh mode name).Holds [] :=
  holds_create mode (Store.steady_create mode FileStore.defaultThreshold rfl) (Store.contents_create mode _ _)

theorem Holds.append (holds : stream.Holds bytes) (more : ByteArray) :
    ∃ after, stream.append more = (.ok (), after) ∧ after.Holds (bytes ++ more.data.toList) ∧
      after.resultCount = stream.resultCount ∧ after.lengthOffset = stream.lengthOffset ∧
      after.trimmed = stream.trimmed := by
  obtain ⟨store, same, steady, contents, byteCount⟩ := holds
  obtain ⟨mode, store, count, resultCount, lengthOffset, trimmed⟩ := stream
  cases same
  obtain ⟨after, done, steadyAfter, contentsAfter⟩ := steady.append more
  refine ⟨⟨mode, some after, count + more.size, resultCount, lengthOffset, trimmed⟩, ?_,
    ⟨after, rfl, steadyAfter, ?_, ?_⟩, rfl, rfl, rfl⟩
  · rw [Stream.append]
    rw [done]
  · rw [contentsAfter, ByteArray.toList_data_append, contents]
  · rw [List.length_append, ← byteCount, size_eq_length_toList]

theorem Holds.takeFrame (holds : stream.Holds bytes) :
    ∃ frame, stream.takeFrame = (.ok frame, stream.close) ∧ frame.bytes.data.toList = bytes ∧
      frame.length = bytes.length := by
  obtain ⟨store, same, steady, contents, _⟩ := holds
  obtain ⟨frame, finished, length, held⟩ := steady.finish
  refine ⟨frame, ?_, ?_, ?_⟩
  · rw [Stream.takeFrame, same]
    simp only [finished]
  · rw [held, contents]
  · rw [length, size_eq_length_toList, contents]

/-! ### The file of a stream -/

/-- However appending ends, the stream is in the same mode and over the same file. -/
theorem append_alone (stream : Stream) (more : ByteArray) :
    (stream.append more).2.mode = stream.mode ∧ (stream.append more).2.file? = stream.file? := by
  obtain ⟨mode, store, count, resultCount, lengthOffset, trimmed⟩ := stream
  cases store with
  | none => exact ⟨rfl, rfl⟩
  | some store =>
      have same := @Store.file?_append store more
      rw [append]
      dsimp only
      split <;> next appended => rw [appended] at same; exact ⟨rfl, same⟩

theorem file?_append (stream : Stream) (more : ByteArray) :
    (stream.append more).2.file? = stream.file? := (append_alone stream more).2

/-- What appending keeps up, the beginning of a frame keeps up. -/
theorem openFrame_keeps {motive : Stream → Prop}
    (appends : ∀ stream more, motive stream → motive (stream.append more).2)
    (reserves : ∀ stream offset, motive stream → motive { stream with lengthOffset := offset })
    (holds : motive stream) : motive stream.openFrame.2 := by
  unfold openFrame
  split
  · exact holds
  · have first := appends stream ⟨Frame.header.toArray⟩ holds
    rw [appendList]
    split
    · next failed => rw [failed] at first; exact first
    · next between done =>
        rw [done] at first
        have second := appends between ⟨(littleEndian Frame.lengthFieldLength 0).toArray⟩ first
        dsimp only
        rw [appendList]
        split
        · next failed => rw [failed] at second; exact second
        · next reserved done =>
            rw [done] at second
            exact appends _ _ (reserves reserved _ second)

theorem openFrame_alone (stream : Stream) :
    stream.openFrame.2.mode = stream.mode ∧ stream.openFrame.2.file? = stream.file? :=
  openFrame_keeps (motive := fun after => after.mode = stream.mode ∧ after.file? = stream.file?)
    (fun before more same =>
      ⟨(append_alone before more).1.trans same.1, (append_alone before more).2.trans same.2⟩)
    (fun _ _ same => same) ⟨rfl, rfl⟩

theorem appendRecord_alone (stream : Stream) (record : ByteArray) :
    (stream.appendRecord record).2.mode = stream.mode ∧
      (stream.appendRecord record).2.file? = stream.file? := by
  have same := append_alone stream record
  unfold appendRecord
  split <;> next appended => rw [appended] at same; exact same

theorem file?_trim (stream : Stream) : stream.trim.2.file? = stream.file? := by
  unfold trim
  split
  · rfl
  · split
    · rfl
    · next store held =>
        have same := @Store.file?_truncate store (stream.byteCount - 1)
        dsimp only
        split <;> next truncated =>
          rw [truncated] at same
          rw [file?, file?, held]
          exact same

theorem file?_patchLength (stream : Stream) : stream.patchLength.2.file? = stream.file? := by
  unfold patchLength
  split
  · rfl
  · next offset _ =>
      dsimp only
      split
      · rfl
      · next store held =>
          have same := @Store.file?_overwrite store ⟨(littleEndian Frame.lengthFieldLength
            (stream.byteCount - offset - Frame.lengthFieldLength)).toArray⟩ offset
          split <;> next overwritten =>
            rw [overwritten] at same
            rw [file?, file?, held]
            exact same

theorem file?_complete (stream : Stream) (clock : Int) :
    (stream.complete clock).2.file? = stream.file? := by
  have trimmed := file?_trim stream
  unfold complete
  split
  · next failed =>
      rw [failed] at trimmed
      exact trimmed
  · next between done =>
      rw [done] at trimmed
      have closed := file?_append between ⟨(Submission.closer clock).toArray⟩
      split
      · next failed =>
          rw [writeCloser, appendList] at failed
          rw [failed] at closed
          exact closed.trans trimmed
      · next ended written =>
          rw [writeCloser, appendList] at written
          rw [written] at closed
          exact (file?_patchLength ended).trans (closed.trans trimmed)

/-! ### Collecting -/

theorem collects_openFrame {store : Store} (mode : CollationMode)
    (holds : (create mode store).Holds []) :
    ∃ after, (create mode store).openFrame = (.ok (), after) ∧ after.Collects [] := by
  obtain ⟨first, firstDone, firstHolds, firstCount, firstOffset, firstTrimmed⟩ :=
    holds.append ⟨Frame.header.toArray⟩
  obtain ⟨second, secondDone, secondHolds, secondCount, secondOffset, secondTrimmed⟩ :=
    firstHolds.append ⟨(littleEndian Frame.lengthFieldLength 0).toArray⟩
  have offset : first.byteCount = Frame.headerLength := by
    obtain ⟨_, _, _, _, byteCount⟩ := firstHolds
    exact byteCount
  have secondHolds' : ({ second with lengthOffset := some first.byteCount } : Stream).Holds
      ([] ++ Frame.header ++ littleEndian Frame.lengthFieldLength 0) := secondHolds
  obtain ⟨after, done, holds, count, lengthOffset, trimmed⟩ :=
    secondHolds'.append ⟨Submission.opener.toArray⟩
  refine ⟨after, ?_, ?_, ?_, ?_, ?_⟩
  · have unwritten : ¬(create mode store).lengthOffset.isSome = true := by simp [create]
    rw [openFrame, if_neg unwritten, appendList, firstDone]
    dsimp only
    rw [appendList, secondDone]
    exact done
  · rw [List.flatMap_nil, List.append_nil]
    exact holds
  · rw [count]
    exact secondCount.trans firstCount
  · rw [lengthOffset, ← offset]
  · rw [trimmed]
    exact secondTrimmed.trans firstTrimmed

theorem Collects.appendRecord (collects : stream.Collects records) (record : Record) :
    ∃ after, stream.appendRecord ⟨record.writeSeparated.toArray⟩ = (.ok (), after) ∧
      after.Collects (records ++ [record]) := by
  obtain ⟨between, done, holds, count, lengthOffset, trimmed⟩ :=
    collects.holds.append ⟨record.writeSeparated.toArray⟩
  refine ⟨{ between with resultCount := between.resultCount + 1 }, ?_, ?_, ?_, ?_, ?_⟩
  · rw [Stream.appendRecord, done]
  · rw [List.flatMap_append, List.flatMap_singleton, ← List.append_assoc]
    exact holds
  · rw [List.length_append, ← collects.counted, ← count]
    rfl
  · exact lengthOffset.trans collects.lengthOffset
  · exact trimmed.trans collects.untrimmed

theorem Collects.appendRecords (collects : stream.Collects records) (more : List Record) :
    ∃ after, stream.appendRecords (more.map fun record => ⟨record.writeSeparated.toArray⟩) =
      (.ok (), after) ∧ after.Collects (records ++ more) := by
  induction more generalizing stream records with
  | nil =>
      rw [List.append_nil]
      exact ⟨stream, rfl, collects⟩
  | cons record rest ih =>
      obtain ⟨between, first, collectsFirst⟩ := collects.appendRecord record
      obtain ⟨after, others, collectsAll⟩ := ih collectsFirst
      refine ⟨after, ?_, ?_⟩
      · rw [List.map_cons, Stream.appendRecords, first]
        exact others
      · rwa [List.append_assoc] at collectsAll

/-! ### Completing -/

/-- The commas behind the records are those between them and one more. -/
theorem flatMap_writeSeparated (some_records : records ≠ []) :
    records.flatMap Record.writeSeparated = Json.commaSeparated (records.map Record.write) ++ [0x2C] := by
  induction records with
  | nil => contradiction
  | cons record rest ih =>
      cases rest with
      | nil => simp [Record.writeSeparated, Json.commaSeparated]
      | cons second others =>
          have separated : Json.commaSeparated ((record :: second :: others).map Record.write) =
              record.write ++ 0x2C :: Json.commaSeparated ((second :: others).map Record.write) := rfl
          rw [List.flatMap_cons, ih (by simp), separated, Record.writeSeparated]
          simp

/-- Only the comma behind the last record is taken back, if there is any. -/
theorem Collects.trim (collects : stream.Collects records) :
    ∃ dropped after, stream.trim = (.ok dropped, after) ∧
      after.Holds (beginning ++ Json.commaSeparated (records.map Record.write)) ∧
      after.lengthOffset = some Frame.headerLength := by
  unfold Stream.trim
  by_cases nothing : records = []
  · subst nothing
    have uncounted : stream.resultCount = 0 := collects.counted
    refine ⟨false, stream, ?_, collects.holds, collects.lengthOffset⟩
    simp [uncounted]
  · have counted : stream.resultCount ≠ 0 := by
      rw [collects.counted]
      exact fun empty => nothing (List.length_eq_zero_iff.mp empty)
    obtain ⟨store, same, steady, contents, byteCount⟩ := collects.holds
    rw [flatMap_writeSeparated nothing, ← List.append_assoc] at contents byteCount
    have inside : stream.byteCount - 1 ≤ store.length := by
      rw [steady.length_eq, size_eq_length_toList, contents, ← byteCount]
      exact Nat.sub_le _ _
    obtain ⟨after, done, steadyAfter, contentsAfter⟩ := steady.truncate inside
    have shorter : stream.byteCount - 1 =
        (beginning ++ Json.commaSeparated (records.map Record.write)).length := by
      rw [byteCount, List.length_append, List.length_singleton, Nat.add_sub_cancel]
    refine ⟨true, { stream with store := some after, byteCount := stream.byteCount - 1, trimmed := true },
      ?_, ⟨after, rfl, steadyAfter, ?_, shorter⟩, collects.lengthOffset⟩
    · simp [counted, collects.untrimmed, same, done]
    · rw [contentsAfter, toList_extract, List.drop_zero, Nat.sub_zero, contents, shorter,
        List.take_left]

/-- The length goes where zeros were. -/
theorem Holds.patchLength {body : List UInt8}
    (holds : stream.Holds (Frame.header ++ littleEndian Frame.lengthFieldLength 0 ++ body))
    (lengthOffset : stream.lengthOffset = some Frame.headerLength) :
    ∃ after, stream.patchLength = (.ok body.length, after) ∧ after.Holds (Frame.encode body) := by
  obtain ⟨store, same, steady, contents, byteCount⟩ := holds
  have length : stream.byteCount - Frame.headerLength - Frame.lengthFieldLength = body.length := by
    rw [byteCount, List.length_append, Frame.length_lead]
    simp only [Frame.headerLength, Frame.lengthFieldLength, Frame.leadLength]
    omega
  have inside : Frame.headerLength +
      (⟨(littleEndian Frame.lengthFieldLength body.length).toArray⟩ : ByteArray).size ≤
        store.length := by
    rw [steady.length_eq, size_eq_length_toList, size_eq_length_toList, contents, List.length_append,
      Frame.length_lead]
    simp only [length_littleEndian, Frame.headerLength, Frame.lengthFieldLength, Frame.leadLength]
    omega
  obtain ⟨after, done, steadyAfter, contentsAfter⟩ := steady.overwrite inside
  refine ⟨{ stream with store := some after }, ?_, after, rfl, steadyAfter, ?_, ?_⟩
  · rw [Stream.patchLength, lengthOffset]
    dsimp only
    rw [same, length]
    dsimp only
    rw [done]
  · have before : (Frame.header ++ littleEndian Frame.lengthFieldLength 0 ++ body).take
        Frame.headerLength = Frame.header := rfl
    have behind : (Frame.header ++ littleEndian Frame.lengthFieldLength 0 ++ body).drop
        Frame.leadLength = body := rfl
    have width : Frame.headerLength +
        (⟨(littleEndian Frame.lengthFieldLength body.length).toArray⟩ : ByteArray).size =
          Frame.leadLength := by
      rw [size_eq_length_toList, length_littleEndian]
      rfl
    rw [contentsAfter, toList_overwritten, contents, width, before, behind]
    rfl
  · rw [byteCount, Frame.length_encode, List.length_append, Frame.length_lead]

theorem Collects.complete (collects : stream.Collects records) (clock : Int) :
    ∃ after, stream.complete clock = (.ok (Submission.payload records clock).length, after) ∧
      after.Holds (Frame.encode (Submission.payload records clock)) := by
  obtain ⟨dropped, trimmed, trimDone, trimHolds, trimOffset⟩ := collects.trim
  obtain ⟨closed, closeDone, closeHolds, _, closeOffset, _⟩ :=
    trimHolds.append ⟨(Submission.closer clock).toArray⟩
  have shape : beginning ++ Json.commaSeparated (records.map Record.write) ++
      Submission.closer clock = Frame.header ++ littleEndian Frame.lengthFieldLength 0 ++
        Submission.payload records clock := by
    simp [beginning, Submission.payload]
  rw [shape] at closeHolds
  obtain ⟨after, patchDone, holds⟩ := closeHolds.patchLength (closeOffset.trans trimOffset)
  refine ⟨after, ?_, holds⟩
  rw [Stream.complete, trimDone]
  dsimp only
  rw [writeCloser, appendList, closeDone]
  exact patchDone

/-- The bytes of the frame that a stream ends up with. -/
def finalized (stream : Stream) (clock : Int) : Except Fault (List UInt8) :=
  match stream.complete clock with
  | (.error fault, _) => .error fault
  | (.ok _, stream) => stream.takeFrame.1.map fun frame => frame.bytes.data.toList

theorem Collects.finalized (collects : stream.Collects records) (clock : Int) :
    stream.finalized clock = .ok (Frame.encode (Submission.payload records clock)) := by
  obtain ⟨completed, completeDone, holds⟩ := collects.complete clock
  obtain ⟨frame, takeDone, bytes, _⟩ := holds.takeFrame
  rw [Stream.finalized, completeDone]
  dsimp only
  rw [takeDone, ← bytes]
  rfl

/-- The order of the records does not matter for the length of the payload. -/
theorem length_payload_of_perm {told : List Record} (same : told.Perm records) (clock : Int) :
    (Submission.payload told clock).length = (Submission.payload records clock).length := by
  have separated : (Json.commaSeparated (told.map Record.write)).length =
      (Json.commaSeparated (records.map Record.write)).length := by
    by_cases nothing : records = []
    · subst nothing
      rw [same.eq_nil]
    · have something : told ≠ [] := fun empty => nothing (same.symm.trans (by rw [empty])).eq_nil
      have lengths := (same.flatMap_right Record.writeSeparated).length_eq
      rw [flatMap_writeSeparated nothing, flatMap_writeSeparated something, List.length_append,
        List.length_append] at lengths
      omega
  simp only [Submission.payload, List.length_append, separated]

/-! ### Delivering -/

/-- Of a frame that is as long as it says, as much is sent as there is room for, copied from a
file or not. -/
theorem send_of_length {frame : Payload} (whole : frame.bytes.size = frame.length) (tracing : Bool)
    (room : Room) : (frame.send tracing room).sent = (room.put frame.bytes).1 ∧
      (frame.send tracing room).outcome = (room.put frame.bytes).2 := by
  unfold Payload.send
  split
  · unfold Payload.sendCopied
    split
    · next taken => exact ⟨by rw [taken], by rw [taken]⟩
    · next taken => exact ⟨by rw [taken], by rw [taken, if_pos (eq_of_put_eq_ok taken ▸ whole)]⟩
  · exact ⟨rfl, rfl⟩

/-- A frame that was taken out is in the file of the stream, and the stream has none any more. -/
theorem file?_of_takeFrame {frame : Payload} {closed : Stream}
    (taken : stream.takeFrame = (.ok frame, closed)) : frame.file? = stream.file? := by
  unfold Stream.takeFrame at taken
  split at taken
  · cases taken
  · next store same =>
      split at taken
      · cases taken
      · next finished =>
          cases taken
          rw [Store.file?_of_finish finished, file?, same]
          rfl

theorem file?_takeFrame (stream : Stream) : stream.takeFrame.2.file? = none := by
  unfold Stream.takeFrame
  split
  · next nothing => rw [file?, nothing]; rfl
  · split <;> rfl

theorem file?_deliver (stream : Stream) (directory : Directory) (tracing : Bool) (room : Room) :
    (stream.deliver directory tracing room).stream.file? = none := by
  have gone := file?_takeFrame stream
  unfold deliver
  split <;> next taken => rw [taken] at gone; exact gone

/-- However sending ends, the file is gone. -/
theorem directory_deliver (stream : Stream) (directory : Directory) (tracing : Bool) (room : Room) :
    (stream.deliver directory tracing room).directory = stream.release directory := by
  unfold deliver
  split
  · rfl
  · next frame closed taken =>
      simp only [Parcel.send_pack]
      rw [file?_of_takeFrame taken, release]

/-- The outcome for a stream is the one for its bytes. -/
theorem Holds.deliver (holds : stream.Holds bytes) (directory : Directory) (tracing : Bool)
    (room : Room) :
    ∃ transmission, stream.deliver directory tracing room =
        { outcome := match (room.put ⟨bytes.toArray⟩).2 with
            | .ok () => .ok bytes.length
            | .error fault => .error (.transport fault)
          transmission := some transmission
          stream := stream.close
          directory := stream.release directory } ∧
      transmission.sent = (room.put ⟨bytes.toArray⟩).1 := by
  obtain ⟨frame, taken, same, length⟩ := holds.takeFrame
  have whole : frame.bytes.size = frame.length := by
    rw [size_eq_length_toList, same, length]
  have held : frame.bytes = ⟨bytes.toArray⟩ := by
    rw [← same, Array.toArray_toList]
  obtain ⟨sent, outcome⟩ := send_of_length whole tracing room
  refine ⟨frame.send tracing room, ?_, held ▸ sent⟩
  rw [Stream.deliver, taken]
  dsimp only
  rw [Parcel.send_pack, file?_of_takeFrame taken]
  dsimp only
  rewrite [outcome, length, held]
  rfl

/-! ### Frames -/

/-- Collects records into a new stream: the length that completing it tells, and its frame. -/
def frameOf (mode : CollationMode) (name : String) (records : List Record) (clock : Int) :
    Except Fault (Nat × Payload) :=
  match (fresh mode name).openFrame with
  | (.error fault, _) => .error fault
  | (.ok (), stream) =>
      match stream.appendRecords (records.map fun record => ⟨record.writeSeparated.toArray⟩) with
      | (.error fault, _) => .error fault
      | (.ok (), stream) =>
          match stream.complete clock with
          | (.error fault, _) => .error fault
          | (.ok length, stream) => stream.takeFrame.1.map fun frame => (length, frame)

/-- What is built in pieces is the frame of the payload, of which the length is told.  It is
decoded to the payload, and the payload is read as exactly the records that were put in. -/
theorem frameOf_eq (mode : CollationMode) (name : String) (records : List Record) (clock : Int) :
    ∃ frame, frameOf mode name records clock = .ok ((Submission.payload records clock).length, frame) ∧
      frame.bytes.data.toList = Frame.encode (Submission.payload records clock) ∧
      ((Submission.payload records clock).length ≤ Frame.payloadLimit →
        Frame.decode frame.bytes.data.toList = .ok (Submission.payload records clock)) ∧
      Json.Tree.parse? (Submission.payload records clock) = some (Submission.tree records clock) ∧
      (clock.natAbs < wordLimit → (∀ record ∈ records, record.clock.natAbs < wordLimit) →
        Submission.read? (Submission.tree records clock) = some (records, clock)) := by
  obtain ⟨opened, openDone, collectsNone⟩ := collects_openFrame mode (holds_fresh mode name)
  obtain ⟨collected, appendDone, collectsAll⟩ := collectsNone.appendRecords records
  obtain ⟨completed, completeDone, holds⟩ := collectsAll.complete clock
  obtain ⟨frame, takeDone, bytes, _⟩ := holds.takeFrame
  refine ⟨frame, ?_, bytes, ?_, Submission.parse?_payload records clock, Submission.read?_tree⟩
  · rw [frameOf, fresh, openDone]
    dsimp only
    rw [appendDone]
    dsimp only
    rw [completeDone]
    dsimp only
    rw [takeDone]
    rfl
  · intro fits
    have decoded : Frame.decode (Frame.encode (Submission.payload records clock) ++ []) =
        .ok (Submission.payload records clock) := Frame.decode_encode_append fits
    rwa [bytes, ← List.append_nil (Frame.encode _)]

/-- A value that looks like the end of the array stays a value. -/
theorem frameOf_of_brackets :
    let record : Record := ⟨"h", "k", "\"\x7d],\u0001\\", true, 5⟩
    ∃ frame, frameOf .directDisk "frame" [record] (-7) = .ok (111, frame) ∧
      Frame.decode frame.bytes.data.toList = .ok (Submission.payload [record] (-7)) ∧
      (Json.Tree.parse? (Submission.payload [record] (-7))).bind Submission.read? =
        some ([record], -7) := by
  intro record
  obtain ⟨frame, done, _, decoded, parsed, read⟩ := frameOf_eq .directDisk "frame" [record] (-7)
  have length : (Submission.payload [record] (-7)).length = 111 := by decide +kernel
  refine ⟨frame, length ▸ done, decoded ?_, ?_⟩
  · rw [length]
    decide
  · rw [parsed]
    exact read (by decide) (by decide)

end Stream

end CheckRounds.Collation
