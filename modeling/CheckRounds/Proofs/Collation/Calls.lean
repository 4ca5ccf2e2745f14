import CheckRounds.Proofs.Collation.Streams

namespace CheckRounds.Collation

/-! Whatever is called on a stream, in whatever order, its counters tell what was done.

Every call either is refused, and then nothing has changed, or does one thing to the bytes.
What one call can come to is said once, in `Stream.Does`; the invariant and the account of a
whole run follow from that.
-/

/-- A store with some bytes that spills at the usual threshold. -/
def Store.Has (store : Store) (bytes : List UInt8) : Prop :=
  store.Steady FileStore.defaultThreshold ∧ store.contents.data.toList = bytes

namespace Store.Has

variable {store : Store} {bytes : List UInt8}

theorem length_eq (has : store.Has bytes) : store.length = bytes.length := by
  rw [has.1.length_eq, size_eq_length_toList, has.2]

theorem append (has : store.Has bytes) (more : ByteArray) :
    ∃ after, store.append more = (.ok (), after) ∧ after.Has (bytes ++ more.data.toList) := by
  obtain ⟨after, done, steady, contents⟩ := has.1.append more
  refine ⟨after, done, steady, ?_⟩
  rw [contents, ByteArray.toList_data_append, has.2]

end Store.Has

namespace Stream

/-- What a client can do with a stream.  A record is never empty. -/
inductive Call
  | openFrame
  | appendRecord (record : ByteArray) (some_bytes : record.size ≠ 0)
  | trim
  | writeCloser (clock : Int)
  | patchLength
  | takeFrame
  | close

/-- What a call that succeeds tells. -/
inductive Answer
  | done
  | trimmed (dropped : Bool)
  | patched (length : Nat)
  | taken (frame : Payload)

def perform (stream : Stream) : Call → Except Fault Answer × Stream
  | .openFrame => stream.openFrame.map (Except.map fun _ => .done) id
  | .appendRecord record _ => (stream.appendRecord record).map (Except.map fun _ => .done) id
  | .trim => stream.trim.map (Except.map .trimmed) id
  | .writeCloser clock => (stream.writeCloser clock).map (Except.map fun _ => .done) id
  | .patchLength => stream.patchLength.map (Except.map .patched) id
  | .takeFrame => stream.takeFrame.map (Except.map .taken) id
  | .close => (.ok .done, stream.close)

/-- The calls that were made, each with its answer, and the stream that they leave. -/
def performAll (stream : Stream) : List Call → List (Call × Except Fault Answer) × Stream
  | [] => ([], stream)
  | call :: rest =>
      let (answer, after) := stream.perform call
      let (log, final) := after.performAll rest
      ((call, answer) :: log, final)

/-- Why a stream refuses a call, if it does. -/
def refusal? (stream : Stream) (call : Call) : Option Fault :=
  let closed := if stream.isOpen then none else some .streamClosed
  match call with
  | .openFrame =>
      if stream.lengthOffset.isSome then some (.protocol .headerAlreadyWritten) else closed
  | .trim => if stream.resultCount = 0 || stream.trimmed then none else closed
  | .patchLength =>
      if stream.lengthOffset.isNone then some (.protocol .headerNeverWritten) else closed
  | .close => none
  | _ => closed

/-- The stream with another store, all bytes of which are counted. -/
def withStore (stream : Stream) (store : Store) : Stream :=
  { stream with store := some store, byteCount := store.length }

/-- Some bytes with the number of those behind a length field in the field. -/
def patchedAt (bytes : List UInt8) (offset : Nat) : List UInt8 :=
  let behind := bytes.drop (offset + Frame.lengthFieldLength)
  bytes.take offset ++ littleEndian Frame.lengthFieldLength behind.length ++ behind

/-- What a call can come to. -/
inductive Does (stream : Stream) : Call → Except Fault Answer → Stream → Prop
  | refused {call : Call} {fault : Fault} (refusal : stream.refusal? call = some fault) :
      Does stream call (.error fault) stream
  | opened {bytes : List UInt8} {store : Store} (holds : stream.Holds bytes)
      (unopened : stream.lengthOffset = none) (has : store.Has (bytes ++ beginning)) :
      Does stream .openFrame (.ok .done)
        { stream.withStore store with lengthOffset := some (bytes.length + Frame.headerLength) }
  | recorded {record : ByteArray} {some_bytes : record.size ≠ 0} {bytes : List UInt8} {store : Store}
      (holds : stream.Holds bytes) (has : store.Has (bytes ++ record.data.toList)) :
      Does stream (.appendRecord record some_bytes) (.ok .done)
        { stream.withStore store with resultCount := stream.resultCount + 1 }
  | kept (nothing : stream.resultCount = 0 ∨ stream.trimmed = true) :
      Does stream .trim (.ok (.trimmed false)) stream
  | dropped {bytes : List UInt8} {last : UInt8} {store : Store} (holds : stream.Holds (bytes ++ [last]))
      (some_records : stream.resultCount ≠ 0) (untrimmed : stream.trimmed = false)
      (has : store.Has bytes) :
      Does stream .trim (.ok (.trimmed true)) { stream.withStore store with trimmed := true }
  | finished {clock : Int} {bytes : List UInt8} {store : Store} (holds : stream.Holds bytes)
      (has : store.Has (bytes ++ Submission.closer clock)) :
      Does stream (.writeCloser clock) (.ok .done) (stream.withStore store)
  | patched {bytes : List UInt8} {offset : Nat} {store : Store} (holds : stream.Holds bytes)
      (opened : stream.lengthOffset = some offset)
      (inside : offset + Frame.lengthFieldLength ≤ bytes.length)
      (has : store.Has (patchedAt bytes offset)) :
      Does stream .patchLength
        (.ok (.patched (bytes.drop (offset + Frame.lengthFieldLength)).length)) (stream.withStore store)
  | taken {bytes : List UInt8} {frame : Payload} (holds : stream.Holds bytes)
      (whole : frame.bytes.data.toList = bytes) :
      Does stream .takeFrame (.ok (.taken frame)) stream.close
  | closed : Does stream .close (.ok .done) stream.close

/-- What is so at every time.  Neither of the subtractions that trimming and patching make can
go below zero: a record that has its comma is counted, and so are a length field and at least
a byte behind it until the comma is gone. -/
structure Sound (stream : Stream) : Prop where
  held : stream.isOpen = true → ∃ bytes, stream.Holds bytes
  trimmable : stream.resultCount ≠ 0 → stream.trimmed = false → 1 ≤ stream.byteCount
  patchable : ∀ offset, stream.lengthOffset = some offset →
    offset + Frame.lengthFieldLength + (if stream.trimmed then 0 else 1) ≤ stream.byteCount

variable {stream after : Stream} {store : Store} {bytes : List UInt8} {call : Call}
  {answer : Except Fault Answer}

theorem sound_fresh (mode : CollationMode) (name : String) : (fresh mode name).Sound :=
  ⟨fun _ => ⟨[], holds_fresh mode name⟩, fun some_records => absurd rfl some_records,
    fun _ opened => by contradiction⟩

theorem holds_withStore (stream : Stream) (has : store.Has bytes) :
    (stream.withStore store).Holds bytes :=
  ⟨store, rfl, has.1, has.2, has.length_eq⟩

theorem length_patchedAt {offset : Nat} (inside : offset + Frame.lengthFieldLength ≤ bytes.length) :
    (patchedAt bytes offset).length = bytes.length := by
  simp only [patchedAt, List.length_append, List.length_take, length_littleEndian, List.length_drop]
  omega

/-! ### One call -/

theorem Holds.isOpen (holds : stream.Holds bytes) : stream.isOpen = true := by
  obtain ⟨store, same, _⟩ := holds
  rw [Stream.isOpen, same]
  rfl

theorem store_of_closed (closed : stream.isOpen = false) : stream.store = none := by
  rw [Stream.isOpen] at closed
  exact Option.isNone_iff_eq_none.mp (Option.isSome_eq_false_iff.mp closed)

/-- Appending to an open stream counts what is appended. -/
theorem Holds.append_eq (holds : stream.Holds bytes) (more : ByteArray) :
    ∃ store : Store, store.Has (bytes ++ more.data.toList) ∧
      stream.append more = (.ok (), stream.withStore store) := by
  obtain ⟨store, same, steady, contents, byteCount⟩ := holds
  obtain ⟨after, done, has⟩ := Store.Has.append ⟨steady, contents⟩ more
  obtain ⟨mode, opened, count, resultCount, lengthOffset, trimmed⟩ := stream
  cases same
  have counted : count + more.size = after.length := by
    rw [has.length_eq, List.length_append, ← size_eq_length_toList]
    exact congrArg (· + more.size) byteCount
  refine ⟨after, has, ?_⟩
  simp only [Stream.append, done, withStore, counted]

theorem append_of_closed (closed : stream.isOpen = false) (more : ByteArray) :
    stream.append more = (.error .streamClosed, stream) := by
  have none := store_of_closed closed
  obtain ⟨mode, store, count, resultCount, lengthOffset, trimmed⟩ := stream
  cases none
  rfl

theorem Sound.does_openFrame (sound : stream.Sound) :
    stream.Does .openFrame (stream.perform .openFrame).1 (stream.perform .openFrame).2 := by
  rw [perform, openFrame]
  cases opened : stream.lengthOffset with
  | some offset => exact .refused (by simp [refusal?, opened])
  | none =>
      rw [if_neg (by simp)]
      cases isOpen : stream.isOpen with
      | false =>
          rw [appendList, append_of_closed isOpen]
          exact .refused (by simp [refusal?, opened, isOpen])
      | true =>
          obtain ⟨bytes, holds⟩ := sound.held isOpen
          obtain ⟨first, has_first, done_first⟩ := holds.append_eq ⟨Frame.header.toArray⟩
          obtain ⟨second, has_second, done_second⟩ := (holds_withStore stream has_first).append_eq
            ⟨(littleEndian Frame.lengthFieldLength 0).toArray⟩
          have offset : (stream.withStore first).byteCount = bytes.length + Frame.headerLength :=
            has_first.length_eq.trans List.length_append
          have holds_second : ({ (stream.withStore first).withStore second with
              lengthOffset := some (stream.withStore first).byteCount } : Stream).Holds _ :=
            holds_withStore (stream.withStore first) has_second
          obtain ⟨third, has_third, done_third⟩ := holds_second.append_eq ⟨Submission.opener.toArray⟩
          rw [appendList, done_first]
          dsimp only
          rw [appendList, done_second]
          dsimp only
          rw [appendList, done_third, offset]
          refine .opened holds opened ?_
          have all : bytes ++ Frame.header ++ littleEndian Frame.lengthFieldLength 0 ++
              Submission.opener = bytes ++ beginning := by
            simp only [beginning, List.append_assoc]
          rwa [← all]

theorem Sound.does_appendRecord (sound : stream.Sound) (record : ByteArray)
    (some_bytes : record.size ≠ 0) :
    stream.Does (.appendRecord record some_bytes) (stream.perform (.appendRecord record some_bytes)).1
      (stream.perform (.appendRecord record some_bytes)).2 := by
  rw [perform, appendRecord]
  cases isOpen : stream.isOpen with
  | false =>
      rw [append_of_closed isOpen]
      exact .refused (by simp [refusal?, isOpen])
  | true =>
      obtain ⟨bytes, holds⟩ := sound.held isOpen
      obtain ⟨store, has, done⟩ := holds.append_eq record
      rw [done]
      exact .recorded holds has

theorem Sound.does_writeCloser (sound : stream.Sound) (clock : Int) :
    stream.Does (.writeCloser clock) (stream.perform (.writeCloser clock)).1
      (stream.perform (.writeCloser clock)).2 := by
  rw [perform, writeCloser, appendList]
  cases isOpen : stream.isOpen with
  | false =>
      rw [append_of_closed isOpen]
      exact .refused (by simp [refusal?, isOpen])
  | true =>
      obtain ⟨bytes, holds⟩ := sound.held isOpen
      obtain ⟨store, has, done⟩ := holds.append_eq ⟨(Submission.closer clock).toArray⟩
      rw [done]
      exact .finished holds has

/-- Trimming stays inside the store, since a comma is there that was not yet taken back. -/
theorem Sound.does_trim (sound : stream.Sound) :
    stream.Does .trim (stream.perform .trim).1 (stream.perform .trim).2 := by
  rw [perform, trim]
  by_cases nothing : stream.resultCount = 0 ∨ stream.trimmed = true
  · rw [if_pos (by simpa using nothing)]
    exact .kept nothing
  · rw [if_neg (by simpa using nothing)]
    obtain ⟨some_records, untrimmed⟩ := not_or.mp nothing
    rw [Bool.not_eq_true] at untrimmed
    cases isOpen : stream.isOpen with
    | false =>
        rw [store_of_closed isOpen]
        exact .refused (by simp [refusal?, isOpen, some_records, untrimmed])
    | true =>
        obtain ⟨bytes, holds⟩ := sound.held isOpen
        have some_bytes := sound.trimmable some_records untrimmed
        obtain ⟨store, same, steady, contents, byteCount⟩ := holds
        obtain ⟨front, last, rfl⟩ : ∃ front last, bytes = front ++ [last] := by
          refine ⟨bytes.dropLast, bytes.getLast ?_, (List.dropLast_concat_getLast _).symm⟩
          rw [← List.length_pos_iff]
          omega
        have shorter : stream.byteCount - 1 = front.length := by
          rw [byteCount, List.length_append, List.length_singleton, Nat.add_sub_cancel]
        have inside : front.length ≤ store.length := by
          rw [Store.Has.length_eq ⟨steady, contents⟩, List.length_append]
          exact Nat.le_add_right _ _
        obtain ⟨next, done, steady_next, contents_next⟩ := steady.truncate inside
        have has : next.Has front := by
          refine ⟨steady_next, ?_⟩
          rw [contents_next, toList_extract, List.drop_zero, Nat.sub_zero, contents, List.take_left]
        rw [same, shorter]
        dsimp only
        rw [done, ← has.length_eq]
        exact .dropped ⟨store, same, steady, contents, byteCount⟩ some_records untrimmed has

/-- Patching stays inside the store, since the length field is in front of its end. -/
theorem Sound.does_patchLength (sound : stream.Sound) :
    stream.Does .patchLength (stream.perform .patchLength).1 (stream.perform .patchLength).2 := by
  cases opened : stream.lengthOffset with
  | none =>
      rw [perform, patchLength, opened]
      exact .refused (by simp [refusal?, opened])
  | some offset =>
      cases isOpen : stream.isOpen with
      | false =>
          rw [perform, patchLength, opened, store_of_closed isOpen]
          exact .refused (by simp [refusal?, opened, isOpen])
      | true =>
          obtain ⟨bytes, holds⟩ := sound.held isOpen
          have counted := sound.patchable offset opened
          obtain ⟨store, same, steady, contents, byteCount⟩ := holds
          have inside : offset + Frame.lengthFieldLength ≤ bytes.length := by omega
          have behind : stream.byteCount - offset - Frame.lengthFieldLength =
              (bytes.drop (offset + Frame.lengthFieldLength)).length := by
            rw [byteCount, List.length_drop, Nat.sub_add_eq]
          have width (length : Nat) :
              (⟨(littleEndian Frame.lengthFieldLength length).toArray⟩ : ByteArray).size =
                Frame.lengthFieldLength := by
            rw [size_eq_length_toList, length_littleEndian]
          have field_inside (length : Nat) : offset +
              (⟨(littleEndian Frame.lengthFieldLength length).toArray⟩ : ByteArray).size ≤
                store.length := by
            rwa [width, Store.Has.length_eq ⟨steady, contents⟩]
          obtain ⟨next, done, steady_next, contents_next⟩ := steady.overwrite
            (field_inside (bytes.drop (offset + Frame.lengthFieldLength)).length)
          have has : next.Has (patchedAt bytes offset) := by
            refine ⟨steady_next, ?_⟩
            rw [contents_next, toList_overwritten, contents, width]
            rfl
          have uncounted : next.length = stream.byteCount := by
            rw [has.length_eq, length_patchedAt inside, byteCount]
          have patched : stream.patchLength =
              (.ok (bytes.drop (offset + Frame.lengthFieldLength)).length, stream.withStore next) := by
            rw [patchLength, opened, withStore, uncounted, opened]
            dsimp only
            rw [same, behind]
            dsimp only
            rw [done]
          rw [perform, patched]
          exact .patched ⟨store, same, steady, contents, byteCount⟩ opened inside has

/-- What a call comes to on a stream that is as it always is. -/
theorem Sound.does (sound : stream.Sound) (call : Call) :
    stream.Does call (stream.perform call).1 (stream.perform call).2 := by
  cases call with
  | openFrame => exact sound.does_openFrame
  | appendRecord record some_bytes => exact sound.does_appendRecord record some_bytes
  | trim => exact sound.does_trim
  | writeCloser clock => exact sound.does_writeCloser clock
  | patchLength => exact sound.does_patchLength
  | close => exact .closed
  | takeFrame =>
      cases isOpen : stream.isOpen with
      | false =>
          rw [perform, takeFrame, store_of_closed isOpen]
          exact .refused (by simp [refusal?, isOpen])
      | true =>
          obtain ⟨bytes, holds⟩ := sound.held isOpen
          obtain ⟨frame, done, whole, _⟩ := holds.takeFrame
          rw [perform, done]
          exact .taken holds whole

theorem Holds.byteCount_eq (holds : stream.Holds bytes) : stream.byteCount = bytes.length := by
  obtain ⟨_, _, _, _, counted⟩ := holds
  exact counted

/-- A stream that has no fewer bytes than before is as it always is. -/
theorem Sound.withStore (sound : stream.Sound) (has : store.Has bytes)
    (more : stream.byteCount ≤ bytes.length) : (stream.withStore store).Sound := by
  rw [← has.length_eq] at more
  exact ⟨fun _ => ⟨bytes, holds_withStore stream has⟩,
    fun some_records untrimmed => Nat.le_trans (sound.trimmable some_records untrimmed) more,
    fun offset same => Nat.le_trans (sound.patchable offset same) more⟩

theorem Does.sound (does : stream.Does call answer after) (sound : stream.Sound) : after.Sound := by
  cases does with
  | refused _ => exact sound
  | kept _ => exact sound
  | opened _ _ has =>
      have room : Frame.headerLength + Frame.lengthFieldLength + 1 ≤ beginning.length := by decide
      have grown := has.length_eq.trans List.length_append
      refine ⟨fun _ => ⟨_, holds_withStore stream has⟩, fun _ _ => ?_, fun offset same => ?_⟩
      · simp only [Stream.withStore]
        omega
      · cases same
        have comma : (if stream.trimmed then 0 else 1) ≤ 1 := by split <;> decide
        refine Nat.le_trans (Nat.add_le_add_left comma _) ?_
        simp only [Stream.withStore]
        omega
  | @recorded _ some_bytes _ _ holds has =>
      rw [size_eq_length_toList] at some_bytes
      have grown := has.length_eq.trans List.length_append
      have more := sound.withStore has (by rw [holds.byteCount_eq, List.length_append]; omega)
      refine ⟨more.held, fun _ _ => ?_, more.patchable⟩
      simp only [Stream.withStore]
      omega
  | dropped holds _ untrimmed has =>
      have counted := holds.byteCount_eq
      rw [List.length_append, List.length_singleton, ← has.length_eq] at counted
      refine ⟨fun _ => ⟨_, holds_withStore stream has⟩,
        fun _ impossible => by contradiction, fun offset same => ?_⟩
      have inside := sound.patchable offset same
      rw [untrimmed, counted] at inside
      exact Nat.le_of_succ_le_succ inside
  | finished holds has =>
      exact sound.withStore has (by rw [holds.byteCount_eq, List.length_append]; exact Nat.le_add_right _ _)
  | patched holds _ inside has =>
      exact sound.withStore has (Nat.le_of_eq (by rw [holds.byteCount_eq, length_patchedAt inside]))
  | taken _ _ => exact ⟨fun impossible => by contradiction, sound.trimmable, sound.patchable⟩
  | closed => exact ⟨fun impossible => by contradiction, sound.trimmable, sound.patchable⟩

/-- A closed stream stays as it is. -/
theorem Does.of_closed (does : stream.Does call answer after) (closed : stream.isOpen = false) :
    after = stream := by
  have unheld {bytes : List UInt8} (holds : stream.Holds bytes) : False := by
    rw [holds.isOpen] at closed
    contradiction
  cases does with
  | refused _ => rfl
  | kept _ => rfl
  | opened holds _ _ => exact (unheld holds).elim
  | recorded holds _ => exact (unheld holds).elim
  | dropped holds _ _ _ => exact (unheld holds).elim
  | finished holds _ => exact (unheld holds).elim
  | patched holds _ _ _ => exact (unheld holds).elim
  | taken holds _ => exact (unheld holds).elim
  | closed =>
      rw [close, ← store_of_closed closed]

/-- What a call does to the stream, and what it tells. -/
structure Obeys (stream : Stream) (call : Call) (answer : Except Fault Answer) (after : Stream) :
    Prop where
  refused_iff : ∀ fault, answer = .error fault ↔ stream.refusal? call = some fault
  unchanged : ∀ fault, answer = .error fault → after = stream
  reserved : after.lengthOffset = stream.lengthOffset ∨
    ∃ bytes, stream.lengthOffset = none ∧ stream.Holds bytes ∧ after.Holds (bytes ++ beginning) ∧
      after.lengthOffset = some (bytes.length + Frame.headerLength)
  shortened : answer = .ok (.trimmed true) →
    ∃ bytes last, stream.Holds (bytes ++ [last]) ∧ after.Holds bytes
  patched : ∀ length, answer = .ok (.patched length) → ∃ offset old new,
    stream.lengthOffset = some offset ∧ stream.Holds old ∧ after.Holds new ∧
      length = (new.drop (offset + Frame.lengthFieldLength)).length ∧
      (new.drop offset).take Frame.lengthFieldLength = littleEndian Frame.lengthFieldLength length ∧
      new.take offset = old.take offset ∧
      new.drop (offset + Frame.lengthFieldLength) = old.drop (offset + Frame.lengthFieldLength)
  ended : call = .close ∨ call = .takeFrame → after = stream.close

theorem patchedAt_parts {offset : Nat} (inside : offset + Frame.lengthFieldLength ≤ bytes.length) :
    (patchedAt bytes offset).take offset = bytes.take offset ∧
      ((patchedAt bytes offset).drop offset).take Frame.lengthFieldLength =
        littleEndian Frame.lengthFieldLength (bytes.drop (offset + Frame.lengthFieldLength)).length ∧
      (patchedAt bytes offset).drop (offset + Frame.lengthFieldLength) =
        bytes.drop (offset + Frame.lengthFieldLength) := by
  have front : (bytes.take offset).length = offset :=
    List.length_take_of_le (Nat.le_trans (Nat.le_add_right _ _) inside)
  have field (length : Nat) : (littleEndian Frame.lengthFieldLength length).length =
      Frame.lengthFieldLength := length_littleEndian _ _
  refine ⟨?_, ?_, ?_⟩
  · rw [patchedAt, List.append_assoc, List.take_left' front]
  · rw [patchedAt, List.append_assoc, List.drop_left' front, List.take_left' (field _)]
  · rw [patchedAt, List.drop_left' (by rw [List.length_append, front, field])]

theorem Does.refused_iff (does : stream.Does call answer after) (fault : Fault) :
    answer = .error fault ↔ stream.refusal? call = some fault := by
  cases does with
  | refused refusal => simp [refusal]
  | kept nothing => simp [refusal?, nothing]
  | opened holds unopened _ => simp [refusal?, holds.isOpen, unopened]
  | recorded holds _ => simp [refusal?, holds.isOpen]
  | dropped holds some_records untrimmed _ => simp [refusal?, holds.isOpen]
  | finished holds _ => simp [refusal?, holds.isOpen]
  | patched holds opened _ _ => simp [refusal?, holds.isOpen, opened]
  | taken holds _ => simp [refusal?, holds.isOpen]
  | closed => simp [refusal?]

theorem Does.ended (does : stream.Does call answer after) (ends : call = .close ∨ call = .takeFrame) :
    after = stream.close := by
  cases does with
  | refused refusal =>
      cases closed : stream.isOpen with
      | false => rw [close, ← store_of_closed closed]
      | true => obtain rfl | rfl := ends <;> simp [refusal?, closed] at refusal
  | taken _ _ => rfl
  | closed => rfl
  | _ => simp at ends

theorem Does.obeys (does : stream.Does call answer after) : stream.Obeys call answer after where
  refused_iff := does.refused_iff
  unchanged := by
    intro fault same
    cases does with
    | refused _ => rfl
    | _ => contradiction
  reserved := by
    cases does with
    | opened holds unopened has => exact .inr ⟨_, unopened, holds, holds_withStore stream has, rfl⟩
    | _ => exact .inl rfl
  shortened := by
    intro same
    cases does with
    | dropped holds _ _ has => exact ⟨_, _, holds, holds_withStore stream has⟩
    | _ => simp at same
  patched := by
    intro length same
    cases does with
    | @patched bytes offset _ holds opened inside has =>
        obtain ⟨front, field, behind⟩ := patchedAt_parts inside
        cases same
        exact ⟨offset, bytes, patchedAt bytes offset, opened, holds, holds_withStore stream has, by rw [behind],
          field, front, behind⟩
    | _ => simp at same
  ended := does.ended

/-! ### Many calls -/

/-- Whether a record was put in. -/
def isRecord : Call × Except Fault Answer → Bool
  | (.appendRecord _ _, .ok _) => true
  | _ => false

/-- Whether a byte was taken back. -/
def isDrop : Call × Except Fault Answer → Bool
  | (_, .ok (.trimmed true)) => true
  | _ => false

/-- The bytes that were put in. -/
def bytesWritten : Call × Except Fault Answer → List UInt8
  | (.openFrame, .ok _) => beginning
  | (.appendRecord record _, .ok _) => record.data.toList
  | (.writeCloser clock, .ok _) => Submission.closer clock
  | _ => []

/-- The counters of a stream tell what was done. -/
structure Tallies (stream : Stream) (log : List (Call × Except Fault Answer)) : Prop where
  recorded : stream.resultCount = log.countP isRecord
  dropped : log.countP isDrop = if stream.trimmed then 1 else 0
  balanced : stream.byteCount + log.countP isDrop = (log.flatMap bytesWritten).length

variable {log : List (Call × Except Fault Answer)}

theorem tallies_fresh (mode : CollationMode) (name : String) : (fresh mode name).Tallies [] :=
  ⟨rfl, rfl, rfl⟩

/-- One more call adds what it did to the account. -/
theorem Tallies.snoc (tallies : stream.Tallies log) {entry : Call × Except Fault Answer}
    (recorded : after.resultCount = stream.resultCount + if isRecord entry then 1 else 0)
    (dropped : (if after.trimmed then 1 else 0) =
      (if stream.trimmed then 1 else 0) + if isDrop entry then 1 else 0)
    (balanced : after.byteCount + (if isDrop entry then 1 else 0) =
      stream.byteCount + (bytesWritten entry).length) :
    after.Tallies (log ++ [entry]) := by
  refine ⟨?_, ?_, ?_⟩
  · rw [recorded, tallies.recorded, List.countP_append, List.countP_singleton]
  · rw [dropped, List.countP_append, List.countP_singleton, tallies.dropped]
  · rw [List.countP_append, List.countP_singleton, List.flatMap_append, List.flatMap_singleton,
      List.length_append, ← tallies.balanced]
    omega

theorem Does.tallies (does : stream.Does call answer after) (tallies : stream.Tallies log) :
    after.Tallies (log ++ [(call, answer)]) := by
  cases does with
  | refused _ => exact tallies.snoc (by cases call <;> rfl) rfl (by cases call <;> rfl)
  | kept _ => exact tallies.snoc rfl rfl rfl
  | opened holds _ has =>
      refine tallies.snoc rfl rfl ?_
      exact (has.length_eq.trans List.length_append).trans (by rw [holds.byteCount_eq]; rfl)
  | recorded holds has =>
      refine tallies.snoc rfl rfl ?_
      exact (has.length_eq.trans List.length_append).trans (by rw [holds.byteCount_eq]; rfl)
  | dropped holds _ untrimmed has =>
      refine tallies.snoc rfl (by rw [untrimmed]; rfl) ?_
      rw [holds.byteCount_eq, List.length_append, List.length_singleton, ← has.length_eq]
      rfl
  | finished holds has =>
      refine tallies.snoc rfl rfl ?_
      exact (has.length_eq.trans List.length_append).trans (by rw [holds.byteCount_eq]; rfl)
  | patched holds _ inside has =>
      refine tallies.snoc rfl rfl ?_
      exact has.length_eq.trans (by rw [holds.byteCount_eq, length_patchedAt inside]; rfl)
  | taken _ _ => exact tallies.snoc rfl rfl rfl
  | closed => exact tallies.snoc rfl rfl rfl

/-- The invariant and the account are kept through all calls. -/
theorem Sound.performAll (sound : stream.Sound) (tallies : stream.Tallies log) (calls : List Call) :
    (stream.performAll calls).2.Sound ∧
      (stream.performAll calls).2.Tallies (log ++ (stream.performAll calls).1) := by
  induction calls generalizing stream log with
  | nil =>
      rw [Stream.performAll, List.append_nil]
      exact ⟨sound, tallies⟩
  | cons call rest ih =>
      have does := sound.does call
      obtain ⟨sound_all, tallies_all⟩ := ih (does.sound sound) (does.tallies tallies)
      rw [List.append_assoc] at tallies_all
      exact ⟨sound_all, tallies_all⟩

/-- Nothing that is called on a closed stream changes it. -/
theorem Sound.performAll_of_closed (sound : stream.Sound) (closed : stream.isOpen = false)
    (calls : List Call) : (stream.performAll calls).2 = stream := by
  induction calls with
  | nil => rfl
  | cons call rest ih =>
      have same := (sound.does call).of_closed closed
      rw [Stream.performAll]
      dsimp only
      rw [same, ih]

/-- How the state of a stream agrees with what was called on it. -/
structure Agrees (stream : Stream) (log : List (Call × Except Fault Answer)) : Prop where
  counted : ∀ store, stream.store = some store → stream.byteCount = store.length
  recorded : stream.resultCount = log.countP isRecord
  balanced : stream.byteCount + log.countP isDrop = (log.flatMap bytesWritten).length
  dropped_once : log.countP isDrop ≤ 1
  trimmable : stream.resultCount ≠ 0 → stream.trimmed = false → 1 ≤ stream.byteCount
  patchable : ∀ offset, stream.lengthOffset = some offset →
    offset + Frame.lengthFieldLength ≤ stream.byteCount

theorem Sound.agrees (sound : stream.Sound) (tallies : stream.Tallies log) : stream.Agrees log where
  counted := by
    intro store same
    obtain ⟨bytes, held, same_held, steady, contents, byteCount⟩ :=
      sound.held (by rw [isOpen, same]; rfl)
    cases same.symm.trans same_held
    rw [byteCount, Store.Has.length_eq ⟨steady, contents⟩]
  recorded := tallies.recorded
  balanced := tallies.balanced
  dropped_once := by
    rw [tallies.dropped]
    split <;> decide
  trimmable := sound.trimmable
  patchable := by
    intro offset same
    exact Nat.le_trans (Nat.le_add_right _ _) (sound.patchable offset same)

/-- Whatever was called on a new stream, in whatever order and however often: its counters tell
what was done, no subtraction goes below zero, the next call does what it should or changes
nothing, and once the stream is closed nothing changes it any more. -/
theorem keeps_account (mode : CollationMode) (name : String) (calls : List Call) :
    let log := ((fresh mode name).performAll calls).1
    let stream := ((fresh mode name).performAll calls).2
    stream.Agrees log ∧
      (∀ call, stream.Obeys call (stream.perform call).1 (stream.perform call).2) ∧
      (stream.isOpen = false → ∀ later, (stream.performAll later).2 = stream) := by
  intro log stream
  obtain ⟨sound, tallies⟩ := (sound_fresh mode name).performAll (tallies_fresh mode name) calls
  exact ⟨sound.agrees tallies, fun call => (sound.does call).obeys,
    fun closed later => sound.performAll_of_closed closed later⟩

end Stream

end CheckRounds.Collation
