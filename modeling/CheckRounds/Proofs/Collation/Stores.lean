import CheckRounds.Collation.Payload

namespace CheckRounds.Collation

/-! Both kinds of store do the same.

A store with a file keeps the cursor of the file at its end and has all bytes of the file
counted.  Then whatever is done to it is done to its contents just as a buffer would do
it, wherever the border between the file and the staged bytes lies, as long as the file has
room for them.
-/

theorem put_of_unlimited {room : Room} (unlimited : room.limit = none) (bytes : ByteArray) :
    room.put bytes = (bytes, .ok ()) := by
  rw [Room.put, unlimited]

/-! ### Bytes -/

section Bytes

variable {bytes patch front back : ByteArray} {position start stop : Nat}

theorem extract_of_size_le (long : bytes.size ≤ stop) :
    bytes.extract start stop = bytes.extract start bytes.size := by
  apply ByteArray.ext
  rw [ByteArray.data_extract, ByteArray.data_extract]
  rcases Nat.eq_or_lt_of_le long with same | longer
  · rw [same]
  · exact Array.extract_of_size_lt longer

theorem extract_all (long : bytes.size ≤ stop) : bytes.extract 0 stop = bytes := by
  rw [extract_of_size_le long, ByteArray.extract_zero_size]

theorem extract_none (crossed : min stop bytes.size ≤ start) :
    bytes.extract start stop = .empty := ByteArray.extract_eq_empty_iff.mpr crossed

theorem size_eq_length_toList (bytes : ByteArray) : bytes.size = bytes.data.toList.length := by
  rw [Array.length_toList]
  rfl

theorem toList_extract : (bytes.extract start stop).data.toList =
    (bytes.data.toList.drop start).take (stop - start) := by
  rw [ByteArray.data_extract, Array.toList_extract, List.extract_eq_take_drop]

theorem toList_overwritten : (overwritten bytes position patch).data.toList =
    bytes.data.toList.take position ++ patch.data.toList ++
      bytes.data.toList.drop (position + patch.size) := by
  have all : (bytes.data.toList.drop (position + patch.size)).length ≤
      bytes.size - (position + patch.size) := by
    refine Nat.le_of_eq ?_
    rw [List.length_drop, size_eq_length_toList bytes]
  rw [overwritten, ByteArray.toList_data_append, ByteArray.toList_data_append, toList_extract,
    toList_extract, List.drop_zero, Nat.sub_zero, List.take_of_length_le all]

theorem size_overwritten (fits : position + patch.size ≤ bytes.size) :
    (overwritten bytes position patch).size = bytes.size := by
  simp only [overwritten, ByteArray.size_append, ByteArray.size_extract]
  omega

theorem overwritten_of_size_eq_zero (nothing : patch.size = 0) (inside : position ≤ bytes.size) :
    overwritten bytes position patch = bytes := by
  rw [overwritten, ByteArray.size_eq_zero_iff.mp nothing, ByteArray.append_empty,
    ByteArray.size_empty, Nat.add_zero, ByteArray.extract_append_extract, Nat.zero_min,
    Nat.max_eq_right inside, ByteArray.extract_zero_size]

/-- What lies in front of all that is overwritten stays. -/
theorem overwritten_append_right (behind : front.size ≤ position) :
    overwritten (front ++ back) position patch =
      front ++ overwritten back (position - front.size) patch := by
  have kept : front.extract 0 position = front := extract_all behind
  have gone : front.extract (position + patch.size) (front ++ back).size = .empty :=
    extract_none (by omega)
  have rest : position + patch.size - front.size = position - front.size + patch.size := by omega
  have last : (front ++ back).size - front.size = back.size := by
    rw [ByteArray.size_append]
    omega
  rw [overwritten, ByteArray.extract_append, ByteArray.extract_append, kept, gone,
    ByteArray.empty_append, rest, last, Nat.zero_sub, overwritten, ByteArray.append_assoc,
    ByteArray.append_assoc, ByteArray.append_assoc]

theorem overwritten_append_left (before : position + patch.size ≤ front.size) :
    overwritten (front ++ back) position patch = overwritten front position patch ++ back := by
  have none : back.extract (0 - front.size) (position - front.size) = .empty :=
    extract_none (by omega)
  have frontRest : front.extract (position + patch.size) (front ++ back).size =
      front.extract (position + patch.size) front.size := by
    refine extract_of_size_le ?_
    rw [ByteArray.size_append]
    omega
  have backRest : back.extract (position + patch.size - front.size)
      ((front ++ back).size - front.size) = back := by
    rw [Nat.sub_eq_zero_of_le before]
    refine extract_all ?_
    rw [ByteArray.size_append]
    omega
  rw [overwritten, ByteArray.extract_append, ByteArray.extract_append, none, frontRest, backRest,
    ByteArray.append_empty, overwritten, ByteArray.append_assoc]
  simp only [ByteArray.append_assoc]

/-- What is overwritten across a border is overwritten on either side of it. -/
theorem overwritten_append (before : position ≤ front.size)
    (behind : front.size ≤ position + patch.size) :
    overwritten (front ++ back) position patch =
      overwritten front position (patch.extract 0 (front.size - position)) ++
        overwritten back 0 (patch.extract (front.size - position) patch.size) := by
  have whole : patch = patch.extract 0 (front.size - position) ++
      patch.extract (front.size - position) patch.size := by
    rw [ByteArray.extract_append_extract, Nat.zero_min, extract_all (by omega)]
  have none : back.extract (0 - front.size) (position - front.size) = .empty :=
    extract_none (by omega)
  have gone : front.extract (position + patch.size) (front ++ back).size = .empty :=
    extract_none (by omega)
  have frontGone : front.extract (position + (patch.extract 0 (front.size - position)).size)
      front.size = .empty := by
    refine extract_none ?_
    rw [ByteArray.size_extract]
    omega
  have backRest : back.extract (position + patch.size - front.size)
      ((front ++ back).size - front.size) =
        back.extract (0 + (patch.extract (front.size - position) patch.size).size) back.size := by
    rw [ByteArray.size_extract, ByteArray.size_append]
    congr 1 <;> omega
  rw [overwritten, ByteArray.extract_append, ByteArray.extract_append, none, gone, backRest,
    overwritten, overwritten, frontGone, extract_none (by omega : min 0 back.size ≤ 0)]
  simp only [ByteArray.append_empty, ByteArray.empty_append]
  conv => lhs; lhs; rw [whole]
  simp only [ByteArray.append_assoc]

end Bytes

/-! ### Files -/

namespace SpillFile

variable {file : SpillFile} {bytes patch : ByteArray} {length position : Nat}

theorem resized_of_le (long : length ≤ bytes.size) : resized bytes length = bytes.extract 0 length := by
  rw [resized, Nat.sub_eq_zero_of_le long]
  exact ByteArray.append_empty

theorem write_of_unlimited (unlimited : file.room.limit = none) : file.write bytes =
    (.ok (),
      { file with
        contents := resized file.contents file.cursor ++ bytes ++
          file.contents.extract (file.cursor + bytes.size) file.contents.size
        cursor := file.cursor + bytes.size }) := by
  have still : (file.room.after file.cursor).limit = none := by rw [Room.after, unlimited]; rfl
  rw [write, put_of_unlimited still]

theorem write_at_end (unlimited : file.room.limit = none) (atEnd : file.cursor = file.contents.size) :
    file.write bytes =
      (.ok (),
        { file with contents := file.contents ++ bytes, cursor := file.contents.size + bytes.size }) := by
  rw [write_of_unlimited unlimited, atEnd, resized_of_le (Nat.le_refl _), ByteArray.extract_zero_size,
    extract_none (by omega), ByteArray.append_empty]

theorem write_inside (unlimited : file.room.limit = none)
    (fits : position + patch.size ≤ file.contents.size) :
    (file.seek position).write patch =
      (.ok (),
        { file with
          contents := overwritten file.contents position patch
          cursor := position + patch.size }) := by
  have sought : (file.seek position).room.limit = none := unlimited
  have inside : position ≤ file.contents.size := Nat.le_of_add_right_le fits
  rw [write_of_unlimited sought, overwritten, ← resized_of_le inside]
  rfl

/-- However writing ends, it is the same file. -/
theorem name_of_write {outcome : Except IoFault Unit} {after : SpillFile}
    (written : file.write bytes = (outcome, after)) : after.name = file.name := by
  have same : (file.write bytes).2.name = file.name := rfl
  rwa [written] at same

end SpillFile

/-! ### Stores with a file -/

namespace FileStore

/-- The cursor is at the end of the file, all bytes of the file are counted, and there is room
for more. -/
structure Filed (store : FileStore) : Prop where
  counted : store.file.contents.size = store.spilled
  atEnd : store.file.cursor = store.spilled
  unlimited : store.file.room.limit = none

/-- Fewer bytes are staged than are to be spilled. -/
structure Steady (store : FileStore) : Prop extends Filed store where
  staged : store.staging.size < store.threshold

variable {store after : FileStore} {bytes patch : ByteArray} {length position : Nat} {file : TempFile}

theorem steady_create (streaming : Bool) (threshold : Nat) (unlimited : file.room.limit = none) :
    (create streaming threshold file).Steady :=
  ⟨⟨rfl, rfl, unlimited⟩, Nat.lt_of_lt_of_le Nat.zero_lt_one (Nat.le_max_right _ _)⟩

theorem Filed.length_eq (filed : store.Filed) : store.length = store.contents.size := by
  rw [length, contents, ByteArray.size_append, filed.counted]

theorem isEmpty_iff : bytes.isEmpty = true ↔ bytes = .empty := by
  rw [ByteArray.isEmpty, beq_iff_eq, ByteArray.size_eq_zero_iff]

/-- Spilling moves all staged bytes into the file. -/
theorem Filed.spill (filed : store.Filed) : store.spill =
    (.ok (),
      { store with
        staging := .empty
        file := { store.file with contents := store.contents, cursor := store.contents.size }
        spilled := store.contents.size }) := by
  obtain ⟨counted, atEnd, unlimited⟩ := filed
  unfold FileStore.spill
  split
  · next nothing =>
      rw [isEmpty_iff] at nothing
      have unspilled : store.contents = store.file.contents := by
        rw [contents, nothing, ByteArray.append_empty]
      obtain ⟨staging, ⟨made, filed, cursor⟩, spilled, threshold, streaming⟩ := store
      dsimp only at nothing counted atEnd unspilled
      rw [unspilled, nothing, counted, atEnd]
  · rw [SpillFile.write_at_end unlimited (atEnd.trans counted.symm), ← counted]
    dsimp only
    rw [← ByteArray.size_append]
    rfl

theorem Steady.append (steady : store.Steady) (bytes : ByteArray) :
    ∃ after, store.append bytes = (.ok (), after) ∧ after.Steady ∧
      after.threshold = store.threshold ∧ after.contents = store.contents ++ bytes := by
  unfold FileStore.append
  dsimp only
  have filed : { store with staging := store.staging ++ bytes }.Filed :=
    ⟨steady.counted, steady.atEnd, steady.unlimited⟩
  split
  · refine ⟨_, filed.spill, ⟨⟨rfl, rfl, steady.unlimited⟩, ?_⟩, rfl, ?_⟩
    · exact Nat.lt_of_le_of_lt (Nat.zero_le _) steady.staged
    · simp only [contents, ByteArray.append_empty, ByteArray.append_assoc]
  · next few =>
      refine ⟨_, rfl, ⟨filed, Nat.lt_of_not_le few⟩, rfl, ?_⟩
      simp only [contents, ByteArray.append_assoc]

theorem truncate_of_length_lt (beyond : store.length < length) :
    store.truncate length = (.error .truncateOutOfRange, store) := if_pos beyond

/-- Truncating cuts off staged bytes or goes back into the file. -/
theorem Steady.truncate (steady : store.Steady) (inside : length ≤ store.length) :
    ∃ after, store.truncate length = (.ok (), after) ∧ after.Steady ∧
      after.threshold = store.threshold ∧ after.contents = store.contents.extract 0 length := by
  unfold FileStore.truncate
  rw [if_neg (Nat.not_lt_of_le inside)]
  split
  · next staged =>
      refine ⟨_, rfl, ⟨⟨steady.counted, steady.atEnd, steady.unlimited⟩, ?_⟩, rfl, ?_⟩
      · have shorter : (store.staging.extract 0 (length - store.spilled)).size ≤
            store.staging.size := by
          rw [ByteArray.size_extract]
          omega
        exact Nat.lt_of_le_of_lt shorter steady.staged
      · have kept : store.file.contents.extract 0 length = store.file.contents :=
          extract_all (by rw [steady.counted]; exact staged)
        simp only [contents]
        rw [ByteArray.extract_append, kept, steady.counted, Nat.zero_sub]
  · next filed =>
      have inFile : length ≤ store.file.contents.size := by
        rw [steady.counted]
        exact Nat.le_of_not_le filed
      have cut : SpillFile.resized store.file.contents length =
          store.file.contents.extract 0 length := SpillFile.resized_of_le inFile
      have counted : (SpillFile.resized store.file.contents length).size = length := by
        rw [cut, ByteArray.size_extract]
        omega
      refine ⟨_, rfl, ⟨⟨counted, counted, steady.unlimited⟩, ?_⟩, rfl, ?_⟩
      · exact Nat.lt_of_le_of_lt (Nat.zero_le _) steady.staged
      · have none : store.staging.extract (0 - store.file.contents.size)
            (length - store.file.contents.size) = .empty := extract_none (by omega)
        simp only [contents]
        rw [ByteArray.extract_append, none]
        exact congrArg (· ++ .empty) cut

theorem overwrite_of_length_lt (beyond : store.length < position + patch.size) :
    store.overwrite position patch = (.error .overwriteOutOfRange, store) := if_pos beyond

/-- Overwriting a part of the file leaves the cursor at its end. -/
theorem Filed.overwriteFile (filed : store.Filed) (inFile : position < store.spilled) :
    store.overwriteFile position patch =
      (.ok (),
        { store.file with
          contents := overwritten store.file.contents position
            (patch.extract 0 (min store.spilled (position + patch.size) - position))
          cursor := store.spilled }) := by
  have fits : position + (patch.extract 0 (min store.spilled (position + patch.size) - position)).size ≤
      store.file.contents.size := by
    rw [filed.counted, ByteArray.size_extract]
    omega
  rw [FileStore.overwriteFile, if_pos inFile]
  dsimp only
  rw [SpillFile.write_inside filed.unlimited fits]
  dsimp only
  rw [SpillFile.seekEnd, SpillFile.seek, size_overwritten fits, filed.counted]

/-- A range can lie in the file, among the staged bytes, or in both. -/
theorem Steady.overwrite (steady : store.Steady) (inside : position + patch.size ≤ store.length) :
    ∃ after, store.overwrite position patch = (.ok (), after) ∧ after.Steady ∧
      after.threshold = store.threshold ∧
        after.contents = overwritten store.contents position patch := by
  have bound : position + patch.size ≤ store.spilled + store.staging.size := inside
  unfold FileStore.overwrite
  rw [if_neg (Nat.not_lt_of_le inside)]
  by_cases inFile : position < store.spilled
  · rw [steady.overwriteFile inFile]
    refine ⟨_, rfl, ?_⟩
    by_cases staged : store.spilled < position + patch.size
    · rw [overwriteStaged, if_pos staged, Nat.min_eq_left (Nat.le_of_lt staged),
        Nat.max_eq_right (Nat.le_of_lt inFile), Nat.sub_self]
      have front : position + (patch.extract 0 (store.spilled - position)).size ≤ store.spilled := by
        rw [ByteArray.size_extract]
        omega
      have back : 0 + (patch.extract (store.spilled - position) patch.size).size ≤
          store.staging.size := by
        rw [ByteArray.size_extract]
        omega
      refine ⟨⟨⟨?_, rfl, steady.unlimited⟩, ?_⟩, rfl, ?_⟩
      · exact (size_overwritten (steady.counted ▸ front)).trans steady.counted
      · exact (size_overwritten back).symm ▸ steady.staged
      · rw [contents, contents, overwritten_append (by rw [steady.counted]; omega)
          (by rw [steady.counted]; omega), steady.counted]
    · have whole : patch.extract 0 (min store.spilled (position + patch.size) - position) = patch :=
        extract_all (by omega)
      have front : position + patch.size ≤ store.spilled := Nat.le_of_not_lt staged
      rw [overwriteStaged, if_neg staged, whole]
      refine ⟨⟨⟨?_, rfl, steady.unlimited⟩, steady.staged⟩, rfl, ?_⟩
      · exact (size_overwritten (steady.counted ▸ front)).trans steady.counted
      · rw [contents, contents, overwritten_append_left (by rw [steady.counted]; exact front)]
  · have behind : store.file.contents.size ≤ position := by
      rw [steady.counted]
      exact Nat.le_of_not_lt inFile
    rw [FileStore.overwriteFile, if_neg inFile]
    refine ⟨_, rfl, ?_⟩
    by_cases staged : store.spilled < position + patch.size
    · have whole : patch.extract (store.spilled - position) patch.size = patch := by
        rw [Nat.sub_eq_zero_of_le (Nat.le_of_not_lt inFile)]
        exact ByteArray.extract_zero_size
      have back : position - store.spilled + patch.size ≤ store.staging.size := by omega
      rw [overwriteStaged, if_pos staged, Nat.max_eq_left (Nat.le_of_not_lt inFile), whole]
      refine ⟨⟨⟨steady.counted, steady.atEnd, steady.unlimited⟩, ?_⟩, rfl, ?_⟩
      · exact (size_overwritten back).symm ▸ steady.staged
      · rw [contents, contents, overwritten_append_right behind, steady.counted]
    · rw [overwriteStaged, if_neg staged]
      refine ⟨⟨⟨steady.counted, steady.atEnd, steady.unlimited⟩, steady.staged⟩, rfl, ?_⟩
      have nothing : patch.size = 0 := by omega
      rw [overwritten_of_size_eq_zero nothing]
      rw [← steady.length_eq]
      exact Nat.le_of_add_right_le inside

theorem name_spill : store.spill.2.file.name = store.file.name := by
  unfold spill
  split
  · rfl
  · split <;> next written => exact SpillFile.name_of_write written

theorem name_append : (store.append bytes).2.file.name = store.file.name := by
  unfold append
  dsimp only
  split
  · exact name_spill
  · rfl

theorem name_truncate : (store.truncate length).2.file.name = store.file.name := by
  unfold truncate
  split
  · rfl
  · split <;> rfl

theorem name_overwriteFile : (store.overwriteFile position patch).2.name = store.file.name := by
  unfold overwriteFile
  split
  · dsimp only
    split <;> next written =>
      have same := SpillFile.name_of_write written
      exact same
  · rfl

theorem name_overwrite : (store.overwrite position patch).2.file.name = store.file.name := by
  unfold overwrite
  split
  · rfl
  · have same := @name_overwriteFile store patch position
    split <;> next overwritten => rw [overwritten] at same; exact same

theorem Filed.finish (filed : store.Filed) : store.finish =
    .ok (.file store.file.name store.contents store.contents.size store.streaming) := by
  rw [FileStore.finish, filed.spill]

end FileStore

/-! ### Stores of either kind -/

namespace Store

/-- Stores that spill at a threshold are steady; those in memory always are. -/
def Steady (threshold : Nat) : Store → Prop
  | .memory _ => True
  | .disk store => store.Steady ∧ store.threshold = threshold

variable {store : Store} {bytes patch : ByteArray} {threshold length position : Nat} {file : TempFile}

theorem steady_create (mode : CollationMode) (threshold : Nat) (unlimited : file.room.limit = none) :
    (create mode threshold file).Steady (max threshold 1) := by
  unfold create
  split
  · exact ⟨FileStore.steady_create _ _ unlimited, rfl⟩
  · trivial

theorem contents_create (mode : CollationMode) (threshold : Nat) (file : TempFile) :
    (create mode threshold file).contents = .empty := by
  unfold create
  split <;> rfl

theorem file?_append : (store.append bytes).2.file? = store.file? := by
  cases store with
  | memory store => rfl
  | disk store => exact congrArg some FileStore.name_append

theorem file?_truncate : (store.truncate length).2.file? = store.file? := by
  cases store with
  | memory store => rfl
  | disk store => exact congrArg some FileStore.name_truncate

theorem file?_overwrite : (store.overwrite position patch).2.file? = store.file? := by
  cases store with
  | memory store => rfl
  | disk store => exact congrArg some FileStore.name_overwrite

theorem Steady.length_eq (steady : store.Steady threshold) : store.length = store.contents.size := by
  cases store with
  | memory store => rfl
  | disk store => exact steady.1.length_eq

theorem Steady.append (steady : store.Steady threshold) (bytes : ByteArray) :
    ∃ after, store.append bytes = (.ok (), after) ∧ after.Steady threshold ∧
      after.contents = store.contents ++ bytes := by
  cases store with
  | memory store => exact ⟨_, rfl, trivial, rfl⟩
  | disk store =>
      obtain ⟨after, done, steadyAfter, sameThreshold, contents⟩ := steady.1.append bytes
      refine ⟨.disk after, ?_, ⟨steadyAfter, sameThreshold.trans steady.2⟩, contents⟩
      rw [Store.append, done]
      rfl

theorem truncate_of_length_lt (beyond : store.length < length) :
    store.truncate length = (.error .truncateOutOfRange, store) := by
  cases store with
  | memory store => exact congrArg (Prod.map id memory) (if_pos beyond)
  | disk store => rw [truncate, FileStore.truncate_of_length_lt beyond]; rfl

theorem Steady.truncate (steady : store.Steady threshold) (inside : length ≤ store.length) :
    ∃ after, store.truncate length = (.ok (), after) ∧ after.Steady threshold ∧
      after.contents = store.contents.extract 0 length := by
  cases store with
  | memory store =>
      refine ⟨.memory ⟨store.buffer.extract 0 length⟩, ?_, trivial, rfl⟩
      exact congrArg (Prod.map id memory) (if_neg (Nat.not_lt_of_le inside))
  | disk store =>
      obtain ⟨after, done, steadyAfter, sameThreshold, contents⟩ := steady.1.truncate inside
      refine ⟨.disk after, ?_, ⟨steadyAfter, sameThreshold.trans steady.2⟩, contents⟩
      rw [Store.truncate, done]
      rfl

theorem overwrite_of_length_lt (beyond : store.length < position + patch.size) :
    store.overwrite position patch = (.error .overwriteOutOfRange, store) := by
  cases store with
  | memory store => exact congrArg (Prod.map id memory) (if_pos beyond)
  | disk store => rw [overwrite, FileStore.overwrite_of_length_lt beyond]; rfl

theorem Steady.overwrite (steady : store.Steady threshold)
    (inside : position + patch.size ≤ store.length) :
    ∃ after, store.overwrite position patch = (.ok (), after) ∧ after.Steady threshold ∧
      after.contents = overwritten store.contents position patch := by
  cases store with
  | memory store =>
      refine ⟨.memory ⟨overwritten store.buffer position patch⟩, ?_, trivial, rfl⟩
      exact congrArg (Prod.map id memory) (if_neg (Nat.not_lt_of_le inside))
  | disk store =>
      obtain ⟨after, done, steadyAfter, sameThreshold, contents⟩ := steady.1.overwrite inside
      refine ⟨.disk after, ?_, ⟨steadyAfter, sameThreshold.trans steady.2⟩, contents⟩
      rw [Store.overwrite, done]
      rfl

/-- A frame is in the file in which it was collected. -/
theorem file?_of_finish {frame : Payload} (finished : store.finish = .ok frame) :
    frame.file? = store.file? := by
  cases store with
  | memory store =>
      cases finished
      rfl
  | disk store =>
      rw [finish, FileStore.finish] at finished
      have same := @FileStore.name_spill store
      split at finished
      · cases finished
      · next full spilled =>
          cases finished
          rw [spilled] at same
          exact congrArg some same

theorem Steady.finish (steady : store.Steady threshold) :
    ∃ frame, store.finish = .ok frame ∧ frame.length = store.contents.size ∧
      frame.bytes = store.contents := by
  cases store with
  | memory store => exact ⟨_, rfl, rfl, rfl⟩
  | disk store => exact ⟨_, steady.1.toFiled.finish, rfl, ByteArray.extract_zero_size⟩

/-! ### Runs of operations -/

inductive Operation
  | append (bytes : ByteArray)
  | truncate (length : Nat)
  | overwrite (position : Nat) (patch : ByteArray)
  | length

/-- How an operation ended, or what it found. -/
inductive Response
  | done
  | counted (length : Nat)
  | failed (fault : IoFault)

def Response.ofOutcome : Except IoFault Unit → Response
  | .ok () => .done
  | .error fault => .failed fault

def perform (store : Store) : Operation → Response × Store
  | .append bytes => (store.append bytes).map .ofOutcome id
  | .truncate length => (store.truncate length).map .ofOutcome id
  | .overwrite position patch => (store.overwrite position patch).map .ofOutcome id
  | .length => (.counted store.length, store)

/-- The responses to operations, each with the length of the store after it, and the store
that is left. -/
def run (store : Store) : List Operation → List (Response × Nat) × Store
  | [] => ([], store)
  | operation :: rest =>
      let (response, after) := store.perform operation
      let (others, final) := run after rest
      ((response, after.length) :: others, final)

/-- What an operation does to the bytes of a store. -/
def Operation.onBytes (bytes : ByteArray) : Operation → Response × ByteArray
  | .append more => (.done, bytes ++ more)
  | .truncate length =>
      if bytes.size < length then (.failed .truncateOutOfRange, bytes)
      else (.done, bytes.extract 0 length)
  | .overwrite position patch =>
      if bytes.size < position + patch.size then (.failed .overwriteOutOfRange, bytes)
      else (.done, overwritten bytes position patch)
  | .length => (.counted bytes.size, bytes)

/-- A steady store responds by its contents alone, and its contents follow. -/
theorem Steady.perform (steady : store.Steady threshold) (operation : Operation) :
    (store.perform operation).2.Steady threshold ∧
      (store.perform operation).1 = (operation.onBytes store.contents).1 ∧
      (store.perform operation).2.contents = (operation.onBytes store.contents).2 := by
  cases operation with
  | append bytes =>
      obtain ⟨after, done, steadyAfter, contents⟩ := steady.append bytes
      rw [Store.perform, done]
      exact ⟨steadyAfter, rfl, contents⟩
  | truncate length =>
      rw [Store.perform, Operation.onBytes, ← steady.length_eq]
      by_cases beyond : store.length < length
      · rw [truncate_of_length_lt beyond, if_pos beyond]
        exact ⟨steady, rfl, rfl⟩
      · obtain ⟨after, done, steadyAfter, contents⟩ := steady.truncate (Nat.le_of_not_lt beyond)
        rw [done, if_neg beyond]
        exact ⟨steadyAfter, rfl, contents⟩
  | overwrite position patch =>
      rw [Store.perform, Operation.onBytes, ← steady.length_eq]
      by_cases beyond : store.length < position + patch.size
      · rw [overwrite_of_length_lt beyond, if_pos beyond]
        exact ⟨steady, rfl, rfl⟩
      · obtain ⟨after, done, steadyAfter, contents⟩ := steady.overwrite (Nat.le_of_not_lt beyond)
        rw [done, if_neg beyond]
        exact ⟨steadyAfter, rfl, contents⟩
  | length => exact ⟨steady, congrArg Response.counted steady.length_eq, rfl⟩

/-- Two steady stores that hold the same respond alike for ever. -/
theorem Steady.run {other : Store} {otherThreshold : Nat} (operations : List Operation)
    (steady : store.Steady threshold) (steadyOther : other.Steady otherThreshold)
    (same : store.contents = other.contents) :
    (store.run operations).2.Steady threshold ∧ (other.run operations).2.Steady otherThreshold ∧
      (store.run operations).1 = (other.run operations).1 ∧
      (store.run operations).2.contents = (other.run operations).2.contents := by
  induction operations generalizing store other with
  | nil => exact ⟨steady, steadyOther, rfl, same⟩
  | cons operation rest ih =>
      obtain ⟨steadyAfter, response, contents⟩ := steady.perform operation
      obtain ⟨steadyOtherAfter, responseOther, contentsOther⟩ := steadyOther.perform operation
      have sameAfter : (store.perform operation).2.contents =
          (other.perform operation).2.contents := by rw [contents, contentsOther, same]
      have sameLength : (store.perform operation).2.length = (other.perform operation).2.length := by
        rw [steadyAfter.length_eq, steadyOtherAfter.length_eq, sameAfter]
      have sameResponse : (store.perform operation).1 = (other.perform operation).1 := by
        rw [response, responseOther, same]
      obtain ⟨steadyFinal, steadyOtherFinal, responses, final⟩ :=
        ih steadyAfter steadyOtherAfter sameAfter
      refine ⟨steadyFinal, steadyOtherFinal, ?_, final⟩
      simp only [Store.run, sameResponse, sameLength, responses]

theorem exists_disk_of_run (file : FileStore) (operations : List Operation) :
    ∃ after, ((Store.disk file).run operations).2 = .disk after := by
  induction operations generalizing file with
  | nil => exact ⟨file, rfl⟩
  | cons operation rest ih =>
      obtain ⟨between, same⟩ : ∃ between, ((Store.disk file).perform operation).2 = .disk between := by
        cases operation <;> exact ⟨_, rfl⟩
      obtain ⟨after, final⟩ := ih between
      refine ⟨after, ?_⟩
      simp only [Store.run, same, final]

/-- Whatever is done to them, a store with a file that has room for it and one in memory, both
of which start empty, respond alike, are equally long after every operation and finish with the
same bytes.  All the while the file ends where its cursor is, and the staged bytes stay fewer
than the threshold. -/
theorem disk_run_eq_memory_run (streaming : Bool) (threshold : Nat) (name : String)
    (operations : List Operation) :
    let disk := (Store.disk (.create streaming threshold { name })).run operations
    let memory := (Store.memory .create).run operations
    disk.1 = memory.1 ∧
      (∃ frame other, disk.2.finish = .ok frame ∧ memory.2.finish = .ok other ∧
        frame.length = other.length ∧ frame.bytes = other.bytes) ∧
      ∃ store, disk.2 = .disk store ∧ store.file.contents.size = store.spilled ∧
        store.file.cursor = store.spilled ∧
        store.file.contents ++ store.staging = memory.2.contents ∧
        store.staging.size < max threshold 1 := by
  intro disk memory
  have steadyDisk : (Store.disk (.create streaming threshold { name })).Steady (max threshold 1) :=
    ⟨FileStore.steady_create streaming threshold rfl, rfl⟩
  have steadyMemory : (Store.memory .create).Steady 0 := trivial
  obtain ⟨steady, steadyOther, responses, contents⟩ :=
    steadyDisk.run operations steadyMemory rfl
  refine ⟨responses, ?_, ?_⟩
  · obtain ⟨frame, finished, length, bytes⟩ := steady.finish
    obtain ⟨other, finishedOther, lengthOther, bytesOther⟩ := steadyOther.finish
    refine ⟨frame, other, finished, finishedOther, ?_, ?_⟩
    · rw [length, lengthOther, contents]
    · rw [bytes, bytesOther, contents]
  · obtain ⟨store, final⟩ := exists_disk_of_run (.create streaming threshold { name }) operations
    rw [final] at steady contents
    exact ⟨store, final, steady.1.counted, steady.1.atEnd, contents, steady.2 ▸ steady.1.staged⟩

end Store

end CheckRounds.Collation
