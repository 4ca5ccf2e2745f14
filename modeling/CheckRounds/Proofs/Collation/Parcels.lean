import CheckRounds.Collation.Parcel

namespace CheckRounds.Collation

/-! What is left in the directory of a frame that was handed over: nothing. -/

variable {directory after : Directory} {file : TempFile}

namespace Directory

theorem get?_without (name : Option String) (other : String) : (directory.without name).get? other =
    if name = some other then none else directory.get? other := by
  cases name with
  | none => rw [without, if_neg (by simp)]
  | some name =>
      rw [without, SortedMap.get?_erase]
      simp only [Option.some.injEq, eq_comm]

/-- It does not matter what was in a file that is gone. -/
theorem without_insert (directory : Directory) (name : String) (contents : ByteArray) :
    without (directory.insert name contents) (some name) = directory.without (some name) := by
  refine SortedMap.ext_get? fun other => ?_
  rw [get?_without, get?_without, SortedMap.get?_insert]
  split
  · rfl
  · next different => rw [if_neg fun same => different (congrArg some same.symm)]

@[simp] theorem without_without (name : Option String) :
    (directory.without name).without name = directory.without name := by
  refine SortedMap.ext_get? fun other => ?_
  rw [get?_without, get?_without]
  split <;> rfl

theorem without_comm (name other : Option String) :
    (directory.without name).without other = (directory.without other).without name := by
  refine SortedMap.ext_get? fun key => ?_
  rw [get?_without, get?_without, get?_without, get?_without]
  split <;> split <;> rfl

/-- It does not matter which of many files goes first. -/
theorem foldl_without_comm (names : List (Option String)) (name : Option String)
    (directory : Directory) : names.foldl without (directory.without name) =
      (names.foldl without directory).without name := by
  induction names generalizing directory with
  | nil => rfl
  | cons other rest ih => rw [List.foldl_cons, List.foldl_cons, without_comm, ih]

theorem without_of_absent {name : String} (absent : directory.get? name = none) :
    directory.without (some name) = directory := by
  refine SortedMap.ext_get? fun other => ?_
  rw [get?_without]
  split
  · next same => rw [← Option.some.inj same, absent]
  · rfl

theorem length_le_foldl_append (names : List String) (first : String) :
    first.length ≤ (names.foldl (· ++ ·) first).length := by
  induction names generalizing first with
  | nil => exact Nat.le_refl _
  | cons name rest ih =>
      have longer := ih (first ++ name)
      rw [String.length_append] at longer
      exact Nat.le_of_add_right_le longer

theorem length_add_le_foldl_append {names : List String} {name : String} (inside : name ∈ names)
    (first : String) : first.length + name.length ≤ (names.foldl (· ++ ·) first).length := by
  induction inside generalizing first with
  | head rest =>
      rw [List.foldl_cons, ← String.length_append]
      exact length_le_foldl_append rest _
  | tail other _ ih =>
      have longer := ih (first ++ other)
      rw [String.length_append] at longer
      rw [List.foldl_cons]
      omega

theorem get?_spareName (directory : Directory) : directory.get? directory.spareName = none := by
  refine Option.eq_none_iff_forall_ne_some.mpr fun contents taken => ?_
  have listed : directory.spareName ∈ directory.keys :=
    SortedMap.get?_isSome_iff_mem_keys.mp (Option.isSome_of_mem taken)
  have longer : 5 + directory.spareName.length ≤ directory.spareName.length :=
    length_add_le_foldl_append listed "frame"
  omega

/-- A file is created where there was none. -/
theorem create_eq_ok_iff : directory.create file = .ok after ↔
    directory.get? file.name = none ∧ after = directory.insert file.name .empty := by
  unfold create
  cases directory.get? file.name <;> simp [eq_comm]

end Directory

/-- To send a frame that was packed is to send the frame, and its file is gone then. -/
theorem Parcel.send_pack (frame : Payload) (directory : Directory) (tracing : Bool) (room : Room) :
    (frame.pack directory).1.send (frame.pack directory).2 tracing room =
      (frame.send tracing room, directory.without frame.file?) := by
  cases frame with
  | buffer bytes => rfl
  | file name contents length streaming =>
      have unpacked : (Parcel.file name length streaming).unpack (directory.insert name contents) =
          .ok (.file name contents length streaming) := by
        rw [Parcel.unpack, SortedMap.get?_insert, if_pos rfl]
      have dropped : (Parcel.file name length streaming).drop (directory.insert name contents) =
          directory.without (some name) := Directory.without_insert directory name contents
      rw [Payload.pack, Parcel.send, unpacked, dropped, Payload.file?]

end CheckRounds.Collation
