import CheckRounds.Proofs.Collation.Stores

namespace CheckRounds.Collation

/-! What it means that a frame was sent without a fault.

What is copied from a file is counted on the way and compared with what was announced.  What
is read before it is sent is not: of a file that has become shorter, the part that is left
goes out as if it were the frame.
-/

variable {room : Room} {bytes sent : ByteArray}

/-- So many bytes are not beyond a limit, if there is one. -/
def Fits (limit : Option Nat) (size : Nat) : Prop := ∀ most, limit = some most → size ≤ most

theorem put_of_fits (fits : Fits room.limit bytes.size) : room.put bytes = (bytes, .ok ()) := by
  unfold Room.put
  split
  · rfl
  · next most limited => rw [if_pos (fits most limited)]

theorem put_of_not_fits (short : ¬Fits room.limit bytes.size) :
    ∃ taken, room.put bytes = (taken, .error room.refusal) := by
  unfold Room.put
  split
  · next unlimited => exact absurd (fun _ limited => by simp [unlimited] at limited) short
  · next most limited =>
      have beyond : ¬bytes.size ≤ most := by
        intro inside
        apply short
        intro other same
        rw [limited] at same
        cases same
        exact inside
      exact ⟨_, by rw [if_neg beyond]⟩

/-- Without a fault, all bytes were taken. -/
theorem eq_of_put_eq_ok (done : room.put bytes = (sent, .ok ())) : sent = bytes := by
  by_cases fits : Fits room.limit bytes.size
  · rw [put_of_fits fits] at done
    exact (congrArg Prod.fst done).symm
  · obtain ⟨taken, failed⟩ := put_of_not_fits fits
    rw [failed] at done
    cases done

namespace Payload

variable {frame : Payload} {tracing : Bool}

/-- Whether a frame is copied from its file, as none is while tracing shows the frames. -/
def isCopied (frame : Payload) (tracing : Bool) : Bool :=
  match frame with
  | .buffer _ => false
  | .file _ _ _ streaming => streaming && !tracing

theorem send_of_isCopied (copied : frame.isCopied tracing = true) :
    frame.send tracing room = frame.sendCopied room := by
  match frame, tracing with
  | .file _ _ _ true, false => rfl

theorem send_of_not_isCopied (whole : frame.isCopied tracing = false) :
    frame.send tracing room = frame.sendWhole tracing room := by
  match frame, tracing with
  | .buffer _, _ => rfl
  | .file _ _ _ false, _ => rfl
  | .file _ _ _ true, true => rfl

/-- What has to be the case for a frame to be sent without a fault. -/
theorem send_eq_ok_iff : (frame.send tracing room).outcome = .ok () ↔
    Fits room.limit frame.bytes.size ∧ (frame.isCopied tracing = true → frame.bytes.size = frame.length) := by
  by_cases fits : Fits room.limit frame.bytes.size
  · cases copied : frame.isCopied tracing with
    | true =>
        rw [send_of_isCopied copied, sendCopied, put_of_fits fits]
        dsimp only
        by_cases same : frame.bytes.size = frame.length
        · exact iff_of_true (if_pos same) ⟨fits, fun _ => same⟩
        · rw [if_neg same]
          exact iff_of_false (by simp) fun complete => same (complete.2 rfl)
    | false =>
        rw [send_of_not_isCopied copied, sendWhole, put_of_fits fits]
        simp [fits]
  · obtain ⟨taken, failed⟩ := put_of_not_fits fits
    cases copied : frame.isCopied tracing with
    | true =>
        rw [send_of_isCopied copied, sendCopied, failed]
        simp [fits]
    | false =>
        rw [send_of_not_isCopied copied, sendWhole, failed]
        simp [fits]

theorem sent_of_fits (fits : Fits room.limit frame.bytes.size) :
    (frame.send tracing room).sent = frame.bytes := by
  cases copied : frame.isCopied tracing with
  | true => rw [send_of_isCopied copied, sendCopied, put_of_fits fits]
  | false => rw [send_of_not_isCopied copied, sendWhole, put_of_fits fits]

/-- What was sent without a fault would be taken once more. -/
theorem put_sent (done : (frame.send tracing room).outcome = .ok ()) :
    room.put (frame.send tracing room).sent = ((frame.send tracing room).sent, .ok ()) := by
  obtain ⟨fits, _⟩ := send_eq_ok_iff.mp done
  rw [sent_of_fits fits, put_of_fits fits]

/-- What is read of a frame is as long as the frame, unless its file has become shorter. -/
theorem size_bytes_eq_length_iff : frame.bytes.size = frame.length ↔
    (frame.hasFile = true → frame.length ≤ frame.inFile) := by
  cases frame with
  | buffer whole => exact iff_of_true rfl (fun impossible => by contradiction)
  | file name contents announced streaming =>
      have taken : (contents.extract 0 announced).size = min announced contents.size := by
        rw [ByteArray.size_extract, Nat.sub_zero]
      have whole : min announced contents.size = announced ↔ announced ≤ contents.size := by omega
      rw [Payload.bytes, taken]
      exact whole.trans ⟨fun inside _ => inside, fun inside => inside rfl⟩

/-- That a frame was sent without a fault means that it was sent to its end exactly if it was
copied, or if its file still had all of it. -/
theorem complete_of_ok_iff (frame : Payload) (tracing : Bool) :
    (∀ room, (frame.send tracing room).outcome = .ok () →
      (frame.send tracing room).sent.size = frame.length) ↔
      frame.isCopied tracing = true ∨ (frame.hasFile = true → frame.length ≤ frame.inFile) := by
  rw [← size_bytes_eq_length_iff]
  constructor
  · intro complete
    cases copied : frame.isCopied tracing with
    | true => exact .inl rfl
    | false =>
        have unlimited : Fits ({} : Room).limit frame.bytes.size := fun _ impossible => by contradiction
        have done : (frame.send tracing {}).outcome = .ok () :=
          send_eq_ok_iff.mpr ⟨unlimited, by simp [copied]⟩
        have sent := complete {} done
        rw [sent_of_fits unlimited] at sent
        exact .inr sent
  · intro whole room done
    obtain ⟨fits, counted⟩ := send_eq_ok_iff.mp done
    rw [sent_of_fits fits]
    exact whole.elim counted id

/-- Of twelve bytes one is left, and no fault is told. -/
theorem sent_short_without_fault :
    let store := ((Store.create .disk 4 { name := "frame" }).append "0123456789".toUTF8).2
    ∃ frame, (store.append "ab".toUTF8).2.finish = .ok frame ∧
      (frame.withFileLength 1).length = 12 ∧
      ((frame.withFileLength 1).send false {}).outcome = .ok () ∧
      ((frame.withFileLength 1).send false {}).sent.size = 1 := by
  refine ⟨_, rfl, ?_, rfl, ?_⟩ <;> decide +kernel

end Payload

end CheckRounds.Collation
