import CheckRounds.Message.Submission
import CheckRounds.Proofs.Json.Writing

namespace CheckRounds

/-! Whoever reads the payload of a submission finds the records that were written, one for
one, whatever their texts are. -/

open Json

/-! ### Reading -/

/-- Reads a record; it has failed if it has a state, which is then one. -/
def Record.read? (tree : Tree) : Option Record := do
  let fields ← tree.fields? ["host", "key", "value", "state", "clock"] 4
  let host ← Tree.required? Tree.text? fields "host"
  let key ← Tree.required? Tree.text? fields "key"
  let value ← Tree.required? Tree.text? fields "value"
  let clock ← Tree.required? Tree.integer? fields "clock"
  match fields.lookup "state" with
  | none => return { host, key, value, failed := false, clock }
  | some state =>
      if state.natural? = some 1 then return { host, key, value, failed := true, clock } else none

/-- Reads the records of a submission and the time of it. -/
def Submission.read? (tree : Tree) : Option (List Record × Int) := do
  let fields ← tree.fields? ["request", "data", "clock"] 3
  let request ← Tree.required? Tree.text? fields "request"
  let records ← Tree.required? (Tree.list? Record.read?) fields "data"
  let clock ← Tree.required? Tree.integer? fields "clock"
  if request = "agent data" then return (records, clock) else none

/-! ### Records -/

namespace Record

/-- The members of a record, with what they spell. -/
def spelled (record : Record) : List Member :=
  [.ofText "host" record.host, .ofText "key" record.key, .ofText "value" record.value] ++
    (if record.failed then [.ofInt "state" 1] else []) ++ [.ofInt "clock" record.clock]

theorem members_eq (record : Record) : record.members = record.spelled.map Member.written := by
  unfold members spelled
  cases record.failed <;> rfl

def tree (record : Record) : Tree := .object (record.spelled.map Member.read)

theorem spells_write (record : Record) : Spells record.write record.tree := by
  have each : ∀ member ∈ record.spelled, Spells member.text member.tree := by
    unfold spelled
    cases record.failed <;> simp [Member.spells_ofText, Member.spells_ofInt]
  rw [write, members_eq]
  exact spells_writeObject _ each

theorem fields?_tree (record : Record) :
    record.tree.fields? ["host", "key", "value", "state", "clock"] 4 =
      some (record.spelled.map Member.field) := by
  refine Member.fields?_written 4 ?_ ?_
  all_goals
    unfold spelled
    cases record.failed <;> simp [Member.ofText, Member.ofInt]

theorem read?_tree {record : Record} (fits : record.clock.natAbs < wordLimit) :
    read? record.tree = some record := by
  obtain ⟨host, key, value, failed, clock⟩ := record
  have readClock : (Member.ofInt "clock" clock).tree.integer? = some clock :=
    Member.integer?_ofInt "clock" fits
  have readState : (Member.ofInt "state" 1).tree.natural? = some 1 := by decide +kernel
  unfold read?
  rw [fields?_tree]
  cases failed <;>
    simp [spelled, Tree.required?, Member.field_ofText, Member.field_ofInt, List.lookup_cons,
      Member.text?_ofText, readClock, readState]

end Record

/-! ### Submissions -/

namespace Submission

def dataMember (records : List Record) : Member :=
  ⟨"data", writeArray (records.map Record.write), .array (records.map Record.tree)⟩

/-- The members of a submission, with what they spell. -/
def spelled (records : List Record) (clock : Int) : List Member :=
  [.ofText "request" "agent data", dataMember records, .ofInt "clock" clock]

theorem payload_eq (records : List Record) (clock : Int) :
    payload records clock = writeObject ((spelled records clock).map Member.written) := by
  have opening : opener =
      0x7B :: memberText ("request", writeString "agent data") ++
        0x2C :: memberText ("data", [0x5B]) := by decide +kernel
  have closing : closer clock = 0x5D :: 0x2C :: memberText ("clock", writeInt clock) ++ [0x7D] := by
    have before : utf8 "],\"clock\":" = 0x5D :: 0x2C :: writeString "clock" ++ [0x3A] := by
      decide +kernel
    have after : utf8 "\x7d" = [0x7D] := by decide +kernel
    rw [closer, before, after, memberText]
    simp
  rw [payload, opening, closing, writeObject_eq]
  simp [spelled, dataMember, memberText, Member.written, Member.ofText, Member.ofInt,
    commaSeparated, writeArray]

theorem spells_dataMember (records : List Record) :
    Spells (dataMember records).text (dataMember records).tree := by
  have spells := spells_writeArray (records.map fun record => ⟨record.write, record.tree⟩) (by
    intro item inside
    obtain ⟨record, _, rfl⟩ := List.mem_map.mp inside
    exact record.spells_write)
  rwa [List.map_map, List.map_map] at spells

/-- The text of a submission as a tree: an object of the request, the records in their order
and the time. -/
def tree (records : List Record) (clock : Int) : Tree :=
  .object ((spelled records clock).map Member.read)

theorem parse?_payload (records : List Record) (clock : Int) :
    Tree.parse? (payload records clock) = some (tree records clock) := by
  have each : ∀ member ∈ spelled records clock, Spells member.text member.tree := by
    simp [spelled, Member.spells_ofText, spells_dataMember, Member.spells_ofInt]
  rw [payload_eq]
  exact (spells_writeObject _ each).parse?_eq

theorem list?_dataMember {records : List Record}
    (fits : ∀ record ∈ records, record.clock.natAbs < wordLimit) :
    (dataMember records).tree.list? Record.read? = some records := by
  change (records.map Record.tree).mapM Record.read? = some records
  induction records with
  | nil => rfl
  | cons record rest ih =>
      have first := Record.read?_tree (fits record List.mem_cons_self)
      rw [List.map_cons, List.mapM_cons, first,
        ih fun record inside => fits record (List.mem_cons_of_mem _ inside)]
      rfl

/-- The payload is read back as the records and the time that were written, whatever
characters the texts of the records are made of. -/
theorem read?_tree {records : List Record} {clock : Int} (fits : clock.natAbs < wordLimit)
    (fitEach : ∀ record ∈ records, record.clock.natAbs < wordLimit) :
    read? (tree records clock) = some (records, clock) := by
  have fields : (tree records clock).fields? ["request", "data", "clock"] 3 =
      some ((spelled records clock).map Member.field) := by
    refine Member.fields?_written 3 ?_ ?_ <;>
      simp [spelled, dataMember, Member.ofText, Member.ofInt]
  have dataField : (dataMember records).field = ("data", (dataMember records).tree) := rfl
  have readClock : (Member.ofInt "clock" clock).tree.integer? = some clock :=
    Member.integer?_ofInt "clock" fits
  rw [read?, fields]
  simp [spelled, Tree.required?, Member.field_ofText, Member.field_ofInt, dataField,
    List.lookup_cons, Member.text?_ofText, readClock, list?_dataMember fitEach]

end Submission

end CheckRounds
