import CheckRounds.Schedule.Bucket

namespace CheckRounds.Schedule

/-! Buckets that report into buckets.

Every bucket has a number; one with a parent reports each of its events into the
parent, under a name.  Parents have smaller numbers than their children, so a report
goes up a finite number of levels.
-/

abbrev BucketRef := Nat

/-- A bucket and where it reports: the parent, and the name it uses there. -/
structure Node where
  bucket : Bucket String
  parent : Option (BucketRef × String)

instance : Inhabited Node := ⟨⟨.empty "", none⟩⟩

structure Forest where
  nodes : List Node

/-- What a change at one bucket did: whether that bucket changed, the events of all
buckets in the order in which they arose, and the forest it left. -/
structure Forest.Outcome where
  changed : Bool
  events : List (BucketRef × Event)
  forest : Forest

namespace Forest

def empty : Forest := ⟨[]⟩

instance : Inhabited Forest := ⟨empty⟩

def size (forest : Forest) : Nat := forest.nodes.length

/-- Adds an empty bucket, whose number is the size of the forest before. -/
def plant (forest : Forest) (name : String) (parent : Option (BucketRef × String)) : Forest :=
  ⟨forest.nodes ++ [⟨.empty name, parent⟩]⟩

def bucket (forest : Forest) (ref : BucketRef) : Bucket String :=
  match forest.nodes[ref]? with
  | some node => node.bucket
  | none => .empty ""

def parent (forest : Forest) (ref : BucketRef) : Option (BucketRef × String) :=
  match forest.nodes[ref]? with
  | some node => node.parent
  | none => none

def setBucket (forest : Forest) (ref : BucketRef) (bucket : Bucket String) : Forest :=
  ⟨forest.nodes.modify ref fun node => { node with bucket }⟩

/-- Changes one bucket and reports upwards as long as delays come into or go out of use. -/
def apply (forest : Forest) (ref : BucketRef) (change : Change String) : Outcome :=
  if ref < forest.size then
    let outcome := (forest.bucket ref).apply change
    let changedForest := forest.setBucket ref outcome.bucket
    match outcome.event with
    | none => ⟨outcome.changed, [], changedForest⟩
    | some event =>
        match forest.parent ref with
        | none => ⟨outcome.changed, [(ref, event)], changedForest⟩
        | some (above, name) =>
            if above < ref then
              let reported := changedForest.apply above (event.toChange name)
              ⟨outcome.changed, (ref, event) :: reported.events, reported.forest⟩
            else ⟨outcome.changed, [(ref, event)], changedForest⟩
  else ⟨false, [], forest⟩
termination_by ref

def applyAll (forest : Forest) (ref : BucketRef) :
    List (Change String) → List (BucketRef × Event) × Forest
  | [] => ([], forest)
  | change :: rest =>
      let outcome := forest.apply ref change
      let (events, final) := applyAll outcome.forest ref rest
      (outcome.events ++ events, final)

end Forest

end CheckRounds.Schedule
