import CheckRounds.Proofs.Schedule.Operations
import CheckRounds.Proofs.Schedule.Orderly

namespace CheckRounds.Schedule

/-! Forests in which only the leaves are changed from outside.

Whether a bucket has a delay in use is then a matter of the leaves at or below it.  A single
change at a leaf is told by those buckets on the way up for which this changes, from the leaf
upwards, and by no others.
-/

open Scheduler (eventsAt)

namespace Forest

/-! ### Forests and their leaves -/

/-- A forest of empty buckets.  Each reports to one that was there before, under a name under
which no other one reports to it, or to none. -/
inductive Grown : Forest → Prop
  | empty : Grown .empty
  | plantRoot {forest : Forest} (name : String) :
      Grown forest → Grown (forest.plant name none)
  | plantBelow {forest : Forest} (name : String) {above : BucketRef} {child : String} :
      Grown forest → above < forest.size → (∀ node ∈ forest.nodes, node.parent ≠ some (above, child)) →
      Grown (forest.plant name (some (above, child)))

def IsInner (forest : Forest) (ref : BucketRef) : Prop :=
  ∃ child name, forest.parent child = some (ref, name)

def IsLeaf (forest : Forest) (ref : BucketRef) : Prop := ref < forest.size ∧ ¬forest.IsInner ref

theorem exists_parent_eq_iff {forest : Forest} {link : BucketRef × String} :
    (∃ ref, forest.parent ref = some link) ↔ ∃ node ∈ forest.nodes, node.parent = some link := by
  constructor
  · rintro ⟨ref, reporting⟩
    unfold parent at reporting
    split at reporting
    · next node found => exact ⟨node, List.mem_of_getElem? found, reporting⟩
    · contradiction
  · rintro ⟨node, member, reporting⟩
    obtain ⟨ref, found⟩ := List.mem_iff_getElem?.mp member
    refine ⟨ref, ?_⟩
    rw [parent, found]
    exact reporting

theorem isInner_iff {forest : Forest} {ref : BucketRef} :
    forest.IsInner ref ↔ ∃ node ∈ forest.nodes, node.parent.map (·.1) = some ref := by
  have turned : forest.IsInner ref ↔ ∃ name, ∃ child, forest.parent child = some (ref, name) := exists_comm
  simp only [turned, exists_parent_eq_iff, Option.map_eq_some_iff]
  constructor
  · rintro ⟨name, node, member, reporting⟩
    exact ⟨node, member, (ref, name), reporting, rfl⟩
  · rintro ⟨node, member, ⟨_, name⟩, reporting, rfl⟩
    exact ⟨name, node, member, reporting⟩

instance (forest : Forest) (ref : BucketRef) : Decidable (forest.IsInner ref) :=
  decidable_of_iff _ isInner_iff.symm

instance (forest : Forest) (ref : BucketRef) : Decidable (forest.IsLeaf ref) :=
  inferInstanceAs (Decidable (_ ∧ _))

/-- Every inner bucket lists under a delay the names of the buckets below it that have it. -/
def ListsChildren (forest : Forest) : Prop :=
  ∀ ref, forest.IsInner ref → ∀ delay name, name ∈ (forest.bucket ref).items delay ↔
    ∃ child, forest.parent child = some (ref, name) ∧ delay ∈ (forest.bucket child).delays

/-- A leaf at or below a bucket has a delay. -/
def LeafHas (forest : Forest) (ref : BucketRef) (delay : Nat) : Prop :=
  ∃ leaf, forest.IsLeaf leaf ∧ forest.Path leaf ref ∧ delay ∈ (forest.bucket leaf).delays

/-- The same event, told by a bucket, by its parent, and so on. -/
inductive Rises (forest : Forest) (event : Event) : BucketRef → List (BucketRef × Event) → Prop
  | silent (ref : BucketRef) : Rises forest event ref []
  | top {ref : BucketRef} : forest.parent ref = none → Rises forest event ref [(ref, event)]
  | up {ref above : BucketRef} {name : String} {rest : List (BucketRef × Event)} :
      forest.parent ref = some (above, name) → Rises forest event above rest →
      Rises forest event ref ((ref, event) :: rest)

/-- What a single change at a leaf makes the buckets tell. -/
structure TellsUpwards (forest : Forest) (leaf : BucketRef) (change : Change String) : Prop where
  changed : ∀ ref, forest.Path leaf ref →
    ¬(forest.LeafHas ref change.delay ↔ (forest.apply leaf change).forest.LeafHas ref change.delay) →
    eventsAt ref (forest.apply leaf change).events = [change.event]
  unchanged : ∀ ref, forest.Path leaf ref →
    (forest.LeafHas ref change.delay ↔ (forest.apply leaf change).forest.LeafHas ref change.delay) →
    eventsAt ref (forest.apply leaf change).events = []
  apart : ∀ ref, ¬forest.Path leaf ref → eventsAt ref (forest.apply leaf change).events = []
  rises : forest.Rises change.event leaf (forest.apply leaf change).events
  root : ∀ root, forest.Path leaf root → forest.parent root = none → ∀ delay,
    (.start delay ∈ eventsAt root (forest.apply leaf change).events ↔
      ¬forest.LeafHas root delay ∧ (forest.apply leaf change).forest.LeafHas root delay) ∧
    (.cancel delay ∈ eventsAt root (forest.apply leaf change).events ↔
      forest.LeafHas root delay ∧ ¬(forest.apply leaf change).forest.LeafHas root delay)

/-! ### Operations at the leaves -/

/-- Performs operations, each at a bucket. -/
def performAll (forest : Forest) :
    List (BucketRef × Operation String) → List (BucketRef × Event) × Forest
  | [] => ([], forest)
  | (ref, operation) :: rest =>
      let (events, after) := forest.applyAll ref (operation.changes (forest.bucket ref))
      let (later, final) := after.performAll rest
      (events ++ later, final)

/-- The single changes that operations consist of. -/
def changesOf (forest : Forest) :
    List (BucketRef × Operation String) → List (BucketRef × Change String)
  | [] => []
  | (ref, operation) :: rest =>
      let changes := operation.changes (forest.bucket ref)
      changes.map (ref, ·) ++ (forest.applyAll ref changes).2.changesOf rest

/-- Makes single changes, each at a bucket. -/
def applyEach (forest : Forest) :
    List (BucketRef × Change String) → List (BucketRef × Event) × Forest
  | [] => ([], forest)
  | (ref, change) :: rest =>
      let outcome := forest.apply ref change
      let (later, final) := outcome.forest.applyEach rest
      (outcome.events ++ later, final)

variable {forest : Forest} {ref other leaf : BucketRef} {delay : Nat} {change : Change String}

theorem applyEach_append (first second : List (BucketRef × Change String)) :
    forest.applyEach (first ++ second) =
      ((forest.applyEach first).1 ++ ((forest.applyEach first).2.applyEach second).1,
        ((forest.applyEach first).2.applyEach second).2) := by
  induction first generalizing forest with
  | nil => rfl
  | cons step rest ih =>
      obtain ⟨ref, change⟩ := step
      simp only [List.cons_append, applyEach, ih, List.append_assoc]

theorem applyEach_map (ref : BucketRef) (changes : List (Change String)) :
    forest.applyEach (changes.map (ref, ·)) = forest.applyAll ref changes := by
  induction changes generalizing forest with
  | nil => rfl
  | cons change rest ih =>
      rw [List.map_cons, applyAll_cons, ← ih]
      rfl

/-- To perform operations is to make their single changes one after the other. -/
theorem performAll_eq_applyEach (operations : List (BucketRef × Operation String)) :
    forest.performAll operations = forest.applyEach (forest.changesOf operations) := by
  induction operations generalizing forest with
  | nil => rfl
  | cons step rest ih =>
      obtain ⟨ref, operation⟩ := step
      rw [changesOf, applyEach_append, applyEach_map, ← ih]
      rfl

theorem mem_changesOf {operations : List (BucketRef × Operation String)} {step : BucketRef × Change String}
    (made : step ∈ forest.changesOf operations) : ∃ operation, (step.1, operation) ∈ operations := by
  induction operations generalizing forest with
  | nil => contradiction
  | cons first rest ih =>
      obtain ⟨ref, operation⟩ := first
      rcases List.mem_append.mp made with now | later
      · obtain ⟨change, _, rfl⟩ := List.mem_map.mp now
        exact ⟨operation, List.mem_cons_self⟩
      · obtain ⟨operation, member⟩ := ih later
        exact ⟨operation, List.mem_cons_of_mem _ member⟩

/-! ### The shape stays -/

/-- Parents come before their children, and siblings have different names. -/
structure Shaped (forest : Forest) : Prop where
  descending : forest.Descending
  distinct : ∀ {first second link}, forest.parent first = some link →
    forest.parent second = some link → first = second

theorem Shaped.lone (shaped : forest.Shaped) : forest.Lone ref :=
  fun _ _ reporting reportingOther different =>
    absurd (shaped.distinct reportingOther reporting) different

theorem Shaped.apply (shaped : forest.Shaped) : (forest.apply ref change).forest.Shaped where
  descending := descending_apply shaped.descending
  distinct reporting reportingOther := by
    rw [parent_apply] at reporting reportingOther
    exact shaped.distinct reporting reportingOther

theorem isInner_apply : (forest.apply ref change).forest.IsInner = forest.IsInner := by
  funext other
  simp only [IsInner, parent_apply]

theorem isLeaf_apply : (forest.apply ref change).forest.IsLeaf = forest.IsLeaf := by
  funext other
  rw [IsLeaf, IsLeaf, isInner_apply, size_apply]

theorem Shaped.plant {name : String} {link : Option (BucketRef × String)} (shaped : forest.Shaped)
    (below : ∀ above child, link = some (above, child) → above < forest.size)
    (fresh : ∀ target, link = some target → ∀ node ∈ forest.nodes, node.parent ≠ some target) :
    (forest.plant name link).Shaped where
  descending := by
    intro ref above child reporting
    rw [parent_plant] at reporting
    split at reporting
    · next same => exact same ▸ below above child reporting
    · exact shaped.descending ref above child reporting
  distinct := by
    intro first second target reporting reportingOther
    have unheard : link = some target → ∀ ref, forest.parent ref ≠ some target := by
      intro new ref earlier
      obtain ⟨node, member, reporting⟩ := exists_parent_eq_iff.mp ⟨ref, earlier⟩
      exact fresh target new node member reporting
    rw [parent_plant] at reporting reportingOther
    split at reporting
    · next same =>
        split at reportingOther
        · next sameOther => exact same.trans sameOther.symm
        · exact absurd reportingOther (unheard reporting second)
    · split at reportingOther
      · exact absurd reporting (unheard reportingOther first)
      · exact shaped.distinct reporting reportingOther

theorem Grown.shaped (grown : forest.Grown) : forest.Shaped := by
  induction grown with
  | empty => exact ⟨orderly_empty.descending, fun reporting => by contradiction⟩
  | plantRoot name _ ih => exact ih.plant (by simp) (by simp)
  | plantBelow name _ below fresh ih =>
      refine ih.plant ?_ ?_
      · intro above child same
        rw [Option.some.injEq, Prod.mk.injEq] at same
        exact same.1 ▸ below
      · intro target same
        exact Option.some.inj same ▸ fresh

theorem Grown.exists_bucket_eq (grown : forest.Grown) (ref : BucketRef) :
    ∃ given, forest.bucket ref = .empty given := by
  have planted : ∀ {forest : Forest} {link : Option (BucketRef × String)} (name : String),
      (∃ given, forest.bucket ref = .empty given) →
      ∃ given, (forest.plant name link).bucket ref = .empty given := by
    intro forest link name before
    rw [bucket_plant]
    split
    · exact ⟨name, rfl⟩
    · exact before
  induction grown with
  | empty => exact ⟨"", rfl⟩
  | plantRoot name _ ih => exact planted name ih
  | plantBelow name _ _ _ ih => exact planted name ih

/-- In a forest of empty buckets nothing is reported, as it should be. -/
theorem Grown.orderly (grown : forest.Grown) : forest.Orderly forest.IsInner where
  descending := grown.shaped.descending
  tidy ref := by
    obtain ⟨name, empty⟩ := grown.exists_bucket_eq ref
    exact empty ▸ Bucket.tidy_empty name
  reported ref _ := by
    funext delay name
    refine propext (iff_of_false ?_ ?_)
    · obtain ⟨bucketName, empty⟩ := grown.exists_bucket_eq ref
      exact empty ▸ Bucket.not_holds_empty bucketName delay name
    · rintro ⟨child, _, used⟩
      obtain ⟨bucketName, empty⟩ := grown.exists_bucket_eq child
      exact Bucket.not_uses_empty bucketName delay (empty ▸ used)

/-! ### What the leaves have -/

theorem Path.trans {top : BucketRef} (first : forest.Path ref other) (second : forest.Path other top) :
    forest.Path ref top := by
  induction first with
  | here => exact second
  | up parent _ ih => exact .up parent (ih second)

theorem Orderly.listsChildren (orderly : forest.Orderly forest.IsInner) : forest.ListsChildren := by
  intro ref isInner delay name
  change (forest.bucket ref).Holds delay name ↔ _
  rw [orderly.reported ref isInner]
  exact exists_congr fun child => and_congr_right fun _ => (orderly.tidy child).mem_delays_iff.symm

/-- What a bucket has in use is in use all the way up. -/
theorem Orderly.uses_of_path (orderly : forest.Orderly forest.IsInner) (path : forest.Path ref other)
    (used : (forest.bucket ref).Uses delay) : (forest.bucket other).Uses delay := by
  induction path with
  | here => exact used
  | @up ref above _ name reporting _ ih =>
      refine ih ⟨name, ?_⟩
      rw [orderly.reported above ⟨ref, name, reporting⟩]
      exact ⟨ref, reporting, used⟩

theorem not_uses_of_size_le (outside : forest.size ≤ ref) : ¬(forest.bucket ref).Uses delay :=
  bucket_of_size_le outside ▸ Bucket.not_uses_empty "" delay

/-- A bucket has a delay in use exactly if a leaf at or below it has. -/
theorem Orderly.uses_iff (orderly : forest.Orderly forest.IsInner) :
    (forest.bucket ref).Uses delay ↔ forest.LeafHas ref delay := by
  constructor
  · -- Children have greater numbers, so the way down to a leaf comes to an end.
    intro used
    generalize remaining : forest.size - ref = steps
    induction steps using Nat.strongRecOn generalizing ref with
    | ind steps ih =>
        have inside : ref < forest.size := by
          by_contra outside
          exact not_uses_of_size_le (Nat.le_of_not_lt outside) used
        by_cases isInner : forest.IsInner ref
        · obtain ⟨name, held⟩ := used
          rw [orderly.reported ref isInner] at held
          obtain ⟨child, reporting, usedBelow⟩ := held
          have fewer : forest.size - child < steps :=
            remaining ▸ Nat.sub_lt_sub_left inside (orderly.descending child ref name reporting)
          obtain ⟨leaf, isLeaf, path, has⟩ := ih (forest.size - child) fewer usedBelow rfl
          exact ⟨leaf, isLeaf, path.trans (.up reporting (.here ref)), has⟩
        · exact ⟨ref, ⟨inside, isInner⟩, .here ref, (orderly.tidy ref).mem_delays_iff.mpr used⟩
  · rintro ⟨leaf, _, path, has⟩
    exact orderly.uses_of_path path ((orderly.tidy leaf).mem_delays_iff.mp has)

/-! ### A change at a leaf -/

/-- A forest of some shape in which all reports are true. -/
structure Governed (forest : Forest) : Prop where
  shaped : forest.Shaped
  orderly : forest.Orderly forest.IsInner

theorem Governed.apply (governed : forest.Governed) (isLeaf : forest.IsLeaf ref) :
    (forest.apply ref change).forest.Governed where
  shaped := governed.shaped.apply
  orderly := by
    rw [isInner_apply]
    exact governed.orderly.apply isLeaf.1 isLeaf.2 fun _ _ => governed.shaped.lone

theorem rises_setBucket {event : Event} {bucket : Bucket String} {events : List (BucketRef × Event)}
    (rises : (forest.setBucket ref bucket).Rises event other events) : forest.Rises event other events := by
  induction rises with
  | silent ref => exact .silent ref
  | top noParent => exact .top (by simpa using noParent)
  | up reporting _ ih => exact .up (by simpa using reporting) ih

theorem event_toChange (event : Event) (name : String) : (event.toChange name).event = event := by
  cases event <;> rfl

/-- What a change makes the buckets tell goes up from the bucket where it is made. -/
theorem rises_apply (descending : forest.Descending) :
    forest.Rises change.event ref (forest.apply ref change).events := by
  fun_induction Forest.apply forest ref change
  case case1 => exact .silent _
  case case2 told noParent =>
    obtain rfl := Bucket.eq_event_of_told told
    exact .top noParent
  case case3 told above name reporting _ _ ih =>
    obtain rfl := Bucket.eq_event_of_told told
    have later := ih fun child above name reportingChild =>
      descending child above name (by rwa [parent_setBucket] at reportingChild)
    rw [event_toChange] at later
    exact .up reporting (rises_setBucket later)
  case case4 forest ref change _ _ _ _ _ above name reporting notBelow =>
    exact absurd (descending ref above name reporting) notBelow
  case case5 => exact .silent _

theorem Rises.eq_of_mem {event : Event} {events : List (BucketRef × Event)} {told : BucketRef × Event}
    (rises : forest.Rises event ref events) (member : told ∈ events) : told.2 = event := by
  induction rises with
  | silent => contradiction
  | top => exact List.mem_singleton.mp member ▸ rfl
  | up _ _ ih =>
      rcases List.mem_cons.mp member with rfl | later
      · rfl
      · exact ih later

theorem mem_eventsAt {events : List (BucketRef × Event)} {event : Event}
    (told : event ∈ eventsAt ref events) : (ref, event) ∈ events := by
  obtain ⟨⟨teller, event⟩, found, rfl⟩ := List.mem_map.mp told
  obtain ⟨member, same⟩ := List.mem_filter.mp found
  exact of_decide_eq_true same ▸ member

/-- A bucket tells of the change's own delay or of nothing. -/
theorem told_apply_cases (descending : forest.Descending) {told : Option Event}
    (tells : eventsAt other (forest.apply ref change).events = told.toList) :
    told = none ∨ told = some change.event := by
  cases told with
  | none => exact .inl rfl
  | some event =>
      have member : event ∈ eventsAt other (forest.apply ref change).events := by
        rw [tells]
        exact List.mem_singleton_self event
      exact .inr (congrArg some ((rises_apply descending).eq_of_mem (mem_eventsAt member)))

/-- What a change tells is whether its delay came into use or went out of it. -/
theorem told_iff_of_tells {told : Option Event} {before after : Nat → Prop}
    (tells : Tells told before after) (only : told = none ∨ told = some change.event) :
    told = some change.event ↔ ¬(before change.delay ↔ after change.delay) := by
  rcases only with rfl | rfl
  · have same : after = before := tells.after_eq
    exact iff_of_false (by simp) (not_not.mpr (same ▸ Iff.rfl))
  · refine iff_of_true rfl fun same => ?_
    cases change with
    | insert delay item =>
        have begun := (tells.start delay).mp rfl
        exact begun.1 (same.mpr begun.2)
    | delete delay item =>
        have ended := (tells.cancel delay).mp rfl
        exact ended.2 (same.mp ended.1)

theorem Governed.tellsUpwards (governed : forest.Governed) (isLeaf : forest.IsLeaf leaf) :
    forest.TellsUpwards leaf change := by
  have descending := governed.shaped.descending
  have usesBefore : ∀ ref, (forest.bucket ref).Uses = forest.LeafHas ref :=
    fun _ => funext fun _ => propext governed.orderly.uses_iff
  have usesAfter : ∀ ref, ((forest.apply leaf change).forest.bucket ref).Uses =
      (forest.apply leaf change).forest.LeafHas ref :=
    fun _ => funext fun _ => propext (governed.apply isLeaf).orderly.uses_iff
  have tells : ∀ ref, ∃ told, eventsAt ref (forest.apply leaf change).events = told.toList ∧
      (told = none ∨ told = some change.event) ∧
      Tells told (forest.LeafHas ref) ((forest.apply leaf change).forest.LeafHas ref) := by
    intro ref
    obtain ⟨told, events, tells⟩ := tells_apply leaf ref change descending
    rw [usesBefore, usesAfter] at tells
    exact ⟨told, events, told_apply_cases descending events, tells⟩
  constructor
  case changed =>
    intro ref _ different
    obtain ⟨told, events, only, tells⟩ := tells ref
    rw [events, (told_iff_of_tells tells only).mpr different]
    rfl
  case unchanged =>
    intro ref _ same
    obtain ⟨told, events, only, tells⟩ := tells ref
    rcases only with silent | isEvent
    · rw [events, silent]
      rfl
    · exact absurd same ((told_iff_of_tells tells (.inr isEvent)).mp isEvent)
  case apart => exact fun _ notPath => eventsAt_apply_of_not_path notPath
  case rises => exact rises_apply descending
  case root =>
    intro root _ _ delay
    obtain ⟨told, events, _, tells⟩ := tells root
    rw [events, Option.mem_toList, Option.mem_toList]
    exact ⟨tells.start delay, tells.cancel delay⟩

/-! ### Any number of operations -/

theorem isLeaf_applyEach (changes : List (BucketRef × Change String)) :
    (forest.applyEach changes).2.IsLeaf = forest.IsLeaf := by
  induction changes generalizing forest with
  | nil => rfl
  | cons step rest ih => exact ih.trans isLeaf_apply

theorem parent_applyEach (changes : List (BucketRef × Change String)) :
    (forest.applyEach changes).2.parent ref = forest.parent ref := by
  induction changes generalizing forest with
  | nil => rfl
  | cons step rest ih => exact ih.trans parent_apply

theorem Governed.applyEach {changes : List (BucketRef × Change String)} (governed : forest.Governed)
    (atLeaves : ∀ step ∈ changes, forest.IsLeaf step.1) : (forest.applyEach changes).2.Governed := by
  induction changes generalizing forest with
  | nil => exact governed
  | cons step rest ih =>
      refine ih (governed.apply (atLeaves step List.mem_cons_self)) fun later member => ?_
      rw [isLeaf_apply]
      exact atLeaves later (List.mem_cons_of_mem step member)

/-- Whatever is done at the leaves of a forest that was empty at first: every inner bucket lists
the names of the children that have a delay, and each single change is told upwards by those
buckets for which it changes whether a leaf has the delay. -/
theorem leaves_govern_all_buckets (grown : forest.Grown)
    (operations : List (BucketRef × Operation String))
    (atLeaves : ∀ step ∈ operations, forest.IsLeaf step.1) :
    forest.performAll operations = forest.applyEach (forest.changesOf operations) ∧
      (∀ ref, (forest.performAll operations).2.parent ref = forest.parent ref) ∧
      (forest.performAll operations).2.ListsChildren ∧
      ∀ earlier leaf change later, forest.changesOf operations = earlier ++ (leaf, change) :: later →
        (forest.applyEach earlier).2.ListsChildren ∧
          (forest.applyEach earlier).2.TellsUpwards leaf change := by
  have governed : forest.Governed := ⟨grown.shaped, grown.orderly⟩
  have changesAtLeaves : ∀ step ∈ forest.changesOf operations, forest.IsLeaf step.1 := by
    intro step made
    obtain ⟨operation, member⟩ := mem_changesOf made
    exact atLeaves _ member
  have asChanges : forest.performAll operations = _ := performAll_eq_applyEach operations
  refine ⟨asChanges, ?_, ?_, ?_⟩
  · exact fun ref => asChanges ▸ parent_applyEach _
  · exact asChanges ▸ (governed.applyEach changesAtLeaves).orderly.listsChildren
  · intro earlier leaf change later split
    rw [split] at changesAtLeaves
    have now := governed.applyEach fun step member =>
      changesAtLeaves step (List.mem_append_left _ member)
    have isLeaf : (forest.applyEach earlier).2.IsLeaf leaf := by
      rw [isLeaf_applyEach]
      exact changesAtLeaves (leaf, change) (List.mem_append_right _ List.mem_cons_self)
    exact ⟨now.orderly.listsChildren, now.tellsUpwards isLeaf⟩

theorem leaves_govern_all_buckets_of_two_hosts :
    let forest := (((empty.plant "agent" none).plant "server" (some (0, "srv"))).plant "a"
      (some (1, "a"))).plant "b" (some (1, "b"))
    let operations : List (BucketRef × Operation String) :=
      [(2, .add 60 "k"), (3, .add 60 "k"), (2, .move 60 30 "k"), (3, .removeEverywhere "k")]
    (forest.performAll operations).1 =
        [(2, .start 60), (1, .start 60), (0, .start 60), (3, .start 60), (2, .cancel 60),
          (2, .start 30), (1, .start 30), (0, .start 30), (3, .cancel 60), (1, .cancel 60),
          (0, .cancel 60)] ∧
      (forest.performAll operations).2.ListsChildren := by
  refine ⟨by decide +kernel, ?_⟩
  have grown : Grown ((((empty.plant "agent" none).plant "server" (some (0, "srv"))).plant "a"
      (some (1, "a"))).plant "b" (some (1, "b"))) := by
    refine .plantBelow _ (.plantBelow _ (.plantBelow _ (.plantRoot _ .empty) ?_ ?_) ?_ ?_) ?_ ?_
    all_goals decide
  exact (leaves_govern_all_buckets grown _ (by decide)).2.2.1

end Forest

end CheckRounds.Schedule
