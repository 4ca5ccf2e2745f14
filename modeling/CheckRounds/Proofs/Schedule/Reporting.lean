import CheckRounds.Proofs.Schedule.Usage
import CheckRounds.Schedule.Scheduler

namespace CheckRounds.Schedule

/-! Buckets that report to each other.

A bucket that is reported to holds exactly the names of the buckets below it that have a
delay in use.  A change at one bucket travels up as long as it brings delays into or out
of use; it reaches no bucket but those above, and each of them tells what it meant there.
-/

open Scheduler (eventsAt)

namespace Forest

/-! ### Trees and their buckets -/

/-- Parents have smaller numbers than their children. -/
def Descending (forest : Forest) : Prop :=
  ∀ ref above name, forest.parent ref = some (above, name) → above < ref

/-- A way from a bucket up to itself or to one that it reports to. -/
inductive Path (forest : Forest) : BucketRef → BucketRef → Prop
  | here (ref : BucketRef) : Path forest ref ref
  | up {ref above top : BucketRef} {name : String} :
      forest.parent ref = some (above, name) → Path forest above top → Path forest ref top

/-- Whatever else reports under the same name to the same bucket has nothing in use. -/
def Lone (forest : Forest) (ref : BucketRef) : Prop :=
  ∀ link other, forest.parent ref = some link → forest.parent other = some link →
    other ≠ ref → ∀ delay, ¬(forest.bucket other).Uses delay

/-- What the buckets below a bucket have in use, by their names. -/
def reports (forest : Forest) (ref : BucketRef) : Nat → String → Prop := fun delay name =>
  ∃ child, forest.parent child = some (ref, name) ∧ (forest.bucket child).Uses delay

def Reported (forest : Forest) (ref : BucketRef) : Prop :=
  (forest.bucket ref).Holds = forest.reports ref

variable {forest : Forest} {ref other top : BucketRef}

theorem Path.le (descending : forest.Descending) (path : forest.Path ref top) : top ≤ ref := by
  induction path with
  | here => exact Nat.le_refl _
  | up parent _ ih => exact Nat.le_trans ih (Nat.le_of_lt (descending _ _ _ parent))

theorem bucket_of_size_le (outside : forest.size ≤ ref) : forest.bucket ref = .empty "" := by
  have absent : forest.nodes[ref]? = none := List.getElem?_eq_none outside
  rw [bucket, absent]

theorem parent_of_size_le (outside : forest.size ≤ ref) : forest.parent ref = none := by
  have absent : forest.nodes[ref]? = none := List.getElem?_eq_none outside
  rw [parent, absent]

theorem lt_size_of_parent {link : BucketRef × String} (reporting : forest.parent ref = some link) :
    ref < forest.size := by
  by_contra outside
  rw [parent_of_size_le (Nat.le_of_not_lt outside)] at reporting
  contradiction

@[simp] theorem size_setBucket (bucket : Bucket String) :
    (forest.setBucket ref bucket).size = forest.size := List.length_modify ..

@[simp] theorem parent_setBucket (bucket : Bucket String) :
    (forest.setBucket ref bucket).parent other = forest.parent other := by
  simp only [parent, setBucket, List.getElem?_modify]
  by_cases same : ref = other
  · cases forest.nodes[other]? <;> simp [same]
  · simp [same]

theorem bucket_setBucket (inside : ref < forest.size) (bucket : Bucket String) :
    (forest.setBucket ref bucket).bucket other =
      if other = ref then bucket else forest.bucket other := by
  simp only [Forest.bucket, setBucket, List.getElem?_modify]
  by_cases same : other = ref
  · subst same
    obtain ⟨node, found⟩ : ∃ node, forest.nodes[other]? = some node :=
      ⟨_, List.getElem?_eq_getElem inside⟩
    simp [found]
  · simp [same, Ne.symm same]

@[simp] theorem bucket_setBucket_self (inside : ref < forest.size) (bucket : Bucket String) :
    (forest.setBucket ref bucket).bucket ref = bucket := by simp [bucket_setBucket inside]

theorem bucket_setBucket_of_ne (inside : ref < forest.size) (different : other ≠ ref)
    (bucket : Bucket String) : (forest.setBucket ref bucket).bucket other = forest.bucket other := by
  simp [bucket_setBucket inside, different]

theorem Path.setBucket {bucket : Bucket String} (path : forest.Path other top) :
    (forest.setBucket ref bucket).Path other top := by
  induction path with
  | here ref => exact .here ref
  | up parent _ ih => exact .up (by simpa using parent) ih

theorem Path.of_setBucket {bucket : Bucket String}
    (path : (forest.setBucket ref bucket).Path other top) : forest.Path other top := by
  induction path with
  | here ref => exact .here ref
  | up parent _ ih => exact .up (by simpa using parent) ih

/-! ### What a change leaves alone -/

variable {change : Change String}

@[simp] theorem size_apply : (forest.apply ref change).forest.size = forest.size := by
  fun_induction Forest.apply forest ref change
  case case3 ih => exact ih.trans (size_setBucket _)
  case case5 => rfl
  all_goals exact size_setBucket _

@[simp] theorem parent_apply :
    (forest.apply ref change).forest.parent other = forest.parent other := by
  fun_induction Forest.apply forest ref change
  case case3 ih => exact ih.trans (parent_setBucket _)
  case case5 => rfl
  all_goals exact parent_setBucket _

theorem descending_apply (descending : forest.Descending) :
    (forest.apply ref change).forest.Descending := by
  intro child above name reporting
  rw [parent_apply] at reporting
  exact descending child above name reporting

theorem Path.of_apply (path : (forest.apply ref change).forest.Path other top) :
    forest.Path other top := by
  induction path with
  | here ref => exact .here ref
  | up parent _ ih => exact .up (by simpa using parent) ih

/-- A change reaches only the buckets above the one where it is made. -/
theorem bucket_apply_of_not_path (apart : ¬forest.Path ref other) :
    (forest.apply ref change).forest.bucket other = forest.bucket other := by
  fun_induction Forest.apply forest ref change
  case case3 forest ref change inside _ _ event _ above name reporting _ _ ih =>
    have different : other ≠ ref := by
      rintro rfl
      exact apart (.here other)
    exact (ih fun path => apart (.up reporting path.of_setBucket)).trans
      (bucket_setBucket_of_ne inside different _)
  case case5 => rfl
  all_goals
    refine bucket_setBucket_of_ne (by assumption) ?_ _
    rintro rfl
    exact apart (.here other)

/-- Reports go to smaller numbers only. -/
theorem bucket_apply_of_lt (beyond : ref < other) :
    (forest.apply ref change).forest.bucket other = forest.bucket other := by
  fun_induction Forest.apply forest ref change
  case case3 inside _ _ _ _ _ _ _ below _ ih =>
    exact (ih (Nat.lt_trans below beyond)).trans
      (bucket_setBucket_of_ne inside (Nat.ne_of_gt beyond) _)
  case case5 => rfl
  all_goals exact bucket_setBucket_of_ne (by assumption) (Nat.ne_of_gt beyond) _

/-- The bucket itself takes the change and hears nothing more of it. -/
theorem bucket_apply_self (inside : ref < forest.size) :
    (forest.apply ref change).forest.bucket ref = ((forest.bucket ref).apply change).bucket := by
  fun_cases Forest.apply forest ref change
  case case3 below _ => exact (bucket_apply_of_lt below).trans (bucket_setBucket_self inside _)
  case case5 outside => exact absurd inside outside
  all_goals exact bucket_setBucket_self inside _

theorem tidy_apply (tidy : ∀ ref, (forest.bucket ref).Tidy) :
    ((forest.apply ref change).forest.bucket other).Tidy := by
  have changed : ∀ (forest : Forest) (ref : BucketRef) (change : Change String),
      ref < forest.size → (∀ ref, (forest.bucket ref).Tidy) →
      ∀ other, ((forest.setBucket ref ((forest.bucket ref).apply change).bucket).bucket other).Tidy := by
    intro forest ref change inside tidy other
    rw [bucket_setBucket inside]
    split
    · exact Bucket.tidy_apply (tidy ref) change
    · exact tidy other
  fun_induction Forest.apply forest ref change
  case case3 inside _ _ _ _ _ _ _ _ _ ih => exact ih (changed _ _ _ inside tidy)
  case case5 => exact tidy other
  all_goals exact changed _ _ _ (by assumption) tidy other

/-! ### What every bucket tells -/

/-- A bucket that a change does not reach tells nothing. -/
theorem eventsAt_apply_of_not_path (apart : ¬forest.Path ref other) :
    eventsAt other (forest.apply ref change).events = [] := by
  have different : other ≠ ref := by
    rintro rfl
    exact apart (.here other)
  fun_induction Forest.apply forest ref change
  case case3 reporting _ reported ih =>
    have quiet := ih (fun path => apart (.up reporting path.of_setBucket)) (by
      rintro rfl
      exact apart (.up reporting (.here _)))
    have later : eventsAt other reported.events = [] := quiet
    simpa [eventsAt, Ne.symm different] using later
  all_goals simp [eventsAt, Ne.symm different]

private theorem tells_setBucket (other : BucketRef) (change : Change String)
    (inside : ref < forest.size) :
    let outcome := (forest.bucket ref).apply change
    ∃ told, eventsAt other (outcome.event.toList.map (ref, ·)) = told.toList ∧
      Tells told (forest.bucket other).Uses
        ((forest.setBucket ref outcome.bucket).bucket other).Uses := by
  intro outcome
  by_cases same : other = ref
  · subst same
    refine ⟨outcome.event, ?_, ?_⟩
    · cases outcome.event <;> simp [eventsAt]
    · rw [bucket_setBucket_self inside]
      exact Bucket.tells_apply (forest.bucket other) change
  · refine ⟨none, ?_, ?_⟩
    · cases outcome.event <;> simp [eventsAt, Ne.symm same]
    · rw [bucket_setBucket_of_ne inside same]
      exact Tells.refl _

/-- Each bucket tells at most one event about a change, and all that it meant there. -/
theorem tells_apply (ref other : BucketRef) (change : Change String)
    (descending : forest.Descending) :
    ∃ told, eventsAt other (forest.apply ref change).events = told.toList ∧
      Tells told (forest.bucket other).Uses
        ((forest.apply ref change).forest.bucket other).Uses := by
  fun_induction Forest.apply forest ref change
  case case1 forest ref change inside outcome _ silent =>
    obtain ⟨told, events, tells⟩ := tells_setBucket other change inside
    rw [show ((forest.bucket ref).apply change).event = none from silent] at events
    exact ⟨told, events, tells⟩
  case case3 forest ref change inside outcome changed event told above name reporting below
      reported ih =>
    have descendingChanged : changed.Descending := by
      intro child above name reporting
      rw [parent_setBucket] at reporting
      exact descending child above name reporting
    by_cases same : other = ref
    · subst same
      have apart : ¬changed.Path above other :=
        fun path => Nat.not_le_of_lt below (path.le descendingChanged)
      refine ⟨some event, ?_, ?_⟩
      · have later : eventsAt other reported.events = [] := eventsAt_apply_of_not_path apart
        simpa [eventsAt] using later
      · rw [bucket_apply_of_not_path apart, bucket_setBucket_self inside]
        have tells := Bucket.tells_apply (forest.bucket other) change
        rwa [show ((forest.bucket other).apply change).event = some event from told] at tells
    · obtain ⟨later, events, tells⟩ := ih descendingChanged
      refine ⟨later, ?_, ?_⟩
      · have quiet : eventsAt other ((ref, event) :: reported.events) =
            eventsAt other reported.events := by simp [eventsAt, Ne.symm same]
        exact quiet.trans events
      · rwa [bucket_setBucket_of_ne inside same] at tells
  case case2 forest ref change inside outcome _ event told _ =>
    obtain ⟨only, events, tells⟩ := tells_setBucket other change inside
    rw [show ((forest.bucket ref).apply change).event = some event from told] at events
    exact ⟨only, events, tells⟩
  case case4 forest ref change inside _ _ _ _ above name reporting notBelow =>
    exact absurd (descending ref above name reporting) notBelow
  case case5 => exact ⟨none, rfl, Tells.refl _⟩

/-! ### Reports stay true -/

theorem reports_setBucket_of_not_child (inside : ref < forest.size) (bucket : Bucket String)
    (apart : ∀ name, forest.parent ref ≠ some (other, name)) :
    (forest.setBucket ref bucket).reports other = forest.reports other := by
  funext delay name
  apply propext
  constructor
  · rintro ⟨child, reporting, used⟩
    rw [parent_setBucket] at reporting
    have different : child ≠ ref := by
      rintro rfl
      exact apart name reporting
    rw [bucket_setBucket_of_ne inside different] at used
    exact ⟨child, reporting, used⟩
  · rintro ⟨child, reporting, used⟩
    have different : child ≠ ref := by
      rintro rfl
      exact apart name reporting
    refine ⟨child, by rw [parent_setBucket, reporting], ?_⟩
    rwa [bucket_setBucket_of_ne inside different]

/-- Where a child reports alone under its name, its bucket decides about that name, and the
buckets of the others about the rest. -/
theorem reports_iff_of_lone {above : BucketRef} {name other : String} {delay : Nat} {forest' : Forest}
    (lone : forest.Lone ref) (reporting : forest.parent ref = some (above, name))
    (parents : ∀ child, forest'.parent child = forest.parent child)
    (buckets : ∀ child, child ≠ ref → forest'.bucket child = forest.bucket child) :
    forest'.reports above delay other ↔
      (other = name ∧ (forest'.bucket ref).Uses delay) ∨
        (other ≠ name ∧ ∃ child, child ≠ ref ∧ forest.parent child = some (above, other) ∧
          (forest.bucket child).Uses delay) := by
  constructor
  · rintro ⟨child, reportingChild, used⟩
    rw [parents] at reportingChild
    by_cases same : child = ref
    · subst same
      rw [reporting, Option.some.injEq, Prod.mk.injEq] at reportingChild
      exact .inl ⟨reportingChild.2.symm, used⟩
    · rw [buckets child same] at used
      refine .inr ⟨?_, child, same, reportingChild, used⟩
      rintro rfl
      exact lone _ child reporting reportingChild same delay used
  · rintro (⟨rfl, used⟩ | ⟨_, child, different, reportingChild, used⟩)
    · exact ⟨ref, (parents ref).trans reporting, used⟩
    · refine ⟨child, (parents child).trans reportingChild, ?_⟩
      rwa [buckets child different]

/-- What is reported to a bucket changes as the event of the child says, if nothing else
reports under the name of that child. -/
theorem reports_setBucket_of_child {above : BucketRef} {name : String}
    (inside : ref < forest.size) (bucket : Bucket String) (lone : forest.Lone ref)
    (reporting : forest.parent ref = some (above, name)) {told : Option Event}
    (tells : Tells told (forest.bucket ref).Uses bucket.Uses) :
    (forest.setBucket ref bucket).reports above =
      Change.afterAll (forest.reports above) (told.toList.map (Event.toChange name)) := by
  have uses := Tells.after_eq tells
  funext delay other
  apply propext
  have before : forest.reports above delay other ↔ _ :=
    reports_iff_of_lone lone reporting (fun _ => rfl) (fun _ _ => rfl)
  have after : (forest.setBucket ref bucket).reports above delay other ↔ _ :=
    reports_iff_of_lone lone reporting (fun _ => parent_setBucket _)
      (fun child different => bucket_setBucket_of_ne inside different _)
  rw [after, bucket_setBucket_self inside, uses]
  cases told with
  | none =>
      simp only [Option.toList, List.map_nil, Change.afterAll_nil, Event.afterAll, List.foldl_nil]
      rw [before]
  | some event =>
      cases event with
      | start begun =>
          simp only [Option.toList, List.map_cons, List.map_nil, Change.afterAll_cons,
            Change.afterAll_nil, Event.afterAll, List.foldl_cons, List.foldl_nil, Event.after,
            Event.toChange, Change.after, before]
          by_cases same : other = name <;> simp [same]
      | cancel ended =>
          simp only [Option.toList, List.map_cons, List.map_nil, Change.afterAll_cons,
            Change.afterAll_nil, Event.afterAll, List.foldl_cons, List.foldl_nil, Event.after,
            Event.toChange, Change.after, before]
          by_cases same : other = name <;> simp [same]

theorem Lone.setBucket {above : BucketRef} {name : String} (descending : forest.Descending)
    (inside : ref < forest.size) (reporting : forest.parent ref = some (above, name))
    (path : forest.Path above top) (lone : forest.Lone top) (bucket : Bucket String) :
    (forest.setBucket ref bucket).Lone top := by
  intro link other reportingTop reportingOther different delay
  rw [parent_setBucket] at reportingTop reportingOther
  have otherNeRef : other ≠ ref := by
    rintro rfl
    rw [reporting, Option.some.injEq] at reportingOther
    subst reportingOther
    exact Nat.not_le_of_lt (descending top above name reportingTop) (path.le descending)
  rw [bucket_setBucket_of_ne inside otherNeRef]
  exact lone link other reportingTop reportingOther different delay

section Reported

variable {inner : BucketRef → Prop}
  (descending : forest.Descending) (inside : ref < forest.size)
  (others : ∀ other, inner other → other ≠ ref → forest.Reported other)
  (self : inner ref → change.after (forest.bucket ref).Holds = forest.reports ref)
include descending inside others self

private theorem reported_setBucket (lone : forest.Lone ref) (isInner : inner other)
    (quiet : ∀ name, forest.parent ref = some (other, name) →
      ((forest.bucket ref).apply change).event = none) :
    (forest.setBucket ref ((forest.bucket ref).apply change).bucket).Reported other := by
  unfold Reported
  by_cases same : other = ref
  · subst same
    have apart : ∀ name, forest.parent other ≠ some (other, name) :=
      fun name reporting => Nat.lt_irrefl _ (descending other other name reporting)
    rw [bucket_setBucket_self inside, reports_setBucket_of_not_child inside _ apart,
      Bucket.holds_apply, self isInner]
  · rw [bucket_setBucket_of_ne inside same, others other isInner same]
    by_cases child : ∃ name, forest.parent ref = some (other, name)
    · obtain ⟨name, reporting⟩ := child
      have tells := Bucket.tells_apply (forest.bucket ref) change
      rw [quiet name reporting] at tells
      exact (reports_setBucket_of_child inside _ lone reporting tells).symm
    · exact (reports_setBucket_of_not_child inside _ (not_exists.mp child)).symm

/-- A change at a bucket whose reports are behind by just this change leaves all reports
true. -/
theorem reported_apply (lone : ∀ top, forest.Path ref top → forest.Lone top)
    (isInner : inner other) : (forest.apply ref change).forest.Reported other := by
  fun_induction Forest.apply forest ref change
  case case1 forest ref change inside _ _ silent =>
    exact reported_setBucket descending inside others self (lone ref (.here ref)) isInner
      (fun _ _ => silent)
  case case2 forest ref change inside _ _ event told noParent =>
    refine reported_setBucket descending inside others self (lone ref (.here ref)) isInner ?_
    intro name reporting
    rw [noParent] at reporting
    contradiction
  case case3 forest ref change inside outcome changed event told above name reporting below _ ih =>
    have loneRef := lone ref (.here ref)
    refine ih ?_ ?_ ?_ ?_ ?_
    · intro child top name' reportingChild
      rw [parent_setBucket] at reportingChild
      exact descending child top name' reportingChild
    · exact Nat.lt_of_lt_of_eq (Nat.lt_trans below inside) (size_setBucket _).symm
    · intro r innerR different
      refine reported_setBucket descending inside others self loneRef innerR ?_
      intro name' reportingR
      rw [reporting, Option.some.injEq, Prod.mk.injEq] at reportingR
      exact absurd reportingR.1.symm different
    · intro innerAbove
      have tells := Bucket.tells_apply (forest.bucket ref) change
      have reports := reports_setBucket_of_child inside _ loneRef reporting tells
      rw [show ((forest.bucket ref).apply change).event = some event from told] at reports
      have aboveNe : above ≠ ref := Nat.ne_of_lt below
      have held : (changed.bucket above).Holds = forest.reports above := by
        rw [bucket_setBucket_of_ne inside aboveNe]
        exact others above innerAbove aboveNe
      rw [held]
      exact reports.symm
    · intro top path
      have pathBefore : forest.Path above top := path.of_setBucket
      exact (lone top (.up reporting pathBefore)).setBucket descending inside reporting pathBefore _
  case case4 forest ref change inside _ _ _ _ above name reporting notBelow =>
    exact absurd (descending ref above name reporting) notBelow
  case case5 outside => exact absurd inside outside

end Reported

end Forest

end CheckRounds.Schedule
