import CheckRounds.Proofs.Schedule.Reporting

namespace CheckRounds.Schedule

/-! Schedules that stay in order while leaves change and buckets are added.

In an orderly forest every inner bucket holds what is reported to it.  A schedule is sound
if besides the armed timers are those of the delays that the root has in use.
-/

open Scheduler (eventsAt rootRef)

namespace Forest

variable {forest : Forest} {ref other top : BucketRef} {inner : BucketRef → Prop}

structure Orderly (forest : Forest) (inner : BucketRef → Prop) : Prop where
  descending : forest.Descending
  tidy : ∀ ref, (forest.bucket ref).Tidy
  reported : ∀ ref, inner ref → forest.Reported ref

/-! ### Changes at a leaf -/

theorem Path.total (first : forest.Path ref other) (second : forest.Path ref top) :
    forest.Path other top ∨ forest.Path top other := by
  induction first with
  | here => exact .inl second
  | up parent rest ih =>
      cases second with
      | here => exact .inr (.up parent rest)
      | up parent' rest' =>
          rw [parent, Option.some.injEq, Prod.mk.injEq] at parent'
          obtain ⟨rfl, rfl⟩ := parent'
          exact ih rest'

/-- Of the buckets that report to the same one under the same name a way up passes one. -/
theorem not_path_of_sibling (descending : forest.Descending) (path : forest.Path ref top)
    {link : BucketRef × String} (reportingTop : forest.parent top = some link)
    (reportingOther : forest.parent other = some link) (different : other ≠ top) :
    ¬forest.Path ref other := by
  have apart : ∀ {first second}, forest.parent first = some link →
      forest.parent second = some link → second ≠ first → ¬forest.Path first second := by
    intro first second reportingFirst reportingSecond differ between
    cases between with
    | here => exact differ rfl
    | up parent rest =>
        rw [reportingFirst, Option.some.injEq] at parent
        subst parent
        exact Nat.not_le_of_lt (descending _ _ _ reportingSecond) (rest.le descending)
  intro pathOther
  rcases path.total pathOther with between | between
  · exact apart reportingTop reportingOther different between
  · exact apart reportingOther reportingTop (Ne.symm different) between

theorem Lone.apply {change : Change String} (descending : forest.Descending)
    (path : forest.Path ref top) (lone : forest.Lone top) :
    (forest.apply ref change).forest.Lone top := by
  intro link other reportingTop reportingOther different delay
  rw [parent_apply] at reportingTop reportingOther
  have apart := not_path_of_sibling descending path reportingTop reportingOther different
  rw [bucket_apply_of_not_path apart]
  exact lone link other reportingTop reportingOther different delay

theorem Orderly.apply {change : Change String} (orderly : forest.Orderly inner)
    (inside : ref < forest.size) (leaf : ¬inner ref)
    (lone : ∀ top, forest.Path ref top → forest.Lone top) :
    (forest.apply ref change).forest.Orderly inner where
  descending := descending_apply orderly.descending
  tidy _ := tidy_apply orderly.tidy
  reported _ isInner :=
    reported_apply orderly.descending inside (fun other isInner _ => orderly.reported other isInner)
      (fun isInner => absurd isInner leaf) lone isInner

theorem applyAll_cons (change : Change String) (rest : List (Change String)) :
    forest.applyAll ref (change :: rest) =
      ((forest.apply ref change).events ++ ((forest.apply ref change).forest.applyAll ref rest).1,
        ((forest.apply ref change).forest.applyAll ref rest).2) := rfl

@[simp] theorem size_applyAll (changes : List (Change String)) :
    (forest.applyAll ref changes).2.size = forest.size := by
  induction changes generalizing forest with
  | nil => rfl
  | cons change rest ih => rw [applyAll_cons, ih, size_apply]

@[simp] theorem parent_applyAll (changes : List (Change String)) :
    (forest.applyAll ref changes).2.parent other = forest.parent other := by
  induction changes generalizing forest with
  | nil => rfl
  | cons change rest ih => rw [applyAll_cons, ih, parent_apply]

theorem bucket_applyAll_of_not_path (changes : List (Change String))
    (apart : ¬forest.Path ref other) :
    (forest.applyAll ref changes).2.bucket other = forest.bucket other := by
  induction changes generalizing forest with
  | nil => rfl
  | cons change rest ih =>
      rw [applyAll_cons, ih fun path => apart path.of_apply, bucket_apply_of_not_path apart]

theorem holds_applyAll_self (changes : List (Change String)) (inside : ref < forest.size) :
    ((forest.applyAll ref changes).2.bucket ref).Holds =
      Change.afterAll (forest.bucket ref).Holds changes := by
  induction changes generalizing forest with
  | nil => rfl
  | cons change rest ih =>
      have insideNext : ref < (forest.apply ref change).forest.size := by rwa [size_apply]
      rw [applyAll_cons, ih insideNext, bucket_apply_self inside, Bucket.holds_apply,
        Change.afterAll_cons]

theorem Orderly.applyAll (changes : List (Change String)) (orderly : forest.Orderly inner)
    (inside : ref < forest.size) (leaf : ¬inner ref)
    (lone : ∀ top, forest.Path ref top → forest.Lone top) :
    (forest.applyAll ref changes).2.Orderly inner := by
  induction changes generalizing forest with
  | nil => exact orderly
  | cons change rest ih =>
      rw [applyAll_cons]
      refine ih (orderly.apply inside leaf lone) (by rwa [size_apply]) ?_
      intro top path
      exact (lone top path.of_apply).apply orderly.descending path.of_apply

theorem descending_applyAll (changes : List (Change String)) (descending : forest.Descending) :
    (forest.applyAll ref changes).2.Descending := by
  intro child above name reporting
  rw [parent_applyAll] at reporting
  exact descending child above name reporting

theorem eventsAt_append (first second : List (BucketRef × Event)) :
    eventsAt other (first ++ second) = eventsAt other first ++ eventsAt other second := by
  simp [eventsAt]

/-- The events of a bucket tell all that became of its delays. -/
theorem uses_applyAll (changes : List (Change String)) (descending : forest.Descending) :
    ((forest.applyAll ref changes).2.bucket other).Uses =
      Event.afterAll (forest.bucket other).Uses
        (eventsAt other (forest.applyAll ref changes).1) := by
  induction changes generalizing forest with
  | nil => rfl
  | cons change rest ih =>
      obtain ⟨told, events, tells⟩ := tells_apply ref other change descending
      rw [applyAll_cons, ih (descending_apply descending), eventsAt_append, events,
        Event.afterAll_append, ← tells.after_eq]

/-! ### New buckets -/

variable {name : String} {link : Option (BucketRef × String)}

@[simp] theorem size_plant : (forest.plant name link).size = forest.size + 1 := by
  simp [size, plant]

theorem bucket_plant : (forest.plant name link).bucket other =
    if other = forest.size then .empty name else forest.bucket other := by
  rcases Nat.lt_trichotomy other forest.size with before | same | after
  · rw [if_neg (Nat.ne_of_lt before), bucket, bucket, plant, List.getElem?_append_left before]
  · subst same
    simp [bucket, plant, size]
  · rw [if_neg (Nat.ne_of_gt after), bucket_of_size_le (Nat.le_of_lt after),
      bucket_of_size_le (by rw [size_plant]; omega)]

theorem parent_plant : (forest.plant name link).parent other =
    if other = forest.size then link else forest.parent other := by
  rcases Nat.lt_trichotomy other forest.size with before | same | after
  · rw [if_neg (Nat.ne_of_lt before), parent, parent, plant, List.getElem?_append_left before]
  · subst same
    simp [parent, plant, size]
  · rw [if_neg (Nat.ne_of_gt after), parent_of_size_le (Nat.le_of_lt after),
      parent_of_size_le (by rw [size_plant]; omega)]

theorem bucket_plant_of_lt (inside : other < forest.size) :
    (forest.plant name link).bucket other = forest.bucket other :=
  bucket_plant.trans (if_neg (Nat.ne_of_lt inside))

theorem parent_plant_of_lt (inside : other < forest.size) :
    (forest.plant name link).parent other = forest.parent other :=
  parent_plant.trans (if_neg (Nat.ne_of_lt inside))

theorem uses_plant (delay : Nat) : ((forest.plant name link).bucket other).Uses delay ↔
    (forest.bucket other).Uses delay := by
  rw [bucket_plant]
  split
  · next same =>
      rw [same, bucket_of_size_le (Nat.le_refl _)]
      exact iff_of_false (Bucket.not_uses_empty _ _) (Bucket.not_uses_empty _ _)
  · rfl

theorem reports_plant : (forest.plant name link).reports other = forest.reports other := by
  funext delay child
  apply propext
  constructor
  · rintro ⟨ref, reporting, used⟩
    rw [uses_plant] at used
    rw [parent_plant] at reporting
    split at reporting
    · next same =>
        rw [same, bucket_of_size_le (Nat.le_refl _)] at used
        exact absurd used (Bucket.not_uses_empty _ _)
    · exact ⟨ref, reporting, used⟩
  · rintro ⟨ref, reporting, used⟩
    refine ⟨ref, ?_, (uses_plant _).mpr used⟩
    rw [parent_plant, if_neg (Nat.ne_of_lt (lt_size_of_parent reporting)), reporting]

/-- A new bucket is empty and nothing reports to it yet, so it may count as an inner one. -/
theorem Orderly.plant {inner' : BucketRef → Prop} (orderly : forest.Orderly inner)
    (grown : ∀ ref, inner' ref → inner ref ∨ ref = forest.size)
    (below : ∀ above name, link = some (above, name) → above < forest.size) :
    (forest.plant name link).Orderly inner' where
  descending := by
    intro ref above child reporting
    rw [parent_plant] at reporting
    split at reporting
    · next same => exact same ▸ below above child reporting
    · exact orderly.descending ref above child reporting
  tidy := by
    intro ref
    rw [bucket_plant]
    split
    · exact Bucket.tidy_empty name
    · exact orderly.tidy ref
  reported := by
    intro ref isInner
    unfold Reported
    rw [reports_plant, bucket_plant]
    split
    · next same =>
        subst same
        funext delay child
        apply propext
        refine iff_of_false (Bucket.not_holds_empty _ _ _) ?_
        rintro ⟨ref, reporting, _⟩
        have beyond := orderly.descending _ _ _ reporting
        exact Nat.lt_asymm beyond (lt_size_of_parent reporting)
    · next different => exact orderly.reported ref ((grown ref isInner).resolve_right different)

theorem orderly_empty : empty.Orderly fun _ => False where
  descending _ _ _ reporting := by contradiction
  tidy _ := Bucket.tidy_empty ""
  reported _ isInner := isInner.elim

end Forest

/-! ### Timers -/

namespace Timers

def Armed (timers : Timers) (delay : Nat) : Prop := (timers.armed.get? delay).isSome = true

theorem armed_receive (timers : Timers) (event : Event) :
    (timers.receive event).Armed = event.after timers.Armed := by
  funext delay
  apply propext
  cases event with
  | start begun =>
      simp only [Armed, receive, SortedMap.get?_insert, Event.after]
      by_cases same : delay = begun <;> simp [same]
  | cancel ended =>
      simp only [Armed, receive, SortedMap.get?_erase, Event.after]
      by_cases same : delay = ended <;> simp [same]

theorem armed_foldl_receive (timers : Timers) (events : List Event) :
    (events.foldl receive timers).Armed = Event.afterAll timers.Armed events := by
  induction events generalizing timers with
  | nil => rfl
  | cons event rest ih => rw [List.foldl_cons, ih, armed_receive, Event.afterAll, Event.afterAll,
      List.foldl_cons]

theorem armed_advance (timers : Timers) (seconds : Nat) :
    (timers.advance seconds).2.Armed = timers.Armed := by
  funext delay
  simp [Armed, advance, SortedMap.get?_mapValues]

end Timers

namespace Scheduler

variable {scheduler : Scheduler} {ref other top : BucketRef} {inner : BucketRef → Prop}

/-- All reports are true, and the timers are those of the delays in use at the root. -/
structure Sound (scheduler : Scheduler) (inner : BucketRef → Prop) : Prop where
  orderly : scheduler.forest.Orderly inner
  armed : scheduler.timers.Armed = scheduler.root.Uses

/-- There is one timer for each delay in use at the root, and no other. -/
theorem Sound.timerDelays_eq (sound : scheduler.Sound inner) :
    scheduler.timerDelays = scheduler.root.delays := by
  apply SortedMap.keys_ext
  intro delay
  have inUse : delay ∈ scheduler.root.delays ↔ scheduler.root.Uses delay :=
    (sound.orderly.tidy rootRef).mem_delays_iff
  have armed : delay ∈ scheduler.timers.armed.keys ↔ scheduler.timers.Armed delay :=
    SortedMap.get?_isSome_iff_mem_keys.symm
  rw [armed, sound.armed]
  exact inUse.symm

theorem sound_withRoot (name : String) : (withRoot name).Sound (· = rootRef) where
  orderly := Forest.orderly_empty.plant (fun _ same => .inr same) (by simp)
  armed := by
    funext delay
    apply propext
    refine iff_of_false (by simp [Timers.Armed, withRoot, Timers.empty]) ?_
    exact fun used => Bucket.not_uses_empty "" delay ((Forest.uses_plant delay).mp used)

theorem applyAll_nil : scheduler.applyAll ref [] = scheduler := by
  simp [Scheduler.applyAll, Forest.applyAll, eventsAt]

theorem Sound.applyAll (changes : List (Change String)) (sound : scheduler.Sound inner)
    (inside : ref < scheduler.forest.size) (leaf : ¬inner ref)
    (lone : ∀ top, scheduler.forest.Path ref top → scheduler.forest.Lone top) :
    (scheduler.applyAll ref changes).Sound inner where
  orderly := sound.orderly.applyAll changes inside leaf lone
  armed := by
    change (List.foldl Timers.receive scheduler.timers _).Armed = _
    rw [Timers.armed_foldl_receive, sound.armed]
    exact (Forest.uses_applyAll changes sound.orderly.descending).symm

theorem Sound.plant {inner' : BucketRef → Prop} {name child : String} {above : BucketRef}
    (sound : scheduler.Sound inner)
    (grown : ∀ ref, inner' ref → inner ref ∨ ref = scheduler.forest.size)
    (below : above < scheduler.forest.size) : (scheduler.plant name above child).Sound inner' where
  orderly := by
    refine sound.orderly.plant grown ?_
    intro link linkName same
    rw [Option.some.injEq, Prod.mk.injEq] at same
    exact same.1 ▸ below
  armed := by
    change scheduler.timers.Armed = _
    rw [sound.armed]
    funext delay
    exact propext (Forest.uses_plant delay).symm

theorem Sound.advance (sound : scheduler.Sound inner) (seconds : Nat) :
    (scheduler.advance seconds).2.Sound inner :=
  ⟨sound.orderly, (Timers.armed_advance scheduler.timers seconds).trans sound.armed⟩

theorem Sound.dropReceiver (sound : scheduler.Sound inner) : scheduler.dropReceiver.Sound inner :=
  ⟨sound.orderly, sound.armed⟩

end Scheduler

end CheckRounds.Schedule
