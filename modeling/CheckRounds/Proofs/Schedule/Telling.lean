import CheckRounds.Proofs.Schedule.Usage
import Mathlib.Data.List.Induction

namespace CheckRounds.Schedule

/-! What events tell about one delay in the course of time.

An event fits the delays in use at its moment if it starts one that is not in use, or cancels
one that is.  Events that all fit when their turn comes start and cancel each delay
alternately.  Some of them may undo what others did; where no delay has more than one event,
the events tell what has changed between the two ends, and nothing else.
-/

namespace Event

def delay : Event → Nat
  | .start delay => delay
  | .cancel delay => delay

/-- The events of one delay. -/
def about (delay : Nat) (events : List Event) : List Event := events.filter (·.delay = delay)

def Fits (used : Nat → Prop) : Event → Prop
  | .start delay => ¬used delay
  | .cancel delay => used delay

/-- Every event fits when its turn comes. -/
def AllFit (used : Nat → Prop) : List Event → Prop
  | [] => True
  | event :: rest => event.Fits used ∧ AllFit (event.after used) rest

/-- The events of a delay in turn; the first is a start if the delay is not in use before. -/
def Alternating (delay : Nat) : Bool → List Event → Prop
  | _, [] => True
  | false, event :: rest => event = .start delay ∧ Alternating delay true rest
  | true, event :: rest => event = .cancel delay ∧ Alternating delay false rest

/-- One event for each delay that came into or went out of use, and none for the others. -/
structure TellOnce (events : List Event) (before after : Nat → Prop) : Prop where
  start : ∀ delay, ¬before delay → after delay → about delay events = [.start delay]
  cancel : ∀ delay, before delay → ¬after delay → about delay events = [.cancel delay]
  silent : ∀ delay, (before delay ↔ after delay) → about delay events = []

variable {used : Nat → Prop} {delay : Nat} {event : Event} {first second rest : List Event}

theorem about_append : about delay (first ++ second) = about delay first ++ about delay second :=
  List.filter_append ..

theorem about_cons_of_eq (same : event.delay = delay) :
    about delay (event :: rest) = event :: about delay rest :=
  List.filter_cons_of_pos (decide_eq_true same)

theorem about_cons_of_ne (different : event.delay ≠ delay) :
    about delay (event :: rest) = about delay rest :=
  List.filter_cons_of_neg (by simpa using different)

theorem about_eq_nil (none : ∀ event ∈ rest, event.delay ≠ delay) : about delay rest = [] :=
  List.filter_eq_nil_iff.mpr fun event told => by simpa using none event told

theorem after_of_ne (different : event.delay ≠ delay) : event.after used delay ↔ used delay := by
  cases event with
  | start begun => exact or_iff_right (Ne.symm different)
  | cancel ended => exact and_iff_left (Ne.symm different)

theorem allFit_append :
    AllFit used (first ++ second) ↔ AllFit used first ∧ AllFit (afterAll used first) second := by
  induction first generalizing used with
  | nil => exact ⟨fun fit => ⟨trivial, fit⟩, And.right⟩
  | cons event rest ih =>
      have later : AllFit (event.after used) (rest ++ second) ↔ _ := ih
      exact (and_congr_right fun _ => later).trans and_assoc.symm

/-- Events that fit in their turn start and cancel a delay alternately. -/
theorem AllFit.alternating {isUsed : Bool} (fit : AllFit used first)
    (same : used delay ↔ isUsed = true) : Alternating delay isUsed (about delay first) := by
  induction first generalizing used isUsed with
  | nil => cases isUsed <;> exact trivial
  | cons event rest ih =>
      obtain ⟨fits, fitLater⟩ := fit
      by_cases told : event.delay = delay
      · rw [about_cons_of_eq told]
        subst told
        cases event with
        | start begun =>
            have unused : isUsed = false := Bool.eq_false_iff.mpr fun isTrue => fits (same.mpr isTrue)
            subst unused
            exact ⟨rfl, ih fitLater (iff_of_true (.inl rfl) rfl)⟩
        | cancel ended =>
            have inUse : isUsed = true := same.mp fits
            subst inUse
            exact ⟨rfl, ih fitLater (iff_of_false (fun kept => kept.2 rfl) Bool.false_ne_true)⟩
      · rw [about_cons_of_ne told]
        exact ih fitLater ((after_of_ne told).trans same)

/-- The last event of a delay says whether it is in use. -/
theorem afterAll_iff_getLast? : afterAll used first delay ↔
    (about delay first).getLast? = some (.start delay) ∨ (about delay first = [] ∧ used delay) := by
  induction first using List.reverseRecOn with
  | nil => simp [afterAll, about]
  | append_singleton earlier last ih =>
      have split : afterAll used (earlier ++ [last]) delay ↔
          last.after (afterAll used earlier) delay := by
        rw [afterAll_append]
        exact Iff.rfl
      rw [split, about_append]
      by_cases told : last.delay = delay
      · rw [about_cons_of_eq told]
        subst told
        cases last <;> simp [Event.after, about, Event.delay]
      · rw [about_cons_of_ne told, after_of_ne told, ih]
        simp [about]

/-- Events that fit and name no delay twice tell of each delay once. -/
theorem AllFit.tellOnce (fit : AllFit used first)
    (single : ∀ delay, (about delay first).length ≤ 1) :
    TellOnce first used (afterAll used first) := by
  classical
  have cases : ∀ delay, (about delay first = [] ∧ (used delay ↔ afterAll used first delay)) ∨
      (about delay first = [.start delay] ∧ ¬used delay ∧ afterAll used first delay) ∨
      (about delay first = [.cancel delay] ∧ used delay ∧ ¬afterAll used first delay) := by
    intro delay
    have alternating : Alternating delay (decide (used delay)) (about delay first) :=
      fit.alternating decide_eq_true_iff.symm
    have last : afterAll used first delay ↔ _ := afterAll_iff_getLast?
    match told : about delay first with
    | [] => exact .inl ⟨rfl, by simp [last, told]⟩
    | [event] =>
        rw [told] at alternating
        by_cases inUse : used delay
        · rw [decide_eq_true inUse] at alternating
          obtain ⟨rfl, _⟩ := alternating
          exact .inr (.inr ⟨rfl, inUse, by simp [last, told]⟩)
        · rw [decide_eq_false inUse] at alternating
          obtain ⟨rfl, _⟩ := alternating
          exact .inr (.inl ⟨rfl, inUse, by simp [last, told]⟩)
    | _ :: _ :: _ =>
        have atMostOne := single delay
        simp [told] at atMostOne
  constructor
  case start =>
    intro delay unused inUse
    rcases cases delay with ⟨_, same⟩ | ⟨told, _, _⟩ | ⟨_, _, ended⟩
    · exact absurd (same.mpr inUse) unused
    · exact told
    · exact absurd inUse ended
  case cancel =>
    intro delay inUse ended
    rcases cases delay with ⟨_, same⟩ | ⟨_, unused, _⟩ | ⟨told, _, _⟩
    · exact absurd (same.mp inUse) ended
    · exact absurd inUse unused
    · exact told
  case silent =>
    intro delay same
    rcases cases delay with ⟨told, _⟩ | ⟨_, unused, inUse⟩ | ⟨_, inUse, ended⟩
    · exact told
    · exact absurd (same.mpr inUse) unused
    · exact absurd (same.mp inUse) ended

end Event

/-! ### One change -/

/-- What tells all that changed about the delays in use fits them. -/
theorem Tells.allFit {told : Option Event} {before after : Nat → Prop}
    (tells : Tells told before after) : Event.AllFit before told.toList := by
  cases told with
  | none => exact trivial
  | some event =>
      refine ⟨?_, trivial⟩
      cases event with
      | start begun => exact ((tells.start begun).mp rfl).1
      | cancel ended => exact ((tells.cancel ended).mp rfl).1

end CheckRounds.Schedule
