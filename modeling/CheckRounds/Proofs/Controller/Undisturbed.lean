import CheckRounds.Controller.Task
import Mathlib.Logic.Relation

namespace CheckRounds

/-! Work that nothing comes in between.

Step by step, it comes to what a sweep or a dispatch comes to that runs from its start to its end.
So what is said of those holds of the work of the loop, as far as nothing disturbs it.
-/

variable {surroundings : Surroundings} {world : World} {delay : Nat} {reports : List Report}

/-! ### Units of work -/

namespace Round

/-- What a round has left to do does not matter to the unit that it does now. -/
theorem perform_with_remaining (surroundings : Surroundings) (world : World) (round : Round)
    (left : List UnitOfWork) (work : UnitOfWork) :
    { round with remaining := left }.perform surroundings world work =
      ((round.perform surroundings world work).1,
        { (round.perform surroundings world work).2 with remaining := left }) := by
  simp only [perform, count]
  split <;> rfl

theorem remaining_nil_eq {round : Round} (idle : round.remaining = []) :
    { round with remaining := [] } = round := by
  cases round
  cases idle
  rfl

theorem remaining_performAll (surroundings : Surroundings) (world : World) (round : Round)
    (works : List UnitOfWork) :
    (round.performAll surroundings world works).2.remaining = round.remaining := by
  induction works generalizing world round with
  | nil => rfl
  | cons work rest ih => exact (ih _ _).trans Stage.remaining_perform

theorem remaining_work (surroundings : Surroundings) (world : World) (round : Round) :
    (round.work surroundings world).2.remaining = [] :=
  remaining_performAll surroundings world _ round.remaining

end Round

namespace Stage

theorem performNext_append {before after : List Round} (idle : ∀ round ∈ before, round.remaining = []) :
    performNext surroundings world (before ++ after) =
      (performNext surroundings world after).map fun next => (next.1, before ++ next.2) := by
  induction before with
  | nil => exact Option.map_id'.symm
  | cons round rest ih =>
      have first := idle round List.mem_cons_self
      have others := ih fun other inside => idle other (List.mem_cons_of_mem round inside)
      rw [List.cons_append, performNext, first, others, Option.map_map]
      rfl

theorem performNext_eq_none {rounds : List Round} (idle : ∀ round ∈ rounds, round.remaining = []) :
    performNext surroundings world rounds = none := by
  rw [← List.append_nil rounds, performNext_append idle]
  rfl

/-! ### Steps -/

/-- Some steps lead from one stage to another, each in the world that the step before left. -/
def LeadsTo (surroundings : Surroundings) : World × Stage → World × Stage → Prop :=
  Relation.ReflTransGen fun before after =>
    before.2.step surroundings before.1 = (after.1, .going after.2)

theorem leadsTo_of_step {stage nextStage : Stage} {next : World}
    (stepped : stage.step surroundings world = (next, .going nextStage)) :
    LeadsTo surroundings (world, stage) (next, nextStage) :=
  .single stepped

theorem leadsTo_opened (servers : List ServerRef) (opened : List Round) :
    LeadsTo surroundings (world, .opening delay servers opened)
      ((Dispatch.openEach surroundings world delay servers).2,
        .rounds (opened ++ (Dispatch.openEach surroundings world delay servers).1) []) := by
  induction servers generalizing world opened with
  | nil =>
      rw [Dispatch.openEach, List.append_nil]
      exact leadsTo_of_step rfl
  | cons server rest ih =>
      rw [Dispatch.openEach, Round.start]
      cases begun : Round.begin surroundings world server delay with
      | error fault =>
          have first : LeadsTo surroundings (world, .opening delay (server :: rest) opened)
              (world, .opening delay rest opened) :=
            leadsTo_of_step (by rw [step, begun])
          exact first.trans (ih opened)
      | ok next =>
          obtain ⟨round, after⟩ := next
          have first : LeadsTo surroundings (world, .opening delay (server :: rest) opened)
              (after, .dividing round delay rest opened) :=
            leadsTo_of_step (by rw [step, begun])
          have second : LeadsTo surroundings (after, .dividing round delay rest opened)
              (after, .opening delay rest (opened ++ [round.divide after.agent])) :=
            leadsTo_of_step rfl
          have others := @ih after (opened ++ [round.divide after.agent])
          rw [List.append_assoc] at others
          exact (first.trans second).trans others

theorem leadsTo_performed {before : List Round} (idle : ∀ round ∈ before, round.remaining = [])
    (after : List Round) (works : List UnitOfWork) (round : Round) :
    LeadsTo surroundings (world, .rounds (before ++ { round with remaining := works } :: after) reports)
      ((round.performAll surroundings world works).1,
        .rounds (before ++
          { (round.performAll surroundings world works).2 with remaining := [] } :: after) reports) := by
  induction works generalizing world round with
  | nil => exact .refl
  | cons work rest ih =>
      have performed : performNext surroundings world
          (before ++ { round with remaining := work :: rest } :: after) =
            some ((round.perform surroundings world work).1,
              before ++ { (round.perform surroundings world work).2 with remaining := rest } :: after) := by
        rw [performNext_append idle, performNext]
        dsimp only
        rw [Round.perform_with_remaining]
        rfl
      have first : LeadsTo surroundings
          (world, .rounds (before ++ { round with remaining := work :: rest } :: after) reports)
          ((round.perform surroundings world work).1, .rounds (before ++
            { (round.perform surroundings world work).2 with remaining := rest } :: after) reports) :=
        leadsTo_of_step (by simp only [step, performed])
      exact first.trans (ih (round.perform surroundings world work).2)

theorem leadsTo_worked {before : List Round} (idle : ∀ round ∈ before, round.remaining = [])
    (after : List Round) (round : Round) :
    LeadsTo surroundings (world, .rounds (before ++ round :: after) reports)
      ((round.work surroundings world).1,
        .rounds (before ++ (round.work surroundings world).2 :: after) reports) := by
  have same : { (round.work surroundings world).2 with remaining := [] } =
      (round.work surroundings world).2 :=
    Round.remaining_nil_eq (Round.remaining_work surroundings world round)
  rw [← same]
  exact leadsTo_performed idle after round.remaining { round with remaining := [] }

theorem leadsTo_allWorked {before : List Round} (idle : ∀ round ∈ before, round.remaining = [])
    (rounds : List Round) :
    LeadsTo surroundings (world, .rounds (before ++ rounds) reports)
      ((Dispatch.work surroundings world rounds).1,
        .rounds (before ++ (Dispatch.work surroundings world rounds).2) reports) := by
  induction rounds generalizing world before with
  | nil => exact .refl
  | cons round rest ih =>
      have still : ∀ other ∈ before ++ [(round.work surroundings world).2], other.remaining = [] :=
        List.forall_mem_append.mpr
          ⟨idle, List.forall_mem_singleton.mpr (Round.remaining_work surroundings world round)⟩
      have others := @ih (round.work surroundings world).1 _ still
      rw [List.append_assoc, List.append_assoc] at others
      exact (leadsTo_worked idle rest round).trans others

theorem remaining_dispatchWork (rounds : List Round) :
    ∀ round ∈ (Dispatch.work surroundings world rounds).2, round.remaining = [] := by
  induction rounds generalizing world with
  | nil => exact fun _ inside => absurd inside List.not_mem_nil
  | cons round rest ih =>
      exact List.forall_mem_cons.mpr ⟨Round.remaining_work surroundings world round, ih⟩

/-- Work ends with these tidings, and leaves this world behind. -/
def EndsWith (surroundings : Surroundings) (before : World × Stage) (world : World)
    (tidings : Tidings) : Prop :=
  ∃ last, LeadsTo surroundings before last ∧ last.2.step surroundings last.1 = (world, .done tidings)

theorem LeadsTo.endsWith {before between : World × Stage} {tidings : Tidings}
    (leads : LeadsTo surroundings before between) (ends : EndsWith surroundings between world tidings) :
    EndsWith surroundings before world tidings := by
  obtain ⟨last, further, done⟩ := ends
  exact ⟨last, leads.trans further, done⟩

theorem finished_endsWith (rounds : List Round) (idle : ∀ round ∈ rounds, round.remaining = [])
    (reports : List Report) :
    EndsWith surroundings (world, .rounds rounds reports) (Dispatch.finish surroundings world rounds).2
      (.dispatched (reports ++ (Dispatch.finish surroundings world rounds).1)) := by
  induction rounds generalizing world reports with
  | nil =>
      refine ⟨_, .refl, ?_⟩
      rw [Dispatch.finish, List.append_nil]
      rfl
  | cons round rest ih =>
      have ending := @ih (round.finish surroundings world).world
        (fun other inside => idle other (List.mem_cons_of_mem round inside))
        (reports ++ (round.finish surroundings world).outcome.toOption.toList)
      rw [List.append_assoc] at ending
      have first : LeadsTo surroundings (world, .rounds (round :: rest) reports)
          ((round.finish surroundings world).world,
            .rounds rest (reports ++ (round.finish surroundings world).outcome.toOption.toList)) :=
        leadsTo_of_step (by rw [step, performNext_eq_none idle])
      exact first.endsWith ending

/-- A dispatch that nothing disturbs does what a dispatch does that runs through. -/
theorem dispatch_undisturbed (surroundings : Surroundings) (world : World) (delay : Nat) :
    EndsWith surroundings (world, .dispatch delay) (Dispatch.run surroundings world delay).2
      (.dispatched (Dispatch.run surroundings world delay).1) := by
  have begun : LeadsTo surroundings (world, .dispatch delay)
      (world, .opening delay (world.agent.dueServers delay) []) := leadsTo_of_step rfl
  have opened : LeadsTo surroundings (world, .opening delay (world.agent.dueServers delay) [])
      ((Dispatch.start surroundings world delay).2,
        .rounds (Dispatch.start surroundings world delay).1 []) :=
    leadsTo_opened (world.agent.dueServers delay) []
  rw [Dispatch.run]
  generalize Dispatch.start surroundings world delay = started at opened
  obtain ⟨rounds, after⟩ := started
  have worked : LeadsTo surroundings (after, .rounds rounds [])
      ((Dispatch.work surroundings after rounds).1,
        .rounds (Dispatch.work surroundings after rounds).2 []) :=
    leadsTo_allWorked (List.forall_mem_nil _) rounds
  refine begun.endsWith (opened.endsWith (worked.endsWith ?_))
  exact finished_endsWith _ (remaining_dispatchWork _) []

theorem asking_endsWith (waiting : List (ServerRef × HostRef)) (summary : SweepSummary) :
    EndsWith surroundings (world, .sweeping ⟨waiting, summary⟩)
      (RefreshSweep.askAll surroundings world summary waiting).2
      (.refreshed (RefreshSweep.askAll surroundings world summary waiting).1) := by
  induction waiting generalizing world summary with
  | nil => exact ⟨_, .refl, rfl⟩
  | cons pair rest ih => exact (leadsTo_of_step rfl).endsWith (ih _)

/-- A sweep that nothing disturbs does what a sweep does that runs through. -/
theorem sweep_undisturbed (surroundings : Surroundings) (world : World) :
    EndsWith surroundings (world, .sweep) (RefreshSweep.run surroundings world).2
      (.refreshed (RefreshSweep.run surroundings world).1) :=
  (leadsTo_of_step rfl).endsWith (asking_endsWith _ {})

end Stage

end CheckRounds
