import CheckRounds.Agent.Overview
import CheckRounds.RefreshSweep
import CheckRounds.Round

namespace CheckRounds

/-! Sweeps and dispatches as work that is done step by step, so that other things can
happen between two steps.

A sweep asks for one host in a step.  A dispatch opens the rounds of its servers one after the
other, each in two steps: settings may change after a round was opened and before its work is
divided.  Then it does a unit of work in a step, and ends one round in a step.
-/

/-- What a finished piece of work, or the agent itself, has to tell. -/
inductive Tidings
  | refreshed (summary : SweepSummary)
  | dispatched (reports : List Report)
  | overview (overview : Overview)
deriving DecidableEq

inductive Stage
  | sweep
  | sweeping (progress : RefreshSweep)
  | dispatch (delay : Nat)
  /-- Rounds on these servers are still to be opened. -/
  | opening (delay : Nat) (servers : List ServerRef) (opened : List Round)
  /-- A round was opened, and its work is to be divided now. -/
  | dividing (round : Round) (delay : Nat) (servers : List ServerRef) (opened : List Round)
  | rounds (unfinished : List Round) (reports : List Report)

inductive Progress
  | done (tidings : Tidings)
  | going (stage : Stage)

namespace Stage

/-- How often the work has still to turn to something that takes steps of its own. -/
def phasesLeft : Stage → Nat
  | .dispatch _ => 2
  | .sweep | .opening .. | .dividing .. => 1
  | .sweeping _ | .rounds .. => 0

/-- The number of steps that are left of what the work is at now. -/
def stepsLeft : Stage → Nat
  | .sweep | .dispatch _ => 0
  | .sweeping progress => progress.waiting.length + 1
  | .opening _ servers _ => 2 * servers.length
  | .dividing _ _ servers _ => 2 * servers.length + 1
  | .rounds unfinished _ =>
      unfinished.foldr (fun round steps => round.remaining.length + 1 + steps) 0 + 1

/-- Does one unit of the first round that has any left. -/
def performNext (surroundings : Surroundings) (world : World) :
    List Round → Option (World × List Round)
  | [] => none
  | round :: rest =>
      match round.remaining with
      | work :: others =>
          let (world, round) :=
            { round with remaining := others }.perform surroundings world work
          some (world, round :: rest)
      | [] => (performNext surroundings world rest).map fun next => (next.1, round :: next.2)

/-- Does one step: what the work has to tell if it is done, or how far it is now. -/
def step (surroundings : Surroundings) (world : World) : Stage → World × Progress
  | .sweep =>
      let (progress, world) := RefreshSweep.start world
      (world, .going (.sweeping progress))
  | .sweeping ⟨[], summary⟩ => (world, .done (.refreshed summary))
  | .sweeping ⟨(server, host) :: rest, summary⟩ =>
      let (state, world) := world.refresh surroundings server host world.agent.timeout
      (world, .going (.sweeping ⟨rest, summary.count state⟩))
  | .dispatch delay => (world, .going (.opening delay (world.agent.dueServers delay) []))
  | .opening _ [] opened => (world, .going (.rounds opened []))
  | .opening delay (server :: rest) opened =>
      match Round.begin surroundings world server delay with
      | .ok (round, world) => (world, .going (.dividing round delay rest opened))
      | .error _ => (world, .going (.opening delay rest opened))
  | .dividing round delay rest opened =>
      (world, .going (.opening delay rest (opened ++ [round.divide world.agent])))
  | .rounds unfinished reports =>
      match performNext surroundings world unfinished with
      | some (world, unfinished) => (world, .going (.rounds unfinished reports))
      | none =>
          match unfinished with
          | [] => (world, .done (.dispatched reports))
          | round :: rest =>
              let ending := round.finish surroundings world
              (ending.world, .going (.rounds rest (reports ++ ending.outcome.toOption.toList)))

theorem remaining_perform {surroundings : Surroundings} {world : World} {round : Round}
    {work : UnitOfWork} :
    (round.perform surroundings world work).2.remaining = round.remaining := by
  simp only [Round.perform, Round.count]
  split <;> rfl

theorem stepsLeft_performNext {surroundings : Surroundings} {world : World}
    {before : List Round} {next : World × List Round}
    (performed : performNext surroundings world before = some next) :
    next.2.foldr (fun round steps => round.remaining.length + 1 + steps) 0 + 1 =
      before.foldr (fun round steps => round.remaining.length + 1 + steps) 0 := by
  induction before generalizing next with
  | nil => simp [performNext] at performed
  | cons round rest ih =>
      cases left : round.remaining with
      | nil =>
          simp only [performNext, left, Option.map_eq_some_iff] at performed
          obtain ⟨later, found, rfl⟩ := performed
          have fewer := ih found
          simp only [List.foldr_cons]
          omega
      | cons work others =>
          simp only [performNext, left, Option.some.injEq] at performed
          subst performed
          simp only [List.foldr_cons, remaining_perform, left, List.length_cons]
          omega

/-- A step that does not end the work brings it nearer to its end. -/
theorem nearer_step {surroundings : Surroundings} {world : World} {stage next : Stage}
    (stepped : (stage.step surroundings world).2 = .going next) :
    Prod.Lex (· < ·) (· < ·) (next.phasesLeft, next.stepsLeft) (stage.phasesLeft, stage.stepsLeft) := by
  unfold step at stepped
  split at stepped
  case h_1 => cases stepped; exact .left _ _ (Nat.lt_add_one 0)
  case h_2 => cases stepped
  case h_3 => cases stepped; exact .right _ (by simp [stepsLeft])
  case h_4 => cases stepped; exact .left _ _ (Nat.lt_add_one 1)
  case h_5 => cases stepped; exact .left _ _ (Nat.lt_add_one 0)
  case h_6 =>
    split at stepped <;> cases stepped <;>
      exact .right _ (by simp only [stepsLeft, List.length_cons]; omega)
  case h_7 => cases stepped; exact .right _ (by simp [stepsLeft])
  case h_8 =>
    split at stepped
    · next performed =>
        cases stepped
        have fewer := stepsLeft_performNext performed
        dsimp only at fewer
        exact .right _ (by simp only [stepsLeft]; omega)
    · split at stepped <;> cases stepped
      exact .right _ (by simp [stepsLeft])

end Stage

end CheckRounds
