import CheckRounds.Proofs.Round.Opening
import CheckRounds.Proofs.Round.Plan

namespace CheckRounds

/-! What the rounds of a dispatch have collected when their work is done.

All rounds are planned before any of them begins.  That is no harm: the checks of one
server are not those of another, so a round still finds what it was planned for.
-/

open Agent (Apart)
open Collation (Directory Stream)

theorem Tally.add_assoc (first second third : Tally) :
    (first.add second).add third = first.add (second.add third) := by
  simp [Tally.add, Nat.add_assoc]

theorem Tally.zero_add (tally : Tally) : Tally.add {} tally = tally := by simp [Tally.add]

theorem Tally.add_zero (tally : Tally) : tally.add {} = tally := by simp [Tally.add]

namespace Round

variable {surroundings : Surroundings} {start world : World} {earlier done : List (HostRef × Check)}
  {agent : Agent} {owner : ServerRef} {delay : Nat} {round : Round}

/-- A round on a server that has not begun. -/
structure Opened (agent : Agent) (delay : Nat) (owner : ServerRef) (round : Round) : Prop where
  server : round.server = owner
  unitCount : round.unitCount = (agent.settings.policy.plan agent owner delay).length
  remaining : round.remaining = agent.settings.policy.plan agent owner delay
  tally : round.tally = {}
  fault : round.fault = none
  collects : round.stream.Collects []
  delay : round.delay = delay

/-- A round on a server that has collected all that is assigned to the server. -/
structure Worked (surroundings : Surroundings) (agent : Agent) (delay : Nat) (owner : ServerRef)
    (round : Round) : Prop where
  server : round.server = owner
  unitCount : round.unitCount = (agent.settings.policy.plan agent owner delay).length
  tally : round.tally = surroundings.tallyOf agent (agent.assigned owner delay)
  fault : round.fault = none
  collected : ∃ records, surroundings.Tells agent (agent.assigned owner delay) records ∧
    round.stream.Collects records
  delay : round.delay = delay

theorem exists_start (directory : surroundings.HasDirectory world.agent.settings)
    (owner : ServerRef) (delay : Nat) :
    ∃ round opened, Round.start surroundings world owner delay = .ok (round, opened) := by
  obtain ⟨begun, opened, started⟩ := exists_begin directory owner delay
  exact ⟨_, opened, start_eq_ok_iff.mpr ⟨begun, started, rfl⟩⟩

/-- A round that was started. -/
structure Starts (surroundings : Surroundings) (world : World) (owner : ServerRef) (delay : Nat)
    (round : Round) (after : World) : Prop where
  server : round.server = owner
  opened : surroundings.HasRoom world.agent.settings → Opened world.agent delay owner round
  changes : ∃ directory, after = { world with directory }
  directory : round.stream.release after.directory = world.directory

theorem starts_of_start {after : World}
    (started : Round.start surroundings world owner delay = .ok (round, after)) :
    Starts surroundings world owner delay round after := by
  obtain ⟨begun, began, rfl⟩ := start_eq_ok_iff.mp started
  have begins := begins_of_begin began
  obtain ⟨rfl, rfl, settings⟩ := begins.terms
  obtain ⟨directory, rfl⟩ := begins.changes
  constructor
  case server => rfl
  case opened =>
    intro roomy
    exact
      { server := rfl
        unitCount := by rw [divide, settings]
        remaining := by rw [divide, settings]
        tally := begins.untouched.1
        fault := begins.untouched.2
        collects := begins.collects roomy
        delay := rfl }
  case changes => exact ⟨directory, rfl⟩
  case directory => exact begins.directory

theorem performAll_eq (harmless : surroundings.Harmless) (sound : start.agent.Sound)
    {scopes : List Coverage} {portions : List (List (HostRef × Check))}
    (covers : List.Forall₂ (Coverage.Covers start.agent delay) scopes portions)
    (progress : Collecting.Progress surroundings start earlier done ⟨world, round.stream⟩)
    (apart : Apart (earlier ++ done ++ portions.flatten)) :
    ∃ after : Collecting,
      round.performAll surroundings world (scopes.map fun scope => ⟨delay, scope⟩) =
        (after.world,
          { round with
            stream := after.stream
            tally := round.tally.add (surroundings.tallyOf start.agent portions.flatten) }) ∧
      Collecting.Progress surroundings start earlier (done ++ portions.flatten) after := by
  induction covers generalizing world round done with
  | nil =>
      rw [List.flatten_nil, List.append_nil]
      exact ⟨⟨world, round.stream⟩, rfl, progress⟩
  | @cons scope portion scopes portions covers _ ih =>
      rw [List.flatten_cons] at apart ⊢
      obtain ⟨first, others⟩ := apart.split
      obtain ⟨middle, performed, progress⟩ := progress.runUnit harmless sound covers first
      let next : Round :=
        { round with
          stream := middle.stream
          tally := round.tally.add (surroundings.tallyOf start.agent portion) }
      have progressNext : Collecting.Progress surroundings start earlier (done ++ portion)
          ⟨middle.world, next.stream⟩ := progress
      obtain ⟨after, performedRest, progress⟩ := ih progressNext others
      refine ⟨after, ?_, ?_⟩
      · rw [List.map_cons, Round.performAll, Round.perform, performed]
        dsimp only [Round.count]
        rw [performedRest, Surroundings.tallyOf_append, ← Tally.add_assoc]
      · rwa [List.append_assoc] at progress

theorem Opened.work (opened : Opened start.agent delay owner round)
    (harmless : surroundings.Harmless) (sound : start.agent.Sound) {id : String}
    (named : start.agent.serverNamed? id = some owner) (executed : start.Executed earlier world)
    (apart : Apart (earlier ++ start.agent.assigned owner delay)) :
    ∃ world' round', round.work surroundings world = (world', round') ∧
      start.Executed (earlier ++ start.agent.assigned owner delay) world' ∧
      Worked surroundings start.agent delay owner round' := by
  obtain ⟨portions, covers, all⟩ :=
    start.agent.settings.policy.covers_scopes owner delay sound
  rw [sound.allDue_eq_assigned named] at all
  let begun : Round := { round with remaining := [] }
  have progress : Collecting.Progress surroundings start earlier [] ⟨world, begun.stream⟩ := by
    refine ⟨?_, [], .nil, opened.collects⟩
    rwa [List.append_nil]
  have apartAll : Apart (earlier ++ [] ++ portions.flatten) := by
    rwa [List.append_nil, all]
  obtain ⟨after, worked, progress⟩ := performAll_eq harmless sound covers progress apartAll
  rw [all, List.nil_append] at progress
  rw [← WorkPolicy.plan, ← opened.remaining] at worked
  refine ⟨_, _, worked, progress.executed, ?_⟩
  exact
    { server := opened.server
      unitCount := opened.unitCount
      tally := by
        dsimp only
        rw [opened.tally, Tally.zero_add, all]
      fault := opened.fault
      collected := progress.collected
      delay := opened.delay }

end Round

namespace Dispatch

variable {surroundings : Surroundings} {start world : World} {earlier : List (HostRef × Check)}
  {delay : Nat}

/-- All rounds are opened, and nothing but the directory is different then. -/
theorem openEach_of_directory (directory : surroundings.HasDirectory start.agent.settings)
    (delay : Nat) (owners : List ServerRef) (files : Directory) :
    ∃ left, (openEach surroundings { start with directory := files } delay owners).2 =
        { start with directory := left } ∧
      List.Forall₂ (Round.Opened start.agent delay) owners
        (openEach surroundings { start with directory := files } delay owners).1 := by
  induction owners generalizing files with
  | nil => exact ⟨files, rfl, .nil⟩
  | cons owner rest ih =>
      obtain ⟨round, after, started⟩ :=
        @Round.exists_start surroundings { start with directory := files } directory owner delay
      have starts := Round.starts_of_start started
      obtain ⟨between, rfl⟩ := starts.changes
      obtain ⟨left, same, opened⟩ := ih between
      refine ⟨left, ?_, ?_⟩
      · rw [openEach, started]
        exact same
      · rw [openEach, started]
        exact .cons (starts.opened directory.hasRoom) opened

theorem work_eq (harmless : surroundings.Harmless) (sound : start.agent.Sound)
    {owners : List ServerRef} {rounds : List Round}
    (opened : List.Forall₂ (Round.Opened start.agent delay) owners rounds)
    (named : ∀ owner ∈ owners, ∃ id, start.agent.serverNamed? id = some owner)
    (executed : start.Executed earlier world)
    (apart : Apart (earlier ++ owners.flatMap fun owner => start.agent.assigned owner delay)) :
    ∃ world' rounds', Dispatch.work surroundings world rounds = (world', rounds') ∧
      start.Executed (earlier ++ owners.flatMap fun owner => start.agent.assigned owner delay) world' ∧
      List.Forall₂ (Round.Worked surroundings start.agent delay) owners rounds' := by
  induction opened generalizing world earlier with
  | nil =>
      rw [List.flatMap_nil, List.append_nil]
      exact ⟨world, [], rfl, executed, .nil⟩
  | @cons owner round owners rounds opened _ ih =>
      rw [List.flatMap_cons, ← List.append_assoc] at apart ⊢
      obtain ⟨id, namedFirst⟩ := named owner List.mem_cons_self
      obtain ⟨middle, round', worked, executed, collected⟩ :=
        opened.work harmless sound namedFirst executed apart.left
      obtain ⟨after, rounds', workedRest, executed, collectedRest⟩ :=
        ih (fun other inside => named other (List.mem_cons_of_mem _ inside)) executed apart
      refine ⟨after, round' :: rounds', ?_, executed, .cons collected collectedRest⟩
      rw [Dispatch.work, worked]
      dsimp only
      rw [workedRest]

end Dispatch

end CheckRounds
