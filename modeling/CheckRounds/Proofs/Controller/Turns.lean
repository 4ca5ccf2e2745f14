import CheckRounds.Proofs.Controller
import CheckRounds.Proofs.Controller.Settings
import Mathlib.Data.List.Induction

namespace CheckRounds

/-! Work from its first step to its last, with a turn in one world after the other.

Whatever happens between two turns, a sweep stays a sweep, and a dispatch does only rounds at its
own delay.  A round takes all its settings from the world of one turn, also if its work is divided
in the world of a later one.
-/

open Collation (Stream)

variable {surroundings : Surroundings} {world : World} {worlds : List World} {delay : Nat}

namespace Progress

/-- One more turn.  Work that is done has no more of them. -/
def turn (surroundings : Surroundings) (progress : Progress) (world : World) : Progress :=
  match progress with
  | .done tidings => .done tidings
  | .going stage => (stage.step surroundings world).2

/-- What becomes of work that has its turns in these worlds. -/
def through (surroundings : Surroundings) (progress : Progress) (worlds : List World) : Progress :=
  worlds.foldl (turn surroundings) progress

theorem through_concat (progress : Progress) (worlds : List World) (world : World) :
    progress.through surroundings (worlds ++ [world]) =
      (progress.through surroundings worlds).turn surroundings world :=
  List.foldl_concat _ _ _ _

/-- What no turn breaks holds after all of them, if it holds before the first. -/
theorem through_keeps (property : List World → Progress → Prop) {begun : Progress}
    (holds : property [] begun)
    (kept : ∀ worlds progress world, property worlds progress →
      property (worlds ++ [world]) (progress.turn surroundings world))
    (worlds : List World) : property worlds (begun.through surroundings worlds) := by
  induction worlds using List.reverseRecOn with
  | nil => exact holds
  | append_singleton worlds world ih =>
      rw [through_concat]
      exact kept worlds _ world ih

end Progress

/-! ### Rounds that are opened and divided -/

namespace Round

/-- A round that takes its settings, and with them the mode of its stream, from one moment. -/
structure OpenedUnder (settings : RoundSettings) (round : Round) : Prop where
  own : round.settings = settings
  mode : round.stream.mode = settings.collation

/-- A round that was opened under some settings and divided by their policy, and has some of its
work behind it. -/
structure KeepsTo (settings : RoundSettings) (planner : Agent) (round : Round) : Prop
    extends OpenedUnder settings round where
  count : round.unitCount = (settings.policy.plan planner round.server round.delay).length
  remaining : round.remaining <:+ settings.policy.plan planner round.server round.delay

theorem Begins.openedUnder {owner : ServerRef} {round : Round} {after : World}
    (begins : Begins surroundings world owner delay round after) :
    round.OpenedUnder world.agent.settings :=
  ⟨begins.terms.2.2, begins.mode⟩

theorem Follows.same_delay {before after : Round} (follows : before.Follows after) :
    after.delay = before.delay :=
  congrArg (·.2.1) follows.terms

theorem delay_finish {round : Round} {report : Report}
    (told : report ∈ (round.finish surroundings world).outcome.toOption.toList) :
    report.delay = round.delay := by
  have reported : (round.finish surroundings world).outcome = .ok report := by
    cases outcome : (round.finish surroundings world).outcome with
    | error fault => rw [outcome] at told; cases told
    | ok other => rw [outcome] at told; rw [List.mem_singleton.mp told]
  unfold finish at reported
  split at reported
  · cases reported
  · split at reported
    · cases reported; rfl
    · split at reported
      · cases reported
      · split at reported <;> cases reported
        rfl

theorem OpenedUnder.divide {settings : RoundSettings} {round : Round}
    (opened : round.OpenedUnder settings) (planner : Agent) :
    (round.divide planner).KeepsTo settings planner := by
  obtain ⟨rfl, mode⟩ := opened
  exact ⟨⟨rfl, mode⟩, rfl, List.suffix_rfl⟩

theorem KeepsTo.follows {settings : RoundSettings} {planner : Agent} {before after : Round}
    (keeps : before.KeepsTo settings planner) (follows : before.Follows after) :
    after.KeepsTo settings planner := by
  obtain ⟨terms, remaining⟩ := follows
  simp only [Round.terms, Prod.mk.injEq] at terms
  obtain ⟨server, delay, own, mode, count⟩ := terms
  constructor
  case toOpenedUnder => exact ⟨own.trans keeps.own, mode.trans keeps.mode⟩
  case count => rw [count, server, delay]; exact keeps.count
  case remaining => rw [server, delay]; exact remaining.trans keeps.remaining

end Round

/-! ### What the work is for -/

namespace Progress

/-- A sweep under way, or what a sweep has to tell. -/
def Sweeps : Progress → Prop
  | .going stage => stage.isSweep = true
  | .done (.refreshed _) => True
  | .done _ => False

theorem sweeps_step {stage : Stage} (sweeps : stage.isSweep = true) (world : World) :
    (stage.step surroundings world).2.Sweeps := by
  cases stage with
  | sweep => rfl
  | sweeping progress =>
      obtain ⟨waiting, summary⟩ := progress
      cases waiting with
      | nil => trivial
      | cons first rest => rfl
  | dispatch | opening | dividing | rounds => cases sweeps

theorem sweeps_through (surroundings : Surroundings) (worlds : List World) :
    (through surroundings (.going .sweep) worlds).Sweeps := by
  have begun : (going .sweep).Sweeps := rfl
  refine through_keeps (fun _ progress => progress.Sweeps) begun ?_ worlds
  intro _ progress world sweeps
  cases progress with
  | done tidings => exact sweeps
  | going stage => exact sweeps_step sweeps world

end Progress

/-- A dispatch under way, all of whose rounds are at a delay. -/
def Stage.DispatchesAt (delay : Nat) : Stage → Prop
  | .sweep | .sweeping _ => False
  | .dispatch wanted => wanted = delay
  | .opening wanted _ opened => wanted = delay ∧ ∀ round ∈ opened, round.delay = delay
  | .dividing round wanted _ opened =>
      round.delay = delay ∧ wanted = delay ∧ ∀ round ∈ opened, round.delay = delay
  | .rounds unfinished reports =>
      (∀ round ∈ unfinished, round.delay = delay) ∧ ∀ report ∈ reports, report.delay = delay

namespace Progress

/-- A dispatch at a delay under way, or what it has to tell. -/
def DispatchesAt (delay : Nat) : Progress → Prop
  | .going stage => stage.DispatchesAt delay
  | .done (.dispatched reports) => ∀ report ∈ reports, report.delay = delay
  | .done _ => False

theorem dispatchesAt_step {stage : Stage} (dispatches : stage.DispatchesAt delay) (world : World) :
    (stage.step surroundings world).2.DispatchesAt delay := by
  cases stage with
  | sweep | sweeping => cases dispatches
  | dispatch wanted => exact ⟨dispatches, fun _ inside => absurd inside List.not_mem_nil⟩
  | opening wanted servers opened =>
      obtain ⟨rfl, all⟩ := dispatches
      cases servers with
      | nil => exact ⟨all, fun _ inside => absurd inside List.not_mem_nil⟩
      | cons server rest =>
          unfold Stage.step
          dsimp only
          split
          · next begun => exact ⟨(Round.begins_of_begin begun).terms.2.1, rfl, all⟩
          · exact ⟨rfl, all⟩
  | dividing round wanted rest opened =>
      obtain ⟨own, rfl, all⟩ := dispatches
      refine ⟨rfl, fun other inside => ?_⟩
      rcases List.mem_append.mp inside with before | added
      · exact all other before
      · rw [List.mem_singleton.mp added]
        exact own
  | rounds unfinished reports =>
      obtain ⟨all, told⟩ := dispatches
      unfold Stage.step
      dsimp only
      split
      · next performed =>
          refine ⟨fun round inside => ?_, told⟩
          obtain ⟨before, among, follows⟩ := (Stage.follows_performNext performed).2 round inside
          exact follows.same_delay.trans (all before among)
      · cases unfinished with
        | nil => exact told
        | cons round rest =>
            refine ⟨fun other inside => all other (List.mem_cons_of_mem round inside), ?_⟩
            intro report inside
            rcases List.mem_append.mp inside with before | added
            · exact told report before
            · exact (Round.delay_finish added).trans (all round List.mem_cons_self)

theorem dispatchesAt_through (surroundings : Surroundings) (delay : Nat) (worlds : List World) :
    (through surroundings (.going (.dispatch delay)) worlds).DispatchesAt delay := by
  have begun : (going (.dispatch delay)).DispatchesAt delay := rfl
  refine through_keeps (fun _ progress => progress.DispatchesAt delay) begun ?_ worlds
  intro _ progress world dispatches
  cases progress with
  | done tidings => exact dispatches
  | going stage => exact dispatchesAt_step dispatches world

end Progress

/-! ### Snapshots of the settings -/

namespace Stage

/-- The round whose work is to be divided at the next turn. -/
def undivided? : Stage → Option Round
  | .dividing round .. => some round
  | _ => none

/-- The rounds whose work was divided. -/
def divided : Stage → List Round
  | .opening _ _ opened | .dividing _ _ _ opened => opened
  | .rounds unfinished _ => unfinished
  | .sweep | .sweeping _ | .dispatch _ => []

/-- Every round was opened under the settings of one of these worlds, and its work was divided
by the same settings in a later one. -/
structure KeepsToSnapshots (worlds : List World) (stage : Stage) : Prop where
  undivided : ∀ round ∈ stage.undivided?, ∃ opened ∈ worlds, round.OpenedUnder opened.agent.settings
  divided : ∀ round ∈ stage.divided, ∃ opened planned : World, [opened, planned].Sublist worlds ∧
    round.KeepsTo opened.agent.settings planned.agent

theorem KeepsToSnapshots.mono {stage : Stage} {more : List World}
    (keeps : stage.KeepsToSnapshots worlds) (among : worlds.Sublist more) :
    stage.KeepsToSnapshots more where
  undivided round inside := by
    obtain ⟨opened, before, under⟩ := keeps.undivided round inside
    exact ⟨opened, among.subset before, under⟩
  divided round inside := by
    obtain ⟨opened, planned, before, keepsTo⟩ := keeps.divided round inside
    exact ⟨opened, planned, before.trans among, keepsTo⟩

theorem keepsToSnapshots_of_divided {stage : Stage} (allDivided : stage.undivided? = none)
    (divided : ∀ round ∈ stage.divided, ∃ opened planned : World, [opened, planned].Sublist worlds ∧
      round.KeepsTo opened.agent.settings planned.agent) : stage.KeepsToSnapshots worlds where
  undivided round inside := by rw [allDivided] at inside; cases inside
  divided := divided

theorem keepsToSnapshots_of_none {stage : Stage} (allDivided : stage.undivided? = none)
    (none : stage.divided = []) : stage.KeepsToSnapshots worlds :=
  keepsToSnapshots_of_divided allDivided fun _ inside => absurd (none ▸ inside) List.not_mem_nil

theorem KeepsToSnapshots.step {stage next : Stage} (keeps : stage.KeepsToSnapshots worlds)
    (stepped : (stage.step surroundings world).2 = .going next) :
    next.KeepsToSnapshots (worlds ++ [world]) := by
  have more := keeps.mono (List.sublist_append_left worlds [world])
  unfold Stage.step at stepped
  split at stepped
  case h_1 => cases stepped; exact keepsToSnapshots_of_none rfl rfl
  case h_2 => cases stepped
  case h_3 => cases stepped; exact keepsToSnapshots_of_none rfl rfl
  case h_4 => cases stepped; exact keepsToSnapshots_of_none rfl rfl
  case h_5 => cases stepped; exact ⟨more.undivided, more.divided⟩
  case h_6 =>
    split at stepped
    · next begun =>
        cases stepped
        refine ⟨fun other same => ?_, more.divided⟩
        cases same
        exact ⟨world, List.mem_concat_self, (Round.begins_of_begin begun).openedUnder⟩
    · cases stepped
      exact ⟨more.undivided, more.divided⟩
  case h_7 round wanted rest opened =>
    cases stepped
    refine keepsToSnapshots_of_divided rfl fun other inside => ?_
    rcases List.mem_append.mp inside with before | added
    · exact more.divided other before
    · rw [List.mem_singleton.mp added]
      obtain ⟨snapshot, before, under⟩ := keeps.undivided round rfl
      refine ⟨snapshot, world, ?_, under.divide world.agent⟩
      exact (List.singleton_sublist.mpr before).append (List.Sublist.refl [world])
  case h_8 unfinished reports =>
    split at stepped
    · next performed =>
        cases stepped
        refine keepsToSnapshots_of_divided rfl fun round inside => ?_
        obtain ⟨before, among, follows⟩ := (follows_performNext performed).2 round inside
        obtain ⟨opened, planned, moments, keepsTo⟩ := more.divided before among
        exact ⟨opened, planned, moments, keepsTo.follows follows⟩
    · split at stepped
      · cases stepped
      · cases stepped
        exact keepsToSnapshots_of_divided rfl fun round inside =>
          more.divided round (List.mem_cons_of_mem _ inside)

end Stage

/-- Work keeps to snapshots of the settings that it took in its own turns. -/
theorem Progress.keepsToSnapshots_through {begun stage : Stage}
    (fresh : begun.KeepsToSnapshots [])
    (came : through surroundings (.going begun) worlds = .going stage) :
    stage.KeepsToSnapshots worlds := by
  let Keeps : List World → Progress → Prop := fun worlds progress =>
    ∀ stage, progress = .going stage → stage.KeepsToSnapshots worlds
  have first : Keeps [] (.going begun) := by
    rintro _ ⟨⟩
    exact fresh
  refine through_keeps Keeps first ?_ worlds stage came
  intro worlds progress world keeps next stepped
  cases progress with
  | done tidings => cases stepped
  | going stage => exact (keeps stage rfl).step stepped

end CheckRounds
