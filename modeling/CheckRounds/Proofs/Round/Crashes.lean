import CheckRounds.Proofs.Exchange
import CheckRounds.Proofs.Round.Agreement
import CheckRounds.Proofs.Round.Interference
import Mathlib.Data.List.Perm.Basic

namespace CheckRounds

/-! What is left of a round in which executions crash.

A crash ends the unit of work that it happens in: the checks behind it are not executed, and
what the unit has counted is lost.  The records from before it stay, other units go on, and
what there is is submitted.  An execution that fails leaves a record like any other.
-/

open Agent (Apart place)
open Collation (Stream)

/-! ### What is due, in order -/

namespace Agent

variable {agent : Agent} {owner : ServerRef} {delay : Nat}

/-- The due hosts of a server come by name. -/
theorem Sound.dueHosts_ascending (sound : agent.Sound) :
    ((agent.dueHosts owner delay).map agent.hostName).Pairwise (· < ·) := by
  rw [dueHosts, List.pairwise_map, List.pairwise_filterMap]
  refine ((agent.serverBucketOf owner).items delay).ascending.imp ?_
  intro name other before ref named ref' named'
  have hostName : ∀ {name ref}, agent.hostNamed? owner name = some ref → agent.hostName ref = name := by
    intro name ref named
    obtain ⟨server, found, enrolled⟩ := Option.bind_eq_some_iff.mp named
    obtain ⟨station, foundStation, _⟩ := sound.enrolled found enrolled
    rw [Agent.hostName, host, host?, foundStation]
    exact sound.name_of_enrolled found enrolled foundStation
  rwa [hostName named, hostName named']

/-- The due checks of a host come by key. -/
theorem Sound.dueChecks_ascending (sound : agent.Sound) (ref : HostRef) (delay : Nat) :
    ((agent.dueChecks ref delay).map (·.key)).Pairwise (· < ·) := by
  rw [dueChecks_eq_filterMap, List.pairwise_map, List.pairwise_filterMap]
  refine List.Pairwise.imp_of_mem ?_ ((agent.bucketOf ref).items delay).ascending
  intro key other held heldOther before check found check' found'
  obtain ⟨_, again, sameKey⟩ := sound.exists_check?_of_held held
  obtain ⟨_, again', sameKey'⟩ := sound.exists_check?_of_held heldOther
  rw [found, Option.some.injEq] at again
  rw [found', Option.some.injEq] at again'
  subst again again'
  rwa [sameKey, sameKey']

end Agent

/-! ### What is expected of a unit -/

/-- A record without the time of it. -/
def Record.timeless (record : Record) : Record := { record with clock := 0 }

theorem Tally.ofRecords_timeless (records : List Record) :
    ofRecords (records.map Record.timeless) = ofRecords records := by
  rw [ofRecords, List.length_map, List.countP_map]
  rfl

namespace Surroundings

variable (surroundings : Surroundings) (agent : Agent)

def crashes (item : HostRef × Check) : Bool :=
  (surroundings.execute (agent.hostName item.1) item.2).outcome = .crash

/-- The checks of a unit that come before the first one that crashes. -/
def survivors (portion : List (HostRef × Check)) : List (HostRef × Check) :=
  portion.takeWhile fun item => !surroundings.crashes agent item

/-- What the units count that come to their ends. -/
def survivingTally (portions : List (List (HostRef × Check))) : Tally :=
  Tally.total ((portions.filter fun portion => !portion.any (surroundings.crashes agent)).map
    (surroundings.tallyOf agent))

def timelessRecordOf (item : HostRef × Check) : Record :=
  surroundings.recordOf (agent.hostName item.1) item.2 0

/-- The record that is expected of a check, and none if it crashes. -/
def recordOf? (item : HostRef × Check) : Option Record :=
  if surroundings.crashes agent item then none else some (surroundings.timelessRecordOf agent item)

variable {surroundings agent}

theorem ofRecords_timelessRecordOf (items : List (HostRef × Check)) :
    Tally.ofRecords (items.map (surroundings.timelessRecordOf agent)) =
      surroundings.tallyOf agent items := by
  rw [Tally.ofRecords, List.length_map, List.countP_map]
  rfl

theorem any_crashes_iff {portion : List (HostRef × Check)} :
    portion.any (surroundings.crashes agent) = true ↔
      none ∈ portion.map (surroundings.recordOf? agent) := by
  simp [recordOf?]

theorem survivors_eq_self {portion : List (HostRef × Check)}
    (noCrash : portion.any (surroundings.crashes agent) = false) :
    surroundings.survivors agent portion = portion := by
  rw [List.any_eq_false] at noCrash
  rw [survivors, List.takeWhile_eq_self_iff]
  intro item inside
  rw [Bool.not_eq_true']
  exact Bool.eq_false_iff.mpr (noCrash item inside)

/-- What has been told when nothing more is expected, or a crash comes next. -/
theorem told_eq_survivors {portion : List (HostRef × Check)} {told : List Record}
    {left : List (Option Record)}
    (expected : portion.map (surroundings.recordOf? agent) = told.map some ++ left)
    (ends : ∀ next ∈ left.head?, next = none) :
    told = (surroundings.survivors agent portion).map (surroundings.timelessRecordOf agent) := by
  induction portion generalizing told with
  | nil =>
      have nothing := (List.append_eq_nil_iff.mp expected.symm).1
      exact List.map_eq_nil_iff.mp nothing
  | cons item rest ih =>
      rw [List.map_cons] at expected
      cases told with
      | nil =>
          rw [List.map_nil, List.nil_append] at expected
          have crash : surroundings.recordOf? agent item = none := ends _ (by rw [← expected]; rfl)
          rw [survivors, List.takeWhile_cons_of_neg]
          · rfl
          · cases crashed : surroundings.crashes agent item with
            | true => exact Bool.false_ne_true
            | false => simp [recordOf?, crashed] at crash
      | cons first others =>
          rw [List.map_cons, List.cons_append, List.cons.injEq] at expected
          have crashed : surroundings.crashes agent item = false := by
            cases crashed : surroundings.crashes agent item with
            | true => simp [recordOf?, crashed] at expected
            | false => rfl
          rw [recordOf?, crashed, if_neg Bool.false_ne_true, Option.some.injEq] at expected
          rw [survivors, List.takeWhile_cons_of_pos (by rw [crashed]; rfl), List.map_cons, expected.1,
            ← survivors, ← ih expected.2]

end Surroundings

namespace Worker

/-- The records that are still expected because of a step. -/
def Step.expected (surroundings : Surroundings) (agent : Agent) (delay : Nat) :
    Step → List (Option Record)
  | .collect record => [some record.timeless]
  | step => (step.todo agent delay).map (surroundings.recordOf? agent)

theorem Step.expected_of_not_isCollect {step : Step} (other : ¬step.IsCollect)
    (surroundings : Surroundings) (agent : Agent) (delay : Nat) :
    step.expected surroundings agent delay =
      (step.todo agent delay).map (surroundings.recordOf? agent) := by
  cases step with
  | collect record => exact absurd trivial other
  | _ => rfl

/-- A worker that has told something of the checks of its unit: what it has still to do makes
up for the rest, unless it has crashed. -/
inductive Tells (surroundings : Surroundings) (agent : Agent) (portion : List (HostRef × Check))
    (told : List Record) : Worker → Prop
  | working {delay : Nat} {steps : List Step}
      (expected : portion.map (surroundings.recordOf? agent) =
        told.map some ++ steps.flatMap (Step.expected surroundings agent delay)) :
      Tells surroundings agent portion told ⟨delay, steps, .ok (.ofRecords told)⟩
  | crashed {delay : Nat} {left : List (Option Record)}
      (expected : portion.map (surroundings.recordOf? agent) = told.map some ++ none :: left) :
      Tells surroundings agent portion told ⟨delay, [], .error .crash⟩

variable {surroundings : Surroundings} {agent : Agent} {portion : List (HostRef × Check)}
  {told : List Record} {worker : Worker}

theorem Tells.eq_survivors (tells : Tells surroundings agent portion told worker)
    (done : worker.steps = []) :
    told = (surroundings.survivors agent portion).map (surroundings.timelessRecordOf agent) := by
  cases tells with
  | working expected =>
      subst done
      exact Surroundings.told_eq_survivors expected fun next inside => nomatch inside
  | crashed expected =>
      refine Surroundings.told_eq_survivors expected fun next inside => ?_
      exact (Option.some.inj inside).symm

/-- A worker that is done has counted all checks of its unit, or it has crashed. -/
theorem Tells.outcome_eq (tells : Tells surroundings agent portion told worker)
    (done : worker.steps = []) :
    worker.outcome = if portion.any (surroundings.crashes agent) then .error .crash
      else .ok (surroundings.tallyOf agent portion) := by
  have same := tells.eq_survivors done
  cases tells with
  | working expected =>
      subst done
      have noCrash : portion.any (surroundings.crashes agent) = false := by
        rw [Bool.eq_false_iff, Ne, Surroundings.any_crashes_iff, expected]
        simp
      rw [noCrash, if_neg Bool.false_ne_true, same, Surroundings.survivors_eq_self noCrash,
        Surroundings.ofRecords_timelessRecordOf]
  | crashed expected =>
      rw [if_pos]
      rw [Surroundings.any_crashes_iff, expected]
      simp

end Worker

/-! ### Steps -/

namespace Collecting

variable {surroundings : Surroundings} {start : World} {executed : List (HostRef × Check)}
  {now : Collecting}

/-- An execution crashes, or its record is still to be collected. -/
theorem execute_cases (delay : Nat) (onlyTime : surroundings.OnlyTakesTime) (before : start.Executed executed now.world)
    (item : HostRef × Check) :
    ∃ after : Collecting, after.stream = now.stream ∧ start.Executed (executed ++ [item]) after.world ∧
      ((surroundings.crashes start.agent item = true ∧
          Worker.Step.perform surroundings delay now
            (.execute item.1 (start.agent.hostName item.1) item.2) = (.error .crash, after)) ∨
        ∃ record, surroundings.recordOf? start.agent item = some record.timeless ∧
          Worker.Step.perform surroundings delay now
            (.execute item.1 (start.agent.hostName item.1) item.2) = (.ok ([.collect record], {}), after)) := by
  have idle := onlyTime (start.agent.hostName item.1) item.2
  have waited := before.interveneAll idle
  unfold Worker.Step.perform Surroundings.recordOf? Surroundings.crashes
  dsimp only
  generalize now.world.interveneAll
    (surroundings.execute (start.agent.hostName item.1) item.2).meanwhile = world at waited ⊢
  cases outcome : (surroundings.execute (start.agent.hostName item.1) item.2).outcome with
  | crash => exact ⟨⟨world, now.stream⟩, rfl, waited.append [item], .inl ⟨rfl, rfl⟩⟩
  | value value =>
      let kept := world.mapAgent fun agent => agent.keepValue item.1 item.2.key value world.clock
      refine ⟨⟨kept, now.stream⟩, rfl, waited.keepValue item value world.clock, .inr ⟨_, ?_, rfl⟩⟩
      simp [Surroundings.timelessRecordOf, Surroundings.recordOf, Surroundings.result,
        Surroundings.fails, outcome, Record.timeless]
  | failure causes =>
      refine ⟨⟨world, now.stream⟩, rfl, waited.append [item], .inr ⟨_, ?_, rfl⟩⟩
      simp [Surroundings.timelessRecordOf, Surroundings.recordOf, Surroundings.result,
        Surroundings.fails, outcome, Record.timeless]

end Collecting

namespace Worker

variable {surroundings : Surroundings} {start : World} {portion executed : List (HostRef × Check)}
  {collected told : List Record} {now : Collecting} {delay : Nat} {step : Step} {rest : List Step}
  {outcome : Except Stop Tally}

/-- What came of a step: what was executed is not to be done any more, what was collected has
been told, and what was collected before is still there. -/
structure Moved (surroundings : Surroundings) (start : World) (portion executed : List (HostRef × Check))
    (collected told : List Record) (before worker : Worker) (after : Collecting)
    (items : List (HostRef × Check)) (records : List Record) : Prop where
  world : start.Executed (executed ++ items) after.world
  collects : after.stream.Collects (collected ++ records)
  tells : Tells surroundings start.agent portion (told ++ records.map Record.timeless) worker
  sublist : (items ++ worker.todo start.agent).Sublist (before.todo start.agent)
  proper : ∀ next ∈ worker.steps, next.Proper start.agent

theorem exists_moved_of_lookUp (sound : start.agent.Sound)
    (world : start.Executed executed now.world) (collects : now.stream.Collects collected)
    (expected : portion.map (surroundings.recordOf? start.agent) =
      told.map some ++ (step :: rest).flatMap (Step.expected surroundings start.agent delay))
    (looks : step.LooksUp) (properStep : step.Proper start.agent)
    (properRest : ∀ next ∈ rest, next.Proper start.agent)
    (apart : Apart (executed ++ step.todo start.agent delay)) :
    ∃ worker after items records,
      advance surroundings (⟨delay, step :: rest, .ok (.ofRecords told)⟩, now) = (worker, after) ∧
      Moved surroundings start portion executed collected told
        ⟨delay, step :: rest, .ok (.ofRecords told)⟩ worker after items records := by
  obtain ⟨more, performed, todo, found⟩ := Collecting.lookUp world sound looks properStep apart
  have same : step.expected surroundings start.agent delay =
      more.flatMap (Step.expected surroundings start.agent delay) := by
    rw [Step.expected_of_not_isCollect looks.not_isCollect, todo, List.map_flatMap]
    exact List.flatMap_congr fun next inside =>
      (Step.expected_of_not_isCollect (found next inside).2 surroundings start.agent delay).symm
  refine ⟨⟨delay, more ++ rest, .ok (.ofRecords told)⟩, now, [], [], ?_, ?_⟩
  · rw [advance, performed]
    dsimp only
    rw [map_add_zero]
  · constructor
    case world => rwa [List.append_nil]
    case collects => rwa [List.append_nil]
    case tells =>
      rw [List.map_nil, List.append_nil]
      refine .working ?_
      rw [expected, List.flatMap_cons, same, List.flatMap_append]
    case sublist => rw [List.nil_append, Worker.todo, List.flatMap_append, Worker.todo, List.flatMap_cons, todo]
    case proper => exact List.forall_mem_append.mpr ⟨fun next inside => (found next inside).1, properRest⟩

theorem exists_moved_of_execute (onlyTime : surroundings.OnlyTakesTime)
    (world : start.Executed executed now.world) (collects : now.stream.Collects collected)
    (item : HostRef × Check)
    (expected : portion.map (surroundings.recordOf? start.agent) = told.map some ++
      (surroundings.recordOf? start.agent item ::
        rest.flatMap (Step.expected surroundings start.agent delay)))
    (properRest : ∀ next ∈ rest, next.Proper start.agent) :
    ∃ worker after items records,
      advance surroundings
        (⟨delay, .execute item.1 (start.agent.hostName item.1) item.2 :: rest, .ok (.ofRecords told)⟩, now) =
          (worker, after) ∧
      Moved surroundings start portion executed collected told
        ⟨delay, .execute item.1 (start.agent.hostName item.1) item.2 :: rest, .ok (.ofRecords told)⟩ worker
        after items records := by
  obtain ⟨after, sameStream, waited, ⟨crashed, performed⟩ | ⟨record, recorded, performed⟩⟩ :=
    Collecting.execute_cases delay onlyTime world item
  · refine ⟨⟨delay, [], .error .crash⟩, after, [item], [], ?_, waited, ?_, ?_, ?_, ?_⟩
    · rw [advance, performed]
    · rwa [sameStream, List.append_nil]
    · rw [List.map_nil, List.append_nil]
      rw [Surroundings.recordOf?, if_pos crashed] at expected
      exact .crashed expected
    · exact List.sublist_append_left [item] (rest.flatMap (Step.todo start.agent delay))
    · exact fun next inside => absurd inside List.not_mem_nil
  · refine ⟨⟨delay, .collect record :: rest, .ok (.ofRecords told)⟩, after, [item], [], ?_, waited, ?_, ?_,
      List.Sublist.refl _, List.forall_mem_cons.mpr ⟨trivial, properRest⟩⟩
    · rw [advance, performed]
      dsimp only
      rw [map_add_zero, List.singleton_append]
    · rwa [sameStream, List.append_nil]
    · rw [List.map_nil, List.append_nil]
      rw [recorded] at expected
      exact .working expected

theorem exists_moved_of_collect (world : start.Executed executed now.world)
    (collects : now.stream.Collects collected) (record : Record)
    (expected : portion.map (surroundings.recordOf? start.agent) = told.map some ++
      (some record.timeless :: rest.flatMap (Step.expected surroundings start.agent delay)))
    (properRest : ∀ next ∈ rest, next.Proper start.agent) :
    ∃ worker after items records,
      advance surroundings (⟨delay, .collect record :: rest, .ok (.ofRecords told)⟩, now) = (worker, after) ∧
      Moved surroundings start portion executed collected told
        ⟨delay, .collect record :: rest, .ok (.ofRecords told)⟩ worker after items records := by
  obtain ⟨stream, appended, collectsAfter⟩ := collects.appendRecord record
  have counted : (Tally.ofRecords told).add (.one !record.failed) =
      .ofRecords (told ++ [record].map Record.timeless) := by
    rw [Tally.ofRecords_append, Tally.ofRecords_timeless, Tally.one_eq_ofRecords]
  refine ⟨⟨delay, rest, .ok (.ofRecords (told ++ [record].map Record.timeless))⟩, ⟨now.world, stream⟩, [],
    [record], ?_, ?_, collectsAfter, ?_, List.Sublist.refl _, properRest⟩
  · rw [advance, Step.perform, Collecting.collect, appended, ← counted]
    rfl
  · rwa [List.append_nil]
  · refine .working (expected.trans ?_)
    simp

/-- However a step of a worker ends, a crash takes nothing away. -/
theorem Tells.exists_moved
    (tells : Tells surroundings start.agent portion told ⟨delay, step :: rest, outcome⟩)
    (onlyTime : surroundings.OnlyTakesTime) (sound : start.agent.Sound)
    (world : start.Executed executed now.world) (collects : now.stream.Collects collected)
    (proper : ∀ next ∈ step :: rest, next.Proper start.agent)
    (apart : Apart (executed ++ step.todo start.agent delay)) :
    ∃ worker after items records,
      advance surroundings (⟨delay, step :: rest, outcome⟩, now) = (worker, after) ∧
      Moved surroundings start portion executed collected told ⟨delay, step :: rest, outcome⟩ worker after
        items records := by
  obtain ⟨properStep, properRest⟩ := List.forall_mem_cons.mp proper
  cases tells with
  | working expected =>
      cases step with
      | execute ref host check =>
          obtain ⟨rfl, _⟩ := properStep
          exact exists_moved_of_execute onlyTime world collects (ref, check) expected properRest
      | collect record => exact exists_moved_of_collect world collects record expected properRest
      | _ =>
          exact exists_moved_of_lookUp sound world collects expected trivial properStep properRest apart

end Worker

/-! ### Turns -/

namespace Crew

variable {surroundings : Surroundings} {start : World} {executed : List (HostRef × Check)}
  {collected : List Record} {crew : Crew}
  {ledger : List (List (HostRef × Check) × List Record)}

/-- A crew whose workers have told something of the checks of their units, which is what was
collected. -/
structure Recounts (surroundings : Surroundings) (start : World)
    (ledger : List (List (HostRef × Check) × List Record)) (executed : List (HostRef × Check))
    (collected : List Record) (crew : Crew) : Prop where
  world : start.Executed executed crew.collecting.world
  collects : crew.collecting.stream.Collects collected
  apart : Apart (executed ++ crew.todo start.agent)
  proper : ∀ worker ∈ crew.workers, ∀ step ∈ worker.steps, step.Proper start.agent
  tells : List.Forall₂ (fun entry => Worker.Tells surroundings start.agent entry.1 entry.2) ledger
    crew.workers
  told : (collected.map Record.timeless).Perm (ledger.flatMap (·.2))

theorem forall₂_split {α β : Type} {related : α → β → Prop} {all : List α} {before after : List β}
    {one : β} (each : List.Forall₂ related all (before ++ one :: after)) :
    ∃ front entry back, all = front ++ entry :: back ∧ List.Forall₂ related front before ∧
      related entry one ∧ List.Forall₂ related back after := by
  have first := List.forall₂_take_append all before (one :: after) each
  obtain ⟨entry, back, relates, later, same⟩ :=
    List.forall₂_cons_right_iff.mp (List.forall₂_drop_append all before (one :: after) each)
  refine ⟨all.take before.length, entry, back, ?_, first, relates, later⟩
  rw [← same, List.take_append_drop]

theorem perm_of_told {α : Type} {collected front told back : List α} (new : List α)
    (same : collected.Perm (front ++ (told ++ back))) :
    (collected ++ new).Perm (front ++ (told ++ new ++ back)) := by
  refine (same.append_right new).trans ?_
  rw [List.append_assoc, List.append_assoc, List.append_assoc]
  exact ((List.perm_append_comm).append_left told).append_left front

theorem Recounts.turn (recounts : Recounts surroundings start ledger executed collected crew)
    (onlyTime : surroundings.OnlyTakesTime) (sound : start.agent.Sound) (position : Nat) :
    ∃ ledger' executed' collected', ledger'.map Prod.fst = ledger.map Prod.fst ∧
      Recounts surroundings start ledger' executed' collected' (crew.turn surroundings position) := by
  by_cases inside : position < crew.workers.length
  · obtain ⟨before, worker, after, same, rfl⟩ := crew.workers_split inside
    obtain ⟨collecting, workers⟩ := crew
    dsimp only at same
    subst same
    obtain ⟨delay, steps, outcome⟩ := worker
    rw [turn_eq]
    cases steps with
    | nil => exact ⟨ledger, executed, collected, rfl, recounts⟩
    | cons step rest =>
        let asked : Worker := ⟨delay, step :: rest, outcome⟩
        have member : asked ∈ before ++ asked :: after := by simp
        obtain ⟨front, ⟨portion, told⟩, back, rfl, tellsBefore, tells, tellsAfter⟩ :=
          forall₂_split recounts.tells
        have apart := recounts.apart
        rw [todo_split] at apart
        have apartStep : Apart (executed ++ step.todo start.agent delay) := by
          have first := perm_of_taken executed (before.flatMap (Worker.todo start.agent))
            (step.todo start.agent delay) (Worker.todo start.agent ⟨delay, rest, outcome⟩)
            (after.flatMap (Worker.todo start.agent))
          exact (apart.of_perm first).left
        obtain ⟨worker, now, items, records, advanced, moved⟩ :=
          tells.exists_moved onlyTime sound recounts.world recounts.collects
            (recounts.proper asked member) apartStep
        rw [advanced]
        refine ⟨front ++ (portion, told ++ records.map Record.timeless) :: back, executed ++ items,
          collected ++ records, ?_, ?_⟩
        · simp
        · constructor
          case world => exact moved.world
          case collects => exact moved.collects
          case apart =>
            rw [todo_split]
            refine Apart.of_perm ?_ (perm_of_taken ..)
            refine apart.sublist (.append_left (.append_left (.append_right moved.sublist _) _) _)
          case proper => exact forall_mem_moved recounts.proper moved.proper
          case tells => exact List.rel_append tellsBefore (.cons moved.tells tellsAfter)
          case told =>
            have before := recounts.told
            rw [List.flatMap_append, List.flatMap_cons] at before ⊢
            rw [List.map_append]
            exact perm_of_told _ before
  · have idle : crew.turn surroundings position = crew := by
      have nobody : crew.workers[position]? = none := List.getElem?_eq_none (Nat.le_of_not_lt inside)
      rw [Crew.turn, nobody]
    rw [idle]
    exact ⟨ledger, executed, collected, rfl, recounts⟩

theorem Recounts.takeTurns (recounts : Recounts surroundings start ledger executed collected crew)
    (onlyTime : surroundings.OnlyTakesTime) (sound : start.agent.Sound) (turns : List Nat) :
    ∃ ledger' executed' collected', ledger'.map Prod.fst = ledger.map Prod.fst ∧
      Recounts surroundings start ledger' executed' collected' (crew.takeTurns surroundings turns) := by
  induction turns generalizing crew ledger executed collected with
  | nil => exact ⟨ledger, executed, collected, rfl, recounts⟩
  | cons position rest ih =>
      obtain ⟨_, _, _, samePortions, recounts⟩ := recounts.turn onlyTime sound position
      obtain ⟨ledger', executed', collected', same, recounts⟩ := ih recounts
      exact ⟨ledger', executed', collected', same.trans samePortions, recounts⟩

/-! ### Beginnings -/

theorem tells_ofUnit {agent : Agent} {delay : Nat} {scopes : List Coverage}
    {portions : List (List (HostRef × Check))}
    (covers : List.Forall₂ (Coverage.Covers agent delay) scopes portions) :
    List.Forall₂ (fun entry => Worker.Tells surroundings agent entry.1 entry.2)
      (portions.map fun portion => (portion, [])) ((scopes.map (UnitOfWork.mk delay)).map Worker.ofUnit) := by
  induction covers with
  | nil => exact .nil
  | @cons scope portion _ _ covers _ ih =>
      refine .cons (.working ?_) ih
      have other : ¬(Worker.Step.ofScope scope).IsCollect := by cases scope <;> exact id
      rw [List.flatMap_singleton, Worker.Step.expected_of_not_isCollect other, covers.todo_ofScope]
      rfl

variable {owner : ServerRef} {delay : Nat} {round : Round}

theorem recounts_ofRound (surroundings : Surroundings)
    (opened : Round.Opened start.agent delay owner round) (sound : start.agent.Sound) :
    Recounts surroundings start
      ((start.agent.settings.policy.portions start.agent owner delay).map fun portion => (portion, []))
      [] [] (ofRound start round) := by
  constructor
  case world => exact start.executed_refl
  case collects => exact opened.collects
  case apart =>
    rw [List.nil_append, todo_ofRound opened sound]
    exact sound.apart_allDue
  case proper => exact proper_ofRound opened sound
  case tells =>
    rw [ofRound, opened.remaining]
    exact tells_ofUnit (start.agent.settings.policy.covers_portions owner delay sound)
  case told => simp

/-! ### Ends -/

section Done

variable {agent : Agent} {workers : List Worker}

theorem flatMap_told
    (tells : List.Forall₂ (fun entry => Worker.Tells surroundings agent entry.1 entry.2) ledger workers)
    (done : ∀ worker ∈ workers, worker.steps = []) :
    ledger.flatMap (·.2) = ((ledger.map (·.1)).flatMap (surroundings.survivors agent)).map
      (surroundings.timelessRecordOf agent) := by
  induction tells with
  | nil => rfl
  | cons tells _ ih =>
      rw [List.forall_mem_cons] at done
      rw [List.flatMap_cons, List.map_cons, List.flatMap_cons, List.map_append, ih done.2,
        tells.eq_survivors done.1]

theorem outcomes_of_done
    (tells : List.Forall₂ (fun entry => Worker.Tells surroundings agent entry.1 entry.2) ledger workers)
    (done : ∀ worker ∈ workers, worker.steps = []) :
    (∀ worker ∈ workers, worker.outcome = .ok worker.tally ∨ worker.outcome = .error .crash) ∧
      Tally.total (workers.map Worker.tally) =
        surroundings.survivingTally agent (ledger.map (·.1)) := by
  induction tells with
  | nil => exact ⟨fun _ inside => absurd inside List.not_mem_nil, rfl⟩
  | @cons entry worker _ _ tells _ ih =>
      rw [List.forall_mem_cons] at done
      obtain ⟨faultless, total⟩ := ih done.2
      have outcome := tells.outcome_eq done.1
      rw [List.forall_mem_cons, List.map_cons, Tally.total_cons, total, Surroundings.survivingTally,
        Surroundings.survivingTally, List.map_cons, List.filter_cons]
      cases crashed : entry.1.any (surroundings.crashes agent) with
      | true =>
          rw [crashed, if_pos rfl] at outcome
          refine ⟨⟨.inr outcome, faultless⟩, ?_⟩
          rw [Worker.tally, outcome]
          exact Tally.zero_add _
      | false =>
          rw [crashed, if_neg Bool.false_ne_true] at outcome
          have tally : worker.tally = surroundings.tallyOf agent entry.1 := by
            rw [Worker.tally, outcome]
            rfl
          exact ⟨⟨.inl (tally ▸ outcome), faultless⟩, by rw [tally]; rfl⟩

end Done

/-- The records that were collected are those of some checks, in an order that depends on the
turns. -/
theorem exists_order {agent : Agent} {items : List (HostRef × Check)}
    (same : (collected.map Record.timeless).Perm (items.map (surroundings.timelessRecordOf agent))) :
    ∃ order, order.Perm items ∧ surroundings.Tells agent order collected := by
  have each : List.Forall₂ (fun record item => record = surroundings.timelessRecordOf agent item)
      (items.map (surroundings.timelessRecordOf agent)) items := by
    rw [List.forall₂_map_left_iff, List.forall₂_same]
    exact fun _ _ => rfl
  obtain ⟨order, tells, perm⟩ := List.perm_comp_forall₂ same each
  refine ⟨order, perm, ?_⟩
  rw [List.forall₂_map_left_iff] at tells
  refine tells.flip.imp fun item record same => ⟨record.clock, ?_⟩
  cases record
  simp only [Record.timeless, Surroundings.timelessRecordOf, Surroundings.recordOf,
    Record.mk.injEq] at same ⊢
  simp [same]

end Crew

/-! ### Rounds -/

namespace Round

variable {surroundings : Surroundings} {world : World} {owner : ServerRef} {delay : Nat} {round : Round}

/-- A round that has collected some records when all its units are done or have crashed. -/
structure Salvages (surroundings : Surroundings) (world : World) (owner : ServerRef) (delay : Nat)
    (records : List Record) (worked : World × Round) : Prop where
  server : worked.2.server = owner
  unitCount : worked.2.unitCount = (world.agent.settings.policy.portions world.agent owner delay).length
  addresses : world.agent.SameAddresses worked.1.agent
  contacts : worked.1.contacts = world.contacts
  /-- The records are those of the checks from before the first crash of each unit. -/
  order : ∃ order, surroundings.Tells world.agent order records ∧
    order.Perm ((world.agent.settings.policy.portions world.agent owner delay).flatMap
      (surroundings.survivors world.agent))
  collects : worked.2.stream.Collects records
  tally : worked.2.tally = surroundings.survivingTally world.agent
    (world.agent.settings.policy.portions world.agent owner delay)
  fault : worked.2.fault = none
  delay : worked.2.delay = delay

theorem Opened.salvages (opened : Opened world.agent delay owner round)
    (onlyTime : surroundings.OnlyTakesTime) (sound : world.agent.Sound) {turns : List Nat}
    (done : ((Crew.ofRound world round).takeTurns surroundings turns).IsDone) :
    ∃ records, Salvages surroundings world owner delay records
      (((Crew.ofRound world round).takeTurns surroundings turns).conclude round) := by
  obtain ⟨ledger, executed, records, samePortions, recounts⟩ :=
    (Crew.recounts_ofRound surroundings opened sound).takeTurns onlyTime sound turns
  have portions : ledger.map Prod.fst =
      world.agent.settings.policy.portions world.agent owner delay := by
    rw [samePortions, List.map_map]
    exact List.map_id _
  obtain ⟨faultless, total⟩ := Crew.outcomes_of_done recounts.tells done
  have told := recounts.told
  rw [Crew.flatMap_told recounts.tells done, portions] at told
  obtain ⟨order, perm, tells⟩ := Crew.exists_order told
  refine ⟨records, ?_⟩
  rw [Crew.conclude, Crew.foldl_count faultless, total, portions]
  constructor
  case server => exact opened.server
  case delay => exact opened.delay
  case unitCount =>
    refine opened.unitCount.trans ?_
    rw [WorkPolicy.plan, List.length_map]
    exact (world.agent.settings.policy.covers_portions owner delay sound).length_eq
  case addresses => exact .of_servers recounts.world.servers recounts.world.timeout
  case contacts => exact recounts.world.contacts
  case order => exact ⟨order, tells, perm⟩
  case collects => exact recounts.collects
  case tally =>
    dsimp only
    rw [opened.tally, Tally.zero_add]
  case fault => exact opened.fault

/-- What is in the directory does not matter for what is salvaged. -/
theorem Salvages.of_directory {directory : Collation.Directory} {records : List Record}
    {worked : World × Round}
    (salvages : Salvages surroundings { world with directory } owner delay records worked) :
    Salvages surroundings world owner delay records worked := { salvages with }

/-- The report on a round that has salvaged some records. -/
def reportOn (surroundings : Surroundings) (agent : Agent) (owner : ServerRef) (delay : Nat)
    (records : List Record) (ack : Option Acknowledgement) : Report :=
  let portions := agent.settings.policy.portions agent owner delay
  { server := agent.serverId owner
    delay
    units := portions.length
    tally := surroundings.survivingTally agent portions
    submitted := records.length
    ack }

/-- A round with some records comes to an end: nothing is sent if there are none, and otherwise
the frame of these records, once. -/
structure Ends (surroundings : Surroundings) (world : World) (owner : ServerRef) (delay : Nat)
    (records : List Record) (worked : World × Round) : Prop where
  frame : ∀ clock, worked.2.stream.finalized clock =
    .ok (Frame.encode (Submission.payload records clock))
  silent : records = [] →
    (worked.2.finish surroundings worked.1).world.contacts = world.contacts ∧
    (worked.2.finish surroundings worked.1).outcome =
      .ok (reportOn surroundings world.agent owner delay [] none)
  sent : records ≠ [] →
    let id := world.agent.serverId owner
    let frame := Frame.encode (Submission.payload records worked.1.clock.seconds)
    (worked.2.finish surroundings worked.1).world.contacts =
      world.contacts ++ [⟨id, (surroundings.peer id).sent frame⟩] ∧
    (worked.2.finish surroundings worked.1).outcome =
      (surroundings.saysTo id frame world.agent.timeout).map
        (reportOn surroundings world.agent owner delay records)

theorem Salvages.ends {records : List Record} {worked : World × Round}
    (salvages : Salvages surroundings world owner delay records worked) :
    Ends surroundings world owner delay records worked := by
  obtain ⟨now, round⟩ := worked
  have reported : ∀ {after : World} (ack), world.agent.SameAddresses after.agent →
      round.reportOf after ack = reportOn surroundings world.agent owner delay records ack := by
    intro after ack addresses
    rw [reportOf, salvages.server, salvages.delay, salvages.unitCount, salvages.tally,
      salvages.collects.counted, addresses.serverId]
    rfl
  constructor
  case frame => exact salvages.collects.finalized
  case silent =>
    rintro rfl
    have nothing : round.stream.resultCount = 0 := salvages.collects.counted
    rw [finish, salvages.fault]
    dsimp only
    rw [if_pos nothing, reported none salvages.addresses]
    exact ⟨salvages.contacts, rfl⟩
  case sent =>
    intro something
    have counted : round.stream.resultCount ≠ 0 := by
      rw [salvages.collects.counted]
      exact fun nothing => something (List.length_eq_zero_iff.mp nothing)
    obtain ⟨stream, completed, holds⟩ := salvages.collects.complete now.clock.seconds
    obtain ⟨after, left, submitted, contacts, addresses⟩ :=
      now.submit_of_holds surroundings owner now.agent.timeout holds
    rw [salvages.addresses.serverId, salvages.contacts] at contacts
    rw [salvages.addresses.serverId, salvages.addresses.timeout] at submitted
    have sameServer : round.server = owner := salvages.server
    dsimp only
    rw [finish, salvages.fault]
    dsimp only
    rw [if_neg counted, completed]
    dsimp only
    rw [sameServer, salvages.addresses.timeout, submitted]
    cases surroundings.saysTo (world.agent.serverId owner)
        (Frame.encode (Submission.payload records now.clock.seconds)) world.agent.timeout with
    | error fault => exact ⟨contacts, rfl⟩
    | ok ack =>
        exact ⟨contacts, congrArg Except.ok (reported ack (salvages.addresses.trans addresses))⟩

/-- Whatever checks fail or crash, and however the units of a round take turns: the frame has
the records of all checks that come before the first crash of their unit, the report counts
these records and what the units without a crash have counted, and the frame is sent if there
is a record at all. -/
theorem salvages_before_crashes (reachable : world.agent.Reachable)
    (onlyTime : surroundings.OnlyTakesTime) (owner : ServerRef) (delay : Nat) :
    ((world.agent.dueHosts owner delay).map world.agent.hostName).Pairwise (· < ·) ∧
    (∀ ref, ((world.agent.dueChecks ref delay).map (·.key)).Pairwise (· < ·)) ∧
    (surroundings.HasDirectory world.agent.settings →
      ∃ round opened, start surroundings world owner delay = .ok (round, opened)) ∧
    ∀ round opened, start surroundings world owner delay = .ok (round, opened) →
      (∀ early, ∃ late, ((Crew.ofRound opened round).takeTurns surroundings (early ++ late)).IsDone) ∧
      (surroundings.HasRoom world.agent.settings →
        (∀ turns, ((Crew.ofRound opened round).takeTurns surroundings turns).IsDone →
          ∃ records,
            Salvages surroundings world owner delay records
              (((Crew.ofRound opened round).takeTurns surroundings turns).conclude round) ∧
            Ends surroundings world owner delay records
              (((Crew.ofRound opened round).takeTurns surroundings turns).conclude round)) ∧
        ∃ records, Salvages surroundings world owner delay records (round.work surroundings opened) ∧
          Ends surroundings world owner delay records (round.work surroundings opened)) ∧
      run surroundings world owner delay =
        let worked := round.work surroundings opened
        ((worked.2.finish surroundings worked.1).outcome, (worked.2.finish surroundings worked.1).world) := by
  have sound := reachable.sound
  refine ⟨sound.dueHosts_ascending, fun ref => sound.dueChecks_ascending ref delay,
    fun directory => exists_start directory owner delay, ?_⟩
  intro round opened started
  refine ⟨?_, ?_, by rw [run, started]⟩
  · intro early
    obtain ⟨late, done⟩ :=
      ((Crew.ofRound opened round).takeTurns surroundings early).exists_turns_done
    exact ⟨late, by rwa [Crew.takeTurns_append]⟩
  · intro roomy
    have starts := starts_of_start started
    obtain ⟨directory, rfl⟩ := starts.changes
    let begun : World := { world with directory }
    have fresh : Opened begun.agent delay owner round := starts.opened roomy
    have ends : ∀ turns, ((Crew.ofRound begun round).takeTurns surroundings turns).IsDone →
        ∃ records,
          Salvages surroundings world owner delay records
            (((Crew.ofRound begun round).takeTurns surroundings turns).conclude round) ∧
          Ends surroundings world owner delay records
            (((Crew.ofRound begun round).takeTurns surroundings turns).conclude round) := by
      intro turns done
      obtain ⟨records, salvages⟩ := fresh.salvages onlyTime sound done
      exact ⟨records, salvages.of_directory, salvages.of_directory.ends⟩
    refine ⟨ends, ?_⟩
    obtain ⟨turns, _, done, worked⟩ : ∃ turns, _ ∧ _ ∧ _ = round.work surroundings begun :=
      Crew.exists_turns_work begun round
    rw [← worked]
    exact ends turns done

/-- Of three checks of one host the second crashes, and the other host is done. -/
theorem salvages_before_crash_of_one_host :
    let ordered := (((Agent.empty {}).perform
      (.registerServer { address := "a", hosts := [{ name := "h" }, { name := "i" }] })).perform
        (.applyOrders 0 [{ key := "a", delay := 60 }, { key := "k", delay := 60 },
          { key := "z", delay := 60 }] default)).perform
        (.applyOrders 1 [{ key := "k2", delay := 60 }] default)
    let surroundings : Surroundings :=
      { execute := fun _ check =>
          { meanwhile := [.setClock default]
            outcome :=
              if check.key = "k" then .crash
              else if check.key = "a" then .failure ["outer", "inner"]
              else .value "1" }
        peer := fun _ => .listening
          { answer := fun _ =>
              { reply := some
                  (Frame.encode (Json.writeObject [("response", Json.writeString "success")])) } }
        tracing := false
        newFile := fun _ directory => .ok { name := directory.spareName } }
    let world : World := { agent := ordered, clock := default }
    ∃ round opened records, start surroundings world 0 60 = .ok (round, opened) ∧
      Salvages surroundings world 0 60 records (round.work surroundings opened) ∧
      Ends surroundings world 0 60 records (round.work surroundings opened) ∧
      (run surroundings world 0 60).1.toOption.map
        (fun report => (report.units, report.tally, report.submitted)) = some (2, ⟨1, 0⟩, 2) := by
  intro ordered surroundings world
  have created : Agent.create { servers := [] } = .ok (Agent.empty {}) := rfl
  have reachable : ordered.Reachable := .perform (.perform (.perform (.create created) _) _) _
  have reachableNow : world.agent.Reachable := reachable
  have onlyTime : surroundings.OnlyTakesTime := by
    intro host check intervention inside
    exact ⟨default, List.mem_singleton.mp inside⟩
  obtain ⟨_, _, starts, all⟩ := salvages_before_crashes reachableNow onlyTime 0 60
  have directory : surroundings.HasDirectory world.agent.settings :=
    Surroundings.hasDirectory_of_spareName _ fun _ _ => rfl
  obtain ⟨round, opened, started⟩ := starts directory
  obtain ⟨_, salvaged, _⟩ := all round opened started
  obtain ⟨_, records, salvages, ends⟩ := salvaged directory.hasRoom
  exact ⟨round, opened, records, started, salvages, ends, by decide +kernel⟩

end Round

end CheckRounds
