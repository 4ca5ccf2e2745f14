import CheckRounds.Proofs.Round.Crew

namespace CheckRounds

/-! What a round has collected, however its units take turns.

While no execution of a check has side effects, each due check is executed once and leaves
one record, and no unit gets into the way of another.  So the policy and the turns only
settle in which order the records come, and the kind of collation does not matter at all.
-/

open Agent (Apart place)
open Collation (Directory Stream)

/-! ### Executions without side effects -/

namespace Surroundings

/-- Executing a check comes to an end, and nothing else happens meanwhile. -/
structure Still (surroundings : Surroundings) : Prop where
  ends : ∀ host check, (surroundings.execute host check).outcome ≠ .crash
  quiet : ∀ host check, (surroundings.execute host check).meanwhile = []

/-- A check after it was executed; only a value is kept. -/
def settled (surroundings : Surroundings) (host : String) (check : Check) (now : Instant) : Check :=
  match (surroundings.execute host check).outcome with
  | .value value => check.record value now
  | _ => check

end Surroundings

namespace World

/-- The record that a check leaves if it is executed while the clock stands still. -/
def recordOf (world : World) (surroundings : Surroundings) (item : HostRef × Check) : Record :=
  surroundings.recordOf (world.agent.hostName item.1) item.2 world.clock.seconds

/-- A check of a host after some checks were executed. -/
def checkAfter? (world : World) (surroundings : Surroundings) (items : List (HostRef × Check))
    (ref : HostRef) (key : String) : Option Check :=
  (world.agent.check? ref key).map fun check =>
    if (ref, check) ∈ items then
      surroundings.settled (world.agent.hostName ref) check world.clock
    else check

end World

/-! ### Counting -/

namespace Tally

/-- How many records there are, and how many of them are of failures. -/
def ofRecords (records : List Record) : Tally := ⟨records.length, records.countP (·.failed)⟩

def total (tallies : List Tally) : Tally := tallies.foldr add {}

theorem ofRecords_append (first second : List Record) :
    ofRecords (first ++ second) = (ofRecords first).add (ofRecords second) := by
  simp [ofRecords, add]

theorem ofRecords_of_perm {first second : List Record} (same : first.Perm second) :
    ofRecords first = ofRecords second := by
  rw [ofRecords, same.length_eq, same.countP_eq, ofRecords]

theorem ofRecords_recordOf (surroundings : Surroundings) (world : World)
    (items : List (HostRef × Check)) :
    ofRecords (items.map (world.recordOf surroundings)) =
      surroundings.tallyOf world.agent items := by
  simp only [ofRecords, Surroundings.tallyOf, List.length_map, List.countP_map]
  rfl

theorem add_comm (first second : Tally) : first.add second = second.add first := by
  simp [add, Nat.add_comm]

theorem one_eq_ofRecords (record : Record) : one (!record.failed) = ofRecords [record] := by
  cases failed : record.failed <;> simp [one, ofRecords, failed]

theorem total_cons (tally : Tally) (rest : List Tally) :
    total (tally :: rest) = tally.add (total rest) := rfl

/-- What one of several has counted besides can be added in the end. -/
theorem total_grown (before after : List Tally) (tally more : Tally) :
    total (before ++ tally.add more :: after) = (total (before ++ tally :: after)).add more := by
  induction before with
  | nil =>
      rw [List.nil_append, List.nil_append, total_cons, total_cons, add_assoc, add_assoc,
        add_comm more]
  | cons first rest ih =>
      rw [List.cons_append, List.cons_append, total_cons, total_cons, ih, add_assoc]

end Tally

/-! ### What there is to do -/

namespace Worker

/-- The checks that are still to be executed because of a step. -/
def Step.todo (agent : Agent) (delay : Nat) : Step → List (HostRef × Check)
  | .findHosts server => agent.allDue server delay
  | .findChecks ref => agent.dueItems delay ref
  | .findCheck ref key => ((agent.check? ref key).map fun check => (ref, check)).toList
  | .execute ref _ check => [(ref, check)]
  | .collect _ => []

/-- The records that are still to be collected because of a step. -/
def Step.pending (surroundings : Surroundings) (start : World) (delay : Nat) : Step → List Record
  | .collect record => [record]
  | step => (step.todo start.agent delay).map (start.recordOf surroundings)

/-- A step that only finds out what there is to do. -/
def Step.LooksUp : Step → Prop
  | .findHosts _ => True
  | .findChecks _ => True
  | .findCheck _ _ => True
  | _ => False

def Step.IsCollect : Step → Prop
  | .collect _ => True
  | _ => False

theorem Step.pending_of_not_isCollect {step : Step} (other : ¬step.IsCollect)
    (surroundings : Surroundings) (start : World) (delay : Nat) :
    step.pending surroundings start delay =
      (step.todo start.agent delay).map (start.recordOf surroundings) := by
  cases step with
  | collect record => exact absurd trivial other
  | _ => rfl

theorem Step.LooksUp.not_isCollect {step : Step} (looks : step.LooksUp) : ¬step.IsCollect := by
  cases step with
  | collect record => exact fun _ => looks
  | _ => exact id

/-- A step that speaks of checks as they are. -/
def Step.Proper (agent : Agent) : Step → Prop
  | .findCheck ref key => ∃ check, agent.check? ref key = some check ∧ check.key = key
  | .execute ref host check =>
      host = agent.hostName ref ∧ agent.check? ref check.key = some check
  | _ => True

def todo (agent : Agent) (worker : Worker) : List (HostRef × Check) :=
  worker.steps.flatMap (Step.todo agent worker.delay)

def pending (surroundings : Surroundings) (start : World) (worker : Worker) : List Record :=
  worker.steps.flatMap (Step.pending surroundings start worker.delay)

def tally (worker : Worker) : Tally := worker.outcome.toOption.getD {}

end Worker

/-! ### Steps -/

namespace Collecting

variable {surroundings : Surroundings} {start : World} {done executed : List (HostRef × Check)}
  {collected : List Record} {now : Collecting} {delay : Nat}

/-- What is shared after some checks were executed and some records collected. -/
structure Stands (surroundings : Surroundings) (start : World) (executed : List (HostRef × Check))
    (collected : List Record) (now : Collecting) : Prop where
  world : start.Executed executed now.world
  clock : now.world.clock = start.clock
  settled : ∀ item ∈ executed, now.world.agent.check? item.1 item.2.key =
    some (surroundings.settled (start.agent.hostName item.1) item.2 start.clock)
  collects : now.stream.Collects collected

/-- What comes of a step: nothing gets lost, and nothing is done or counted twice. -/
structure Advances (surroundings : Surroundings) (start : World)
    (executed : List (HostRef × Check)) (collected : List Record) (delay : Nat)
    (step : Worker.Step) (more : List Worker.Step) (tally : Tally) (after : Collecting)
    (items : List (HostRef × Check)) (records : List Record) : Prop where
  stands : Stands surroundings start (executed ++ items) (collected ++ records) after
  todo : step.todo start.agent delay = items ++ more.flatMap (Worker.Step.todo start.agent delay)
  pending : step.pending surroundings start delay =
    records ++ more.flatMap (Worker.Step.pending surroundings start delay)
  tally : tally = Tally.ofRecords records
  proper : ∀ next ∈ more, next.Proper start.agent

section Moved

variable {step : Worker.Step} {more : List Worker.Step} {tally : Tally} {after : Collecting}
  {items : List (HostRef × Check)} {records : List Record}

theorem Advances.todo_moved
    (advances : Advances surroundings start executed collected delay step more tally after items records)
    (rest : List Worker.Step) (outcome moved : Except Stop Tally) :
    Worker.todo start.agent ⟨delay, step :: rest, outcome⟩ =
      items ++ Worker.todo start.agent ⟨delay, more ++ rest, moved⟩ := by
  rw [Worker.todo, List.flatMap_cons, advances.todo, Worker.todo, List.flatMap_append,
    List.append_assoc]

theorem Advances.pending_moved
    (advances : Advances surroundings start executed collected delay step more tally after items records)
    (rest : List Worker.Step) (outcome moved : Except Stop Tally) :
    Worker.pending surroundings start ⟨delay, step :: rest, outcome⟩ =
      records ++ Worker.pending surroundings start ⟨delay, more ++ rest, moved⟩ := by
  rw [Worker.pending, List.flatMap_cons, advances.pending, Worker.pending, List.flatMap_append,
    List.append_assoc]

end Moved

/-- What is found is what there was to do at the start. -/
theorem lookUp (executed : start.Executed done now.world) (sound : start.agent.Sound)
    {step : Worker.Step} (looks : step.LooksUp) (proper : step.Proper start.agent)
    (apart : Apart (done ++ step.todo start.agent delay)) :
    ∃ more, step.perform surroundings delay now = (.ok (more, {}), now) ∧
      step.todo start.agent delay = more.flatMap (Worker.Step.todo start.agent delay) ∧
      ∀ next ∈ more, next.Proper start.agent ∧ ¬next.IsCollect := by
  cases step with
  | findHosts server =>
      refine ⟨(start.agent.dueHosts server delay).map .findChecks, ?_, ?_, ?_⟩
      · rw [Worker.Step.perform, executed.dueHosts_eq]
      · rw [List.flatMap_map]
        rfl
      · exact List.forall_mem_map.mpr fun ref _ => ⟨trivial, id⟩
  | findChecks ref =>
      let host := start.agent.hostName ref
      refine ⟨(start.agent.dueChecks ref delay).map (.execute ref host), ?_, ?_, ?_⟩
      · -- none of these checks has been executed, so none of them has changed since the start
        have due := executed.dueChecks_eq sound fun _ inside => apart.fresh inside
        rw [Worker.Step.perform, executed.hostName, due]
      · rw [List.flatMap_map]
        exact List.map_eq_flatMap
      · refine List.forall_mem_map.mpr fun check due => ⟨⟨rfl, ?_⟩, id⟩
        have item : (ref, check) ∈ start.agent.dueItems delay ref := List.mem_map_of_mem due
        exact sound.check?_of_mem_dueItems item
  | findCheck ref key =>
      obtain ⟨check, found, rfl⟩ := proper
      have todo : Worker.Step.todo start.agent delay (.findCheck ref check.key) = [(ref, check)] := by
        rw [Worker.Step.todo, found]
        rfl
      rw [todo] at apart
      have foundNow : now.world.agent.check? ref check.key = some check :=
        (executed.check? ref check.key (apart.fresh List.mem_cons_self)).trans found
      refine ⟨[.execute ref (start.agent.hostName ref) check], ?_, todo, ?_⟩
      · rw [Worker.Step.perform, executed.hostName, foundNow]
        rfl
      · exact List.forall_mem_singleton.mpr ⟨⟨rfl, found⟩, id⟩
  | execute ref host check => exact looks.elim
  | collect record => exact looks.elim

theorem Stands.lookUp (stands : Stands surroundings start executed collected now)
    (sound : start.agent.Sound) {step : Worker.Step} (looks : step.LooksUp)
    (proper : step.Proper start.agent) (apart : Apart (executed ++ step.todo start.agent delay)) :
    ∃ more, step.perform surroundings delay now = (.ok (more, {}), now) ∧
      Advances surroundings start executed collected delay step more {} now [] [] := by
  obtain ⟨more, performed, todo, found⟩ := Collecting.lookUp stands.world sound looks proper apart
  refine ⟨more, performed, ?_, todo, ?_, rfl, fun next inside => (found next inside).1⟩
  · rwa [List.append_nil, List.append_nil]
  · rw [Worker.Step.pending_of_not_isCollect looks.not_isCollect, todo, List.map_flatMap,
      List.nil_append]
    exact List.flatMap_congr fun next inside =>
      (Worker.Step.pending_of_not_isCollect (found next inside).2 surroundings start delay).symm

theorem Stands.check? (stands : Stands surroundings start executed collected now) {ref : HostRef}
    {check : Check} (found : start.agent.check? ref check.key = some check)
    (fresh : place (ref, check) ∉ executed.map place) :
    now.world.agent.check? ref check.key = some check :=
  (stands.world.check? ref check.key fresh).trans found

/-- The value of a check is kept, and its record is still to be collected. -/
theorem Stands.execute (stands : Stands surroundings start executed collected now)
    (still : surroundings.Still) {ref : HostRef} {check : Check}
    (found : start.agent.check? ref check.key = some check)
    (fresh : place (ref, check) ∉ executed.map place) :
    ∃ after, Worker.Step.perform surroundings delay now
        (.execute ref (start.agent.hostName ref) check) =
          (.ok ([.collect (start.recordOf surroundings (ref, check))], {}), after) ∧
      Stands surroundings start (executed ++ [(ref, check)]) collected after := by
  have ends := still.ends (start.agent.hostName ref) check
  have quiet := still.quiet (start.agent.hostName ref) check
  have foundNow := stands.check? found fresh
  have stays : now.world.interveneAll [] = now.world := rfl
  unfold Worker.Step.perform World.recordOf Surroundings.recordOf Surroundings.result
    Surroundings.fails
  dsimp only
  rw [quiet, stays, ← stands.clock]
  cases outcome : (surroundings.execute (start.agent.hostName ref) check).outcome with
  | crash => exact absurd outcome ends
  | value value =>
      refine ⟨_, rfl, stands.world.keepValue (ref, check) value now.world.clock, stands.clock, ?_,
        stands.collects⟩
      intro item inside
      rcases List.mem_append.mp inside with before | same
      · have different : place item ≠ place (ref, check) :=
          fun same => fresh (same ▸ List.mem_map_of_mem before)
        exact (Agent.check?_keepValue value now.world.clock different).trans
          (stands.settled item before)
      · rw [List.mem_singleton.mp same, Surroundings.settled, outcome, ← stands.clock]
        refine (Agent.check?_keepValue_self value now.world.clock).trans ?_
        rw [foundNow]
        rfl
  | failure causes =>
      refine ⟨now, rfl, stands.world.append [(ref, check)], stands.clock, ?_, stands.collects⟩
      intro item inside
      rcases List.mem_append.mp inside with before | same
      · exact stands.settled item before
      · rw [List.mem_singleton.mp same, Surroundings.settled, outcome]
        exact foundNow

theorem Stands.collect (stands : Stands surroundings start executed collected now)
    (record : Record) :
    ∃ after, Worker.Step.perform surroundings delay now (.collect record) =
        (.ok ([], .ofRecords [record]), after) ∧
      Stands surroundings start executed (collected ++ [record]) after := by
  obtain ⟨stream, appended, collects⟩ := stands.collects.appendRecord record
  refine ⟨⟨now.world, stream⟩, ?_, stands.world, stands.clock, stands.settled, collects⟩
  rw [Worker.Step.perform, Collecting.collect, appended, ← Tally.one_eq_ofRecords]

theorem Stands.perform (stands : Stands surroundings start executed collected now)
    (still : surroundings.Still) (sound : start.agent.Sound) {step : Worker.Step}
    (proper : step.Proper start.agent) (apart : Apart (executed ++ step.todo start.agent delay)) :
    ∃ more tally after items records,
      step.perform surroundings delay now = (.ok (more, tally), after) ∧
      Advances surroundings start executed collected delay step more tally after items records := by
  have looksUp : step.LooksUp → ∃ more tally after items records,
      step.perform surroundings delay now = (.ok (more, tally), after) ∧
      Advances surroundings start executed collected delay step more tally after items records := by
    intro looks
    obtain ⟨more, performed, advances⟩ := stands.lookUp sound looks proper apart
    exact ⟨more, {}, now, [], [], performed, advances⟩
  cases step with
  | findHosts server => exact looksUp trivial
  | findChecks ref => exact looksUp trivial
  | findCheck ref key => exact looksUp trivial
  | execute ref host check =>
      obtain ⟨rfl, found⟩ := proper
      obtain ⟨after, performed, standsAfter⟩ :=
        stands.execute still found (apart.fresh List.mem_cons_self)
      refine ⟨_, _, after, [(ref, check)], [], performed, ?_, rfl, rfl, rfl, ?_⟩
      · rwa [List.append_nil]
      · exact List.forall_mem_singleton.mpr trivial
  | collect record =>
      obtain ⟨after, performed, standsAfter⟩ := stands.collect record
      refine ⟨_, _, after, [], [record], performed, ?_, rfl, rfl, rfl, ?_⟩
      · rwa [List.append_nil]
      · exact fun next inside => absurd inside List.not_mem_nil

end Collecting

/-! ### Turns -/

namespace Crew

variable {surroundings : Surroundings} {start : World} {items executed : List (HostRef × Check)}
  {records collected : List Record} {crew : Crew}

def todo (agent : Agent) (crew : Crew) : List (HostRef × Check) :=
  crew.workers.flatMap (Worker.todo agent)

def pending (surroundings : Surroundings) (start : World) (crew : Crew) : List Record :=
  crew.workers.flatMap (Worker.pending surroundings start)

/-- A crew that was to execute some checks and to collect their records, when some of this
is done. -/
structure Underway (surroundings : Surroundings) (start : World) (items : List (HostRef × Check))
    (records : List Record) (executed : List (HostRef × Check)) (collected : List Record)
    (crew : Crew) : Prop where
  stands : crew.collecting.Stands surroundings start executed collected
  todo : (executed ++ crew.todo start.agent).Perm items
  pending : (collected ++ crew.pending surroundings start).Perm records
  proper : ∀ worker ∈ crew.workers, ∀ step ∈ worker.steps, step.Proper start.agent
  outcome : ∀ worker ∈ crew.workers, worker.outcome = .ok worker.tally
  tally : Tally.total (crew.workers.map Worker.tally) = Tally.ofRecords collected

theorem workers_split {position : Nat} (crew : Crew) (inside : position < crew.workers.length) :
    ∃ before worker after, crew.workers = before ++ worker :: after ∧ before.length = position := by
  refine ⟨crew.workers.take position, crew.workers[position], crew.workers.drop (position + 1), ?_, ?_⟩
  · rw [← List.drop_eq_getElem_cons inside, List.take_append_drop]
  · rw [List.length_take, Nat.min_eq_left (Nat.le_of_lt inside)]

/-- Something that is done first need not be the first thing that was to be done. -/
theorem perm_of_taken {α : Type} (done front new left back : List α) :
    (done ++ new ++ (front ++ (left ++ back))).Perm (done ++ (front ++ (new ++ left ++ back))) := by
  rw [List.append_assoc, List.append_assoc new]
  exact (List.perm_append_comm_assoc new front (left ++ back)).append_left done

theorem forall_mem_moved {α : Type} {good : α → Prop} {before after : List α} {first moved : α}
    (all : ∀ one ∈ before ++ first :: after, good one) (next : good moved) :
    ∀ one ∈ before ++ moved :: after, good one := by
  rw [List.forall_mem_append, List.forall_mem_cons] at all ⊢
  exact ⟨all.1, next, all.2.2⟩

theorem todo_split (agent : Agent) (collecting : Collecting) (before : List Worker) (worker : Worker)
    (after : List Worker) : todo agent ⟨collecting, before ++ worker :: after⟩ =
      before.flatMap (Worker.todo agent) ++ (worker.todo agent ++ after.flatMap (Worker.todo agent)) := by
  rw [todo, List.flatMap_append, List.flatMap_cons]

theorem pending_split (collecting : Collecting) (before : List Worker) (worker : Worker)
    (after : List Worker) : pending surroundings start ⟨collecting, before ++ worker :: after⟩ =
      before.flatMap (Worker.pending surroundings start) ++
        (worker.pending surroundings start ++ after.flatMap (Worker.pending surroundings start)) := by
  rw [pending, List.flatMap_append, List.flatMap_cons]

theorem pending_of_done {workers : List Worker} (done : ∀ worker ∈ workers, worker.steps = []) :
    workers.flatMap (Worker.pending surroundings start) = [] := by
  rw [List.flatMap_eq_nil_iff]
  intro worker inside
  rw [Worker.pending, done worker inside, List.flatMap_nil]

theorem todo_of_done {workers : List Worker} (done : ∀ worker ∈ workers, worker.steps = [])
    (agent : Agent) : workers.flatMap (Worker.todo agent) = [] := by
  rw [List.flatMap_eq_nil_iff]
  intro worker inside
  rw [Worker.todo, done worker inside, List.flatMap_nil]

/-- A step of one worker keeps all in order.  If those in front are done, the records that are
collected come before all that are pending. -/
theorem Underway.step {before after : List Worker} {delay : Nat} {step : Worker.Step}
    {rest : List Worker.Step} {outcome : Except Stop Tally} {collecting : Collecting}
    (underway : Underway surroundings start items records executed collected
      ⟨collecting, before ++ ⟨delay, step :: rest, outcome⟩ :: after⟩)
    (still : surroundings.Still) (sound : start.agent.Sound) (apart : Apart items) :
    ∃ worker collecting' executed' collected',
      Worker.advance surroundings (⟨delay, step :: rest, outcome⟩, collecting) =
        (worker, collecting') ∧
      Underway surroundings start items records executed' collected'
        ⟨collecting', before ++ worker :: after⟩ ∧
      ((∀ worker ∈ before, worker.steps = []) →
        collected' ++ Crew.pending surroundings start ⟨collecting', before ++ worker :: after⟩ =
          collected ++ Crew.pending surroundings start
            ⟨collecting, before ++ ⟨delay, step :: rest, outcome⟩ :: after⟩) := by
  let asked : Worker := ⟨delay, step :: rest, outcome⟩
  have member : asked ∈ before ++ asked :: after := by simp
  have counted : outcome = .ok asked.tally := underway.outcome asked member
  have todoBefore := underway.todo
  rw [todo_split] at todoBefore
  have pendingBefore := underway.pending
  rw [pending_split] at pendingBefore
  -- whatever the others still have to do, this step is about checks that nobody has executed
  have apartStep : Apart (executed ++ step.todo start.agent delay) := by
    have first := perm_of_taken executed (before.flatMap (Worker.todo start.agent))
      (step.todo start.agent delay) (Worker.todo start.agent ⟨delay, rest, outcome⟩)
      (after.flatMap (Worker.todo start.agent))
    exact (apart.of_perm (first.trans todoBefore)).left
  obtain ⟨more, tally, collecting', newItems, newRecords, performed, advances⟩ :=
    underway.stands.perform still sound (underway.proper asked member step List.mem_cons_self) apartStep
  let moved : Worker := ⟨delay, more ++ rest, outcome.map (·.add tally)⟩
  have todo : asked.todo start.agent = newItems ++ moved.todo start.agent :=
    advances.todo_moved rest outcome moved.outcome
  have pending : asked.pending surroundings start = newRecords ++ moved.pending surroundings start :=
    advances.pending_moved rest outcome moved.outcome
  have movedOutcome : moved.outcome = .ok (asked.tally.add tally) :=
    congrArg (Except.map fun before => before.add tally) counted
  have movedTally : moved.tally = asked.tally.add tally := by
    rw [Worker.tally, movedOutcome]
    rfl
  refine ⟨moved, collecting', executed ++ newItems, collected ++ newRecords, ?_, ?_, ?_⟩
  · rw [Worker.advance, performed]
  · constructor
    case stands => exact advances.stands
    case todo =>
      rw [todo] at todoBefore
      rw [todo_split]
      exact (perm_of_taken ..).trans todoBefore
    case pending =>
      rw [pending] at pendingBefore
      rw [pending_split]
      exact (perm_of_taken ..).trans pendingBefore
    case proper =>
      refine forall_mem_moved underway.proper fun next listed => ?_
      rcases List.mem_append.mp listed with new | old
      · exact advances.proper next new
      · exact underway.proper asked member next (List.mem_cons_of_mem _ old)
    case outcome =>
      refine forall_mem_moved underway.outcome ?_
      rw [movedTally, movedOutcome]
    case tally =>
      have total := underway.tally
      rw [List.map_append, List.map_cons] at total ⊢
      rw [movedTally, Tally.total_grown, total, advances.tally, Tally.ofRecords_append]
  · intro done
    rw [pending_split, pending_split, pending_of_done done, List.nil_append, List.nil_append, pending,
      List.append_assoc, List.append_assoc]

theorem Underway.turn (underway : Underway surroundings start items records executed collected crew)
    (still : surroundings.Still) (sound : start.agent.Sound) (apart : Apart items) (position : Nat) :
    ∃ executed' collected', Underway surroundings start items records executed' collected'
        (crew.turn surroundings position) ∧
      ((∀ worker ∈ crew.workers.take position, worker.steps = []) →
        collected' ++ (crew.turn surroundings position).pending surroundings start =
          collected ++ crew.pending surroundings start) := by
  by_cases inside : position < crew.workers.length
  · obtain ⟨before, worker, after, same, rfl⟩ := crew.workers_split inside
    obtain ⟨collecting, workers⟩ := crew
    dsimp only at same
    subst same
    obtain ⟨delay, steps, outcome⟩ := worker
    rw [turn_eq]
    dsimp only
    rw [List.take_left]
    cases steps with
    | nil => exact ⟨executed, collected, underway, fun _ => rfl⟩
    | cons step rest =>
        obtain ⟨worker, collecting', executed', collected', advanced, underway, inOrder⟩ :=
          underway.step still sound apart
        rw [advanced]
        exact ⟨executed', collected', underway, inOrder⟩
  · have idle : crew.turn surroundings position = crew := by
      have nobody : crew.workers[position]? = none := List.getElem?_eq_none (Nat.le_of_not_lt inside)
      rw [Crew.turn, nobody]
    rw [idle]
    exact ⟨executed, collected, underway, fun _ => rfl⟩

theorem Underway.takeTurns
    (underway : Underway surroundings start items records executed collected crew)
    (still : surroundings.Still) (sound : start.agent.Sound) (apart : Apart items)
    (turns : List Nat) :
    ∃ executed' collected', Underway surroundings start items records executed' collected'
        (crew.takeTurns surroundings turns) ∧
      (crew.InOrder surroundings turns →
        collected' ++ (crew.takeTurns surroundings turns).pending surroundings start =
          collected ++ crew.pending surroundings start) := by
  induction turns generalizing crew executed collected with
  | nil => exact ⟨executed, collected, underway, fun _ => rfl⟩
  | cons position rest ih =>
      obtain ⟨middleExecuted, middle, underway, first⟩ := underway.turn still sound apart position
      obtain ⟨executed', collected', underway, others⟩ := ih underway
      exact ⟨executed', collected', underway, fun inOrder => (others inOrder.2).trans (first inOrder.1)⟩

/-! ### Ends -/

theorem Underway.executed_perm (underway : Underway surroundings start items records executed collected crew)
    (done : crew.IsDone) : executed.Perm items := by
  have all := underway.todo
  rwa [Crew.todo, todo_of_done done, List.append_nil] at all

theorem Underway.collected_perm
    (underway : Underway surroundings start items records executed collected crew)
    (done : crew.IsDone) : collected.Perm records := by
  have all := underway.pending
  rwa [Crew.pending, pending_of_done done, List.append_nil] at all

/-- The checks that were to be executed have their values, and all others are as before. -/
theorem Underway.check?_eq
    (underway : Underway surroundings start items records executed collected crew)
    (done : crew.IsDone) (sound : start.agent.Sound)
    (present : ∀ item ∈ items, start.agent.check? item.1 item.2.key = some item.2)
    (ref : HostRef) (key : String) :
    crew.collecting.world.agent.check? ref key = start.checkAfter? surroundings items ref key := by
  have same := underway.executed_perm done
  have otherwise : (∀ check, start.agent.check? ref key = some check → (ref, check) ∉ items) →
      crew.collecting.world.agent.check? ref key = start.agent.check? ref key := by
    intro untouched
    refine underway.stands.world.check? ref key fun inside => ?_
    obtain ⟨⟨ref', check⟩, done, placed⟩ := List.mem_map.mp inside
    cases placed
    have listed := same.mem_iff.mp done
    exact untouched check (present _ listed) listed
  rw [World.checkAfter?]
  cases found : start.agent.check? ref key with
  | none =>
      rw [otherwise fun check foundToo => by simp [found] at foundToo, found]
      rfl
  | some check =>
      rw [Option.map_some]
      by_cases listed : (ref, check) ∈ items
      · have keyed : check.key = key := by
          rw [Agent.check?_eq] at found
          exact sound.keyed_host ref key check found
        have settled := underway.stands.settled (ref, check) (same.mem_iff.mpr listed)
        rw [if_pos listed, ← settled, keyed]
      · rw [if_neg listed, ← found]
        refine otherwise fun other foundToo => ?_
        rw [found, Option.some.injEq] at foundToo
        rwa [← foundToo]

/-- Workers that have crashed count for nothing. -/
theorem foldl_count {workers : List Worker}
    (faultless : ∀ worker ∈ workers,
      worker.outcome = .ok worker.tally ∨ worker.outcome = .error .crash) (round : Round) :
    (workers.map (·.outcome)).foldl Round.count round =
      { round with tally := round.tally.add (Tally.total (workers.map Worker.tally)) } := by
  induction workers generalizing round with
  | nil => rw [List.map_nil, List.map_nil, List.foldl_nil, Tally.total, List.foldr_nil, Tally.add_zero]
  | cons worker rest ih =>
      rw [List.map_cons, List.foldl_cons, ih fun other inside => faultless other (List.mem_cons_of_mem _ inside),
        List.map_cons, Tally.total_cons]
      rcases faultless worker List.mem_cons_self with counted | crashed
      · rw [counted, Round.count, Tally.add_assoc]
      · have nothing : worker.tally = {} := by
          rw [Worker.tally, crashed]
          rfl
        rw [crashed, Round.count, nothing, Tally.zero_add]

end Crew

/-! ### Beginnings -/

theorem Coverage.Covers.todo_ofScope {agent : Agent} {delay : Nat} {scope : Coverage}
    {portion : List (HostRef × Check)} (covers : scope.Covers agent delay portion) :
    (Worker.Step.ofScope scope).todo agent delay = portion := by
  cases covers with
  | server ref => rfl
  | host ref => rfl
  | check found =>
      rw [Worker.Step.ofScope, Worker.Step.todo, found]
      rfl

theorem Coverage.Covers.proper_ofScope {agent : Agent} {delay : Nat} {scope : Coverage}
    {portion : List (HostRef × Check)} (covers : scope.Covers agent delay portion) :
    (Worker.Step.ofScope scope).Proper agent := by
  cases covers with
  | server ref => trivial
  | host ref => trivial
  | @check item found => exact ⟨item.2, found, rfl⟩

theorem Worker.todo_ofUnit (agent : Agent) (work : UnitOfWork) :
    (ofUnit work).todo agent = (Step.ofScope work.scope).todo agent work.delay :=
  List.flatMap_singleton ..

theorem Worker.pending_ofUnit (surroundings : Surroundings) (start : World) (work : UnitOfWork) :
    (ofUnit work).pending surroundings start =
      ((ofUnit work).todo start.agent).map (start.recordOf surroundings) := by
  rw [todo_ofUnit, pending, ofUnit, List.flatMap_singleton]
  cases work.scope <;> rfl

namespace Crew

variable {surroundings : Surroundings} {start : World} {owner : ServerRef} {delay : Nat}

theorem flatMap_todo_ofUnit {agent : Agent} {scopes : List Coverage}
    {portions : List (List (HostRef × Check))}
    (covers : List.Forall₂ (Coverage.Covers agent delay) scopes portions) :
    ((scopes.map (UnitOfWork.mk delay)).map Worker.ofUnit).flatMap (Worker.todo agent) =
      portions.flatten := by
  induction covers with
  | nil => rfl
  | cons covers _ ih =>
      rw [List.map_cons, List.map_cons, List.flatMap_cons, ih, Worker.todo_ofUnit,
        covers.todo_ofScope, List.flatten_cons]

theorem proper_ofUnit {agent : Agent} {scopes : List Coverage}
    {portions : List (List (HostRef × Check))}
    (covers : List.Forall₂ (Coverage.Covers agent delay) scopes portions) :
    ∀ work ∈ scopes.map (UnitOfWork.mk delay), ∀ step ∈ (Worker.ofUnit work).steps,
      step.Proper agent := by
  induction covers with
  | nil => exact fun _ inside => absurd inside List.not_mem_nil
  | cons covers _ ih =>
      intro work inside step listed
      rcases List.mem_cons.mp inside with rfl | later
      · rw [List.mem_singleton.mp listed]
        exact covers.proper_ofScope
      · exact ih work later step listed

theorem total_ofUnit (works : List UnitOfWork) :
    Tally.total ((works.map Worker.ofUnit).map Worker.tally) = {} := by
  induction works with
  | nil => rfl
  | cons work rest ih =>
      rw [List.map_cons, List.map_cons, Tally.total_cons, ih, Tally.add_zero]
      rfl

variable {round : Round}

theorem todo_ofRound (opened : Round.Opened start.agent delay owner round)
    (sound : start.agent.Sound) :
    (ofRound start round).todo start.agent = start.agent.allDue owner delay := by
  obtain ⟨portions, covers, all⟩ := start.agent.settings.policy.covers_scopes owner delay sound
  rw [Crew.todo, ofRound, opened.remaining, WorkPolicy.plan, ← all]
  exact flatMap_todo_ofUnit covers

theorem pending_ofRound (surroundings : Surroundings) (start : World) (round : Round) :
    (ofRound start round).pending surroundings start =
      ((ofRound start round).todo start.agent).map (start.recordOf surroundings) := by
  rw [Crew.todo, Crew.pending, List.map_flatMap, ofRound, List.flatMap_map, List.flatMap_map]
  exact List.flatMap_congr fun work _ => Worker.pending_ofUnit surroundings start work

theorem proper_ofRound (opened : Round.Opened start.agent delay owner round)
    (sound : start.agent.Sound) :
    ∀ worker ∈ (ofRound start round).workers, ∀ step ∈ worker.steps, step.Proper start.agent := by
  intro worker inside
  obtain ⟨work, listed, rfl⟩ := List.mem_map.mp inside
  obtain ⟨_, covers, _⟩ := start.agent.settings.policy.covers_scopes owner delay sound
  rw [opened.remaining] at listed
  exact proper_ofUnit covers work listed

/-- A crew that begins a round has to execute what is due on the server. -/
theorem underway_ofRound (surroundings : Surroundings)
    (opened : Round.Opened start.agent delay owner round) (sound : start.agent.Sound) :
    Underway surroundings start (start.agent.allDue owner delay)
      ((start.agent.allDue owner delay).map (start.recordOf surroundings)) [] []
      (ofRound start round) := by
  constructor
  case stands =>
    exact ⟨start.executed_refl, rfl, fun _ inside => absurd inside List.not_mem_nil, opened.collects⟩
  case todo => rw [List.nil_append, todo_ofRound opened sound]
  case pending => rw [List.nil_append, pending_ofRound, todo_ofRound opened sound]
  case proper => exact proper_ofRound opened sound
  case outcome =>
    intro worker inside
    obtain ⟨work, _, rfl⟩ := List.mem_map.mp inside
    rfl
  case tally => exact total_ofUnit round.remaining

end Crew

/-! ### Rounds -/

/-- The world if a round were done under some settings. -/
def World.under (world : World) (settings : RoundSettings) : World :=
  world.mapAgent fun agent => { agent with settings }

namespace Round

/-- A round has ended with some records, each due check has been executed once, and nothing
else has happened. -/
structure Collected (surroundings : Surroundings) (world : World) (items : List (HostRef × Check))
    (told : List Record) (ended : World × Round) : Prop where
  frame : ended.2.stream.finalized ended.1.clock.seconds =
    .ok (Frame.encode (Submission.payload told world.clock.seconds))
  length : (Submission.payload told world.clock.seconds).length =
    (Submission.payload (items.map (world.recordOf surroundings)) world.clock.seconds).length
  tally : ended.2.tally = surroundings.tallyOf world.agent items
  fault : ended.2.fault = none
  checks : ended.1.agent.check? = world.checkAfter? surroundings items

/-- What is the same of a round under all settings. -/
structure Agrees (surroundings : Surroundings) (world : World) (items : List (HostRef × Check))
    (begun : World) (round : Round) : Prop where
  /-- All can be brought to their ends, whoever has had a turn so far. -/
  goesOn : ∀ early, ∃ late,
    ((Crew.ofRound begun round).takeTurns surroundings (early ++ late)).IsDone
  turns : ∀ turns, ((Crew.ofRound begun round).takeTurns surroundings turns).IsDone →
    ∃ told, told.Perm (items.map (world.recordOf surroundings)) ∧
      Collected surroundings world items told
        (((Crew.ofRound begun round).takeTurns surroundings turns).conclude round)
  inOrder : ∀ turns, (Crew.ofRound begun round).InOrder surroundings turns →
    ((Crew.ofRound begun round).takeTurns surroundings turns).IsDone →
    Collected surroundings world items (items.map (world.recordOf surroundings))
      (((Crew.ofRound begun round).takeTurns surroundings turns).conclude round)
  work : Collected surroundings world items (items.map (world.recordOf surroundings))
    (round.work surroundings begun)

end Round

namespace Crew

variable {surroundings : Surroundings} {start : World} {items executed : List (HostRef × Check)}
  {collected : List Record} {crew : Crew} {owner : ServerRef} {delay : Nat}

theorem Underway.conclude
    (underway : Underway surroundings start items (items.map (start.recordOf surroundings)) executed
      collected crew)
    (done : crew.IsDone) (sound : start.agent.Sound)
    (present : ∀ item ∈ items, start.agent.check? item.1 item.2.key = some item.2)
    {round : Round} (opened : Round.Opened start.agent delay owner round) :
    Round.Collected surroundings start items collected (crew.conclude round) := by
  have same := underway.collected_perm done
  rw [Crew.conclude, foldl_count fun worker inside => .inl (underway.outcome worker inside)]
  constructor
  case frame =>
    dsimp only
    rw [underway.stands.clock]
    exact underway.stands.collects.finalized start.clock.seconds
  case length => exact Stream.length_payload_of_perm same start.clock.seconds
  case tally =>
    dsimp only
    rw [opened.tally, Tally.zero_add, underway.tally, Tally.ofRecords_of_perm same,
      Tally.ofRecords_recordOf]
  case fault => exact opened.fault
  case checks =>
    funext ref key
    exact underway.check?_eq done sound present ref key

end Crew

namespace Round

variable {surroundings : Surroundings} {start world : World} {owner : ServerRef} {delay : Nat}
  {round : Round} {settings : RoundSettings}

theorem Opened.collected (opened : Opened start.agent delay owner round)
    (still : surroundings.Still) (sound : start.agent.Sound) {turns : List Nat}
    (done : ((Crew.ofRound start round).takeTurns surroundings turns).IsDone) :
    ∃ told, told.Perm ((start.agent.allDue owner delay).map (start.recordOf surroundings)) ∧
      Collected surroundings start (start.agent.allDue owner delay) told
        (((Crew.ofRound start round).takeTurns surroundings turns).conclude round) ∧
      ((Crew.ofRound start round).InOrder surroundings turns →
        told = (start.agent.allDue owner delay).map (start.recordOf surroundings)) := by
  have present : ∀ item ∈ start.agent.allDue owner delay,
      start.agent.check? item.1 item.2.key = some item.2 := by
    intro item inside
    obtain ⟨ref, _, due⟩ := List.mem_flatMap.mp inside
    exact sound.check?_of_mem_dueItems due
  have begun := Crew.underway_ofRound surroundings opened sound
  obtain ⟨executed, told, underway, ordered⟩ := begun.takeTurns still sound sound.apart_allDue turns
  refine ⟨told, underway.collected_perm done, underway.conclude done sound present opened, ?_⟩
  intro inOrder
  have all := ordered inOrder
  rwa [Crew.pending, Crew.pending_of_done done, List.append_nil, List.nil_append,
    Crew.pending_ofRound, Crew.todo_ofRound opened sound] at all

theorem Opened.agrees (opened : Opened start.agent delay owner round)
    (still : surroundings.Still) (sound : start.agent.Sound) :
    Agrees surroundings start (start.agent.allDue owner delay) start round := by
  have inOrder : ∀ turns, (Crew.ofRound start round).InOrder surroundings turns →
      ((Crew.ofRound start round).takeTurns surroundings turns).IsDone →
      Collected surroundings start (start.agent.allDue owner delay)
        ((start.agent.allDue owner delay).map (start.recordOf surroundings))
        (((Crew.ofRound start round).takeTurns surroundings turns).conclude round) := by
    intro turns ordered done
    obtain ⟨told, _, collected, same⟩ := opened.collected still sound done
    rwa [same ordered] at collected
  constructor
  case goesOn =>
    intro early
    obtain ⟨late, done⟩ := Crew.exists_turns_done ((Crew.ofRound start round).takeTurns surroundings early)
    exact ⟨late, by rwa [Crew.takeTurns_append]⟩
  case turns =>
    intro turns done
    obtain ⟨told, permuted, collected, _⟩ := opened.collected still sound done
    exact ⟨told, permuted, collected⟩
  case inOrder => exact inOrder
  case work =>
    obtain ⟨turns, ordered, done, same⟩ := Crew.exists_turns_work start round
    rw [← same]
    exact inOrder turns ordered done

/-- What is due and what comes of it does not depend on the settings, or on files. -/
theorem Collected.of_under {directory : Directory} {items : List (HostRef × Check)}
    {told : List Record} {ended : World × Round}
    (collected : Collected surroundings { world.under settings with directory } items told ended) :
    Collected surroundings world items told ended :=
  ⟨collected.frame, collected.length, collected.tally, collected.fault, collected.checks⟩

theorem Agrees.of_under {directory : Directory} {items : List (HostRef × Check)} {begun : World}
    (agrees : Agrees surroundings { world.under settings with directory } items begun round) :
    Agrees surroundings world items begun round where
  goesOn := agrees.goesOn
  turns turns done :=
    have ⟨told, permuted, collected⟩ := agrees.turns turns done
    ⟨told, permuted, collected.of_under⟩
  inOrder turns ordered done := (agrees.inOrder turns ordered done).of_under
  work := agrees.work.of_under

/-- However the checks of a server are divided, whoever has a turn when, and wherever the
results are collected: the same checks are executed, the same records are sent, in a payload
of the same length, and the same is counted and kept.  If the units are done in their order,
the bytes are the same. -/
theorem agrees_for_all_turns (reachable : world.agent.Reachable) (still : surroundings.Still)
    (owner : ServerRef) (delay : Nat) (settings : RoundSettings) :
    (surroundings.HasDirectory settings → ∃ round opened,
      Round.start surroundings (world.under settings) owner delay = .ok (round, opened)) ∧
    (surroundings.HasRoom settings → ∀ round opened,
      Round.start surroundings (world.under settings) owner delay = .ok (round, opened) →
      Agrees surroundings world (world.agent.allDue owner delay) opened round) := by
  have sound := reachable.sound
  constructor
  · intro directory
    exact @exists_start surroundings (world.under settings) directory owner delay
  · intro roomy round opened started
    have starts := starts_of_start started
    have begins := starts.opened roomy
    obtain ⟨directory, rfl⟩ := starts.changes
    let begun : World := { world.under settings with directory }
    have soundBegun : begun.agent.Sound := sound.reschedule rfl sound.schedule rfl rfl rfl
    have agrees : Agrees surroundings begun (world.agent.allDue owner delay) begun round :=
      @Opened.agrees surroundings begun owner delay round begins still soundBegun
    exact agrees.of_under

/-- Two checks of a host, of which the second one is done first. -/
theorem agrees_for_all_turns_of_value_and_failure :
    let ordered := ((Agent.empty {}).perform
      (.registerServer { address := "a", hosts := [{ name := "h" }] })).perform
        (.applyOrders 0 [{ key := "k", delay := 60 }, { key := "l", delay := 60 }] default)
    let surroundings : Surroundings :=
      { execute := fun _ check =>
          { outcome := if check.key = "k" then .value "1" else .failure ["outer", "inner"] }
        peer := fun _ => .refusing
        tracing := false
        newFile := fun _ directory => .ok { name := directory.spareName } }
    let world : World := { agent := ordered, clock := default }
    let begun := world.under ⟨.check, .directDisk, none⟩
    (world.agent.allDue 0 60).map (place ·) = [(0, "k"), (0, "l")] ∧
      ∃ round opened, Round.start surroundings begun 0 60 = .ok (round, opened) ∧
        ((Crew.ofRound opened round).takeTurns surroundings [1, 1, 1, 0, 0, 0]).IsDone ∧
        Agrees surroundings world (world.agent.allDue 0 60) opened round := by
  intro ordered surroundings world begun
  have created : Agent.create { servers := [] } = .ok (Agent.empty {}) := rfl
  have reachable : ordered.Reachable := .perform (.perform (.create created) _) _
  have reachableNow : world.agent.Reachable := reachable
  have still : surroundings.Still := by
    constructor
    · intro host check
      dsimp only [surroundings]
      split <;> simp
    · exact fun _ _ => rfl
  have directory : surroundings.HasDirectory ⟨.check, .directDisk, none⟩ :=
    Surroundings.hasDirectory_of_spareName _ fun _ _ => rfl
  obtain ⟨starts, agrees⟩ :=
    agrees_for_all_turns reachableNow still 0 60 ⟨.check, .directDisk, none⟩
  obtain ⟨round, opened, started⟩ := starts directory
  have all : (Round.start surroundings begun 0 60).toOption.any (fun next =>
      ((Crew.ofRound next.2 next.1).takeTurns surroundings [1, 1, 1, 0, 0, 0]).IsDone) = true := by
    decide +kernel
  refine ⟨by decide +kernel, round, opened, started, ?_, ?_⟩
  case refine_2 => exact agrees directory.hasRoom round opened started
  rw [started] at all
  exact of_decide_eq_true all

end Round

end CheckRounds
