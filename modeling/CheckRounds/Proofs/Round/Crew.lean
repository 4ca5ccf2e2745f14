import CheckRounds.Proofs.Round.Collection
import Mathlib.Logic.Function.Iterate

namespace CheckRounds

/-! Units of work that are done at the same time.

A unit is done in steps, and between two steps of one unit there may be any steps of the
others.  Looking something up is a step, so is the execution of a check up to the value
that it leaves, and so is putting its record into the stream.  A unit that is left to itself
does what it does in a round of its own, so going through the units one after the other is
one of the ways to take turns.
-/

/-! ### Steps -/

/-- What one unit of work does before the others can come in between. -/
inductive Worker.Step
  | findHosts (server : ServerRef)
  | findChecks (host : HostRef)
  | findCheck (host : HostRef) (key : String)
  | execute (ref : HostRef) (host : String) (check : Check)
  | collect (record : Record)

/-- A unit of work under way: the steps it knows of, and what it has counted so far or
why it came to an end. -/
structure Worker where
  delay : Nat
  steps : List Worker.Step
  outcome : Except Stop Tally := .ok {}

namespace Worker

def Step.ofScope : Coverage → Step
  | .server ref => .findHosts ref
  | .host ref => .findChecks ref
  | .check host key => .findCheck host key

def ofUnit (work : UnitOfWork) : Worker := { delay := work.delay, steps := [.ofScope work.scope] }

variable (surroundings : Surroundings)

/-- Takes a step: the steps that come of it, and what is to be counted. -/
def Step.perform (delay : Nat) (collecting : Collecting) :
    Step → Except Stop (List Step × Tally) × Collecting
  | .findHosts server =>
      (.ok ((collecting.world.agent.dueHosts server delay).map .findChecks, {}), collecting)
  | .findChecks ref =>
      let host := collecting.world.agent.hostName ref
      (.ok ((collecting.world.agent.dueChecks ref delay).map (.execute ref host), {}), collecting)
  | .findCheck ref key =>
      let host := collecting.world.agent.hostName ref
      (.ok (((collecting.world.agent.check? ref key).map (.execute ref host)).toList, {}), collecting)
  | .execute ref host check =>
      let run := surroundings.execute host check
      let world := collecting.world.interveneAll run.meanwhile
      let clock := world.clock.seconds
      match run.outcome with
      | .crash => (.error .crash, ⟨world, collecting.stream⟩)
      | .value value =>
          let kept := world.mapAgent fun agent => agent.keepValue ref check.key value world.clock
          (.ok ([.collect ⟨host, check.key, value, false, clock⟩], {}), ⟨kept, collecting.stream⟩)
      | .failure causes =>
          let message := ": ".intercalate causes
          (.ok ([.collect ⟨host, check.key, message, true, clock⟩], {}), ⟨world, collecting.stream⟩)
  | .collect record =>
      match collecting.collect record with
      | (.ok (), collecting) => (.ok ([], .one !record.failed), collecting)
      | (.error stop, collecting) => (.error stop, collecting)

def advance : Worker × Collecting → Worker × Collecting
  | (⟨delay, [], outcome⟩, collecting) => (⟨delay, [], outcome⟩, collecting)
  | (⟨delay, step :: rest, outcome⟩, collecting) =>
      match step.perform surroundings delay collecting with
      | (.ok (more, tally), collecting) =>
          (⟨delay, more ++ rest, outcome.map (·.add tally)⟩, collecting)
      | (.error stop, collecting) => (⟨delay, [], .error stop⟩, collecting)

/-- What no step breaks, no worker breaks. -/
theorem advance_keeps {motive : Collecting → Prop}
    (kept : ∀ delay step collecting, motive collecting →
      motive (Step.perform surroundings delay collecting step).2)
    (state : Worker × Collecting) (holds : motive state.2) :
    motive (advance surroundings state).2 := by
  obtain ⟨⟨delay, steps, outcome⟩, collecting⟩ := state
  cases steps with
  | nil => exact holds
  | cons step rest =>
      have stepped := kept delay step collecting holds
      rw [advance]
      split <;> next performed => rw [performed] at stepped; exact stepped

/-! ### A worker alone -/

/-- A worker gets from one state to another in some number of steps. -/
def Reaches (before after : Worker × Collecting) : Prop :=
  ∃ count, (advance surroundings)^[count] before = after

variable {surroundings}

theorem Reaches.refl (state : Worker × Collecting) : Reaches surroundings state state := ⟨0, rfl⟩

theorem Reaches.trans {before middle after : Worker × Collecting}
    (first : Reaches surroundings before middle) (second : Reaches surroundings middle after) :
    Reaches surroundings before after := by
  obtain ⟨early, rfl⟩ := first
  obtain ⟨late, rfl⟩ := second
  exact ⟨late + early, Function.iterate_add_apply _ late early before⟩

theorem Reaches.step {before after : Worker × Collecting}
    (rest : Reaches surroundings (advance surroundings before) after) :
    Reaches surroundings before after := by
  obtain ⟨count, rfl⟩ := rest
  exact ⟨count + 1, rfl⟩

/-- Where a worker is when some of its work has ended. -/
def goOn (worker : Worker) (rest : List Step) : Except Stop Tally × Collecting → Worker × Collecting
  | (.ok tally, collecting) =>
      (⟨worker.delay, rest, worker.outcome.map (·.add tally)⟩, collecting)
  | (.error stop, collecting) => (⟨worker.delay, [], .error stop⟩, collecting)

/-- Does some work and then some more, unless the first has stopped. -/
def andThen (first : Except Stop Tally × Collecting)
    (next : Collecting → Except Stop Tally × Collecting) : Except Stop Tally × Collecting :=
  match first with
  | (.error stop, collecting) => (.error stop, collecting)
  | (.ok tally, collecting) =>
      match next collecting with
      | (.error stop, collecting) => (.error stop, collecting)
      | (.ok others, collecting) => (.ok (tally.add others), collecting)

/-- Some steps, taken one after the other, amount to some work. -/
def Performs (surroundings : Surroundings) (delay : Nat) (steps : List Step)
    (work : Collecting → Except Stop Tally × Collecting) : Prop :=
  ∀ (outcome : Except Stop Tally) (rest : List Step) (collecting : Collecting),
    Reaches surroundings (⟨delay, steps ++ rest, outcome⟩, collecting)
      (goOn ⟨delay, [], outcome⟩ rest (work collecting))

variable {delay : Nat}

theorem map_add_zero (outcome : Except Stop Tally) : outcome.map (·.add {}) = outcome := by
  cases outcome with
  | error stop => rfl
  | ok tally => exact congrArg Except.ok tally.add_zero

theorem performs_nil : Performs surroundings delay [] fun collecting => (.ok {}, collecting) := by
  intro outcome rest collecting
  rw [goOn, map_add_zero]
  exact .refl _

theorem Performs.append {first second : List Step}
    {work next : Collecting → Except Stop Tally × Collecting}
    (performs : Performs surroundings delay first work)
    (performsNext : Performs surroundings delay second next) :
    Performs surroundings delay (first ++ second) fun collecting =>
      andThen (work collecting) next := by
  intro outcome rest collecting
  have begun := performs outcome (second ++ rest) collecting
  rw [List.append_assoc]
  refine begun.trans ?_
  dsimp only
  generalize work collecting = worked
  match worked with
  | (.error stop, middle) => exact .refl _
  | (.ok tally, middle) =>
      have ended := performsNext (outcome.map (·.add tally)) rest middle
      have goes : goOn ⟨delay, [], outcome.map (·.add tally)⟩ rest (next middle) =
          goOn ⟨delay, [], outcome⟩ rest (andThen (.ok tally, middle) next) := by
        rw [andThen]
        match next middle with
        | (.error stop, after) => rfl
        | (.ok others, after) =>
            dsimp only [goOn]
            cases outcome with
            | error stop => rfl
            | ok counted => simp [Except.map, Tally.add_assoc]
      rwa [goes] at ended

theorem Performs.congr {steps : List Step} {work same : Collecting → Except Stop Tally × Collecting}
    (performs : Performs surroundings delay steps work)
    (equal : ∀ collecting, same collecting = work collecting) :
    Performs surroundings delay steps same := by
  intro outcome rest collecting
  rw [equal]
  exact performs outcome rest collecting

/-- A step that only finds out what there is to do. -/
theorem reaches_of_lookup {step : Step} {found rest : List Step} {outcome : Except Stop Tally}
    {collecting after : Collecting} {state : Worker × Collecting}
    (looks : step.perform surroundings delay collecting = (.ok (found, {}), after))
    (reaches : Reaches surroundings (⟨delay, found ++ rest, outcome⟩, after) state) :
    Reaches surroundings (⟨delay, [step] ++ rest, outcome⟩, collecting) state := by
  refine Reaches.step ?_
  rw [List.singleton_append, advance, looks]
  dsimp only
  rwa [map_add_zero]

/-! ### What the steps amount to -/

def counted : Except Stop Bool × Collecting → Except Stop Tally × Collecting
  | (.ok succeeded, collecting) => (.ok (.one succeeded), collecting)
  | (.error stop, collecting) => (.error stop, collecting)

theorem performs_collect (record : Record) :
    Performs surroundings delay [.collect record] fun collecting =>
      counted (match collecting.collect record with
        | (.ok (), collecting) => (.ok !record.failed, collecting)
        | (.error stop, collecting) => (.error stop, collecting)) := by
  intro outcome rest collecting
  refine Reaches.step ?_
  rw [List.singleton_append, advance, Step.perform]
  dsimp only
  generalize collecting.collect record = collected
  match collected with
  | (.ok (), after) => exact .refl _
  | (.error stop, after) => exact .refl _

theorem performs_execute (ref : HostRef) (host : String) (check : Check) :
    Performs surroundings delay [.execute ref host check] fun collecting =>
      counted (collecting.execute surroundings ref host check) := by
  intro outcome rest collecting
  let world := collecting.world.interveneAll (surroundings.execute host check).meanwhile
  unfold Collecting.execute
  dsimp only
  cases ended : (surroundings.execute host check).outcome with
  | crash =>
      have stops : Step.perform surroundings delay collecting (.execute ref host check) =
          (.error .crash, ⟨world, collecting.stream⟩) := by
        rw [Step.perform, ended]
      refine Reaches.step ?_
      rw [List.singleton_append, advance, stops]
      exact .refl _
  | value value =>
      let record : Record := ⟨host, check.key, value, false, world.clock.seconds⟩
      let kept := world.mapAgent fun agent => agent.keepValue ref check.key value world.clock
      have executes : Step.perform surroundings delay collecting (.execute ref host check) =
          (.ok ([.collect record], {}), ⟨kept, collecting.stream⟩) := by
        rw [Step.perform, ended]
      refine reaches_of_lookup executes ?_
      exact performs_collect record outcome rest ⟨kept, collecting.stream⟩
  | failure causes =>
      let record : Record :=
        ⟨host, check.key, ": ".intercalate causes, true, world.clock.seconds⟩
      have executes : Step.perform surroundings delay collecting (.execute ref host check) =
          (.ok ([.collect record], {}), ⟨world, collecting.stream⟩) := by
        rw [Step.perform, ended]
      refine reaches_of_lookup executes ?_
      exact performs_collect record outcome rest ⟨world, collecting.stream⟩

theorem performs_executeEach (ref : HostRef) (host : String) (checks : List Check) :
    Performs surroundings delay (checks.map (.execute ref host)) fun collecting =>
      collecting.executeEach surroundings ref host checks := by
  induction checks with
  | nil => exact performs_nil
  | cons check rest ih =>
      refine ((performs_execute ref host check).append ih).congr fun collecting => ?_
      rw [Collecting.executeEach]
      generalize collecting.execute surroundings ref host check = executed
      obtain ⟨stop | succeeded, after⟩ := executed
      · rfl
      · rfl

theorem performs_findChecks (ref : HostRef) :
    Performs surroundings delay [.findChecks ref] fun collecting =>
      collecting.executeDue surroundings ref (some delay) := by
  intro outcome rest collecting
  exact reaches_of_lookup rfl (performs_executeEach ref _ _ outcome rest collecting)

theorem performs_findChecks_of_hosts (hosts : List HostRef) :
    Performs surroundings delay (hosts.map .findChecks) fun collecting =>
      collecting.executeHosts surroundings delay hosts := by
  induction hosts with
  | nil => exact performs_nil
  | cons ref rest ih =>
      refine ((performs_findChecks ref).append ih).congr fun collecting => ?_
      rw [Collecting.executeHosts]
      generalize collecting.executeDue surroundings ref (some delay) = executed
      obtain ⟨stop | tally, after⟩ := executed
      · rfl
      · rfl

theorem performs_findHosts (server : ServerRef) :
    Performs surroundings delay [.findHosts server] fun collecting =>
      collecting.executeHosts surroundings delay (collecting.world.agent.dueHosts server delay) := by
  intro outcome rest collecting
  exact reaches_of_lookup rfl (performs_findChecks_of_hosts _ outcome rest collecting)

theorem performs_findCheck (ref : HostRef) (key : String) :
    Performs surroundings delay [.findCheck ref key] fun collecting =>
      collecting.runUnit surroundings ⟨delay, .check ref key⟩ := by
  intro outcome rest collecting
  unfold Collecting.runUnit
  dsimp only
  cases found : collecting.world.agent.check? ref key with
  | none =>
      have gone : collecting.executeKeyed surroundings ref key = (.ok none, collecting) := by
        rw [Agent.check?] at found
        rw [Collecting.executeKeyed, found]
      have looks : Step.perform surroundings delay collecting (.findCheck ref key) =
          (.ok ([], {}), collecting) := by
        rw [Step.perform, found]
        rfl
      rw [gone]
      exact reaches_of_lookup looks (performs_nil outcome rest collecting)
  | some check =>
      let host := collecting.world.agent.hostName ref
      have looks : Step.perform surroundings delay collecting (.findCheck ref key) =
          (.ok ([.execute ref host check], {}), collecting) := by
        rw [Step.perform, found]
        rfl
      refine reaches_of_lookup looks ((performs_execute ref host check outcome rest collecting).trans ?_)
      rw [Agent.check?] at found
      rw [Collecting.executeKeyed, found]
      dsimp only
      generalize collecting.execute surroundings ref host check = run
      obtain ⟨stop | succeeded, after⟩ := run
      · exact .refl _
      · exact .refl _

/-- What a worker does that is left to itself is its unit of work. -/
theorem performs_ofScope (scope : Coverage) :
    Performs surroundings delay [.ofScope scope] fun collecting =>
      collecting.runUnit surroundings ⟨delay, scope⟩ := by
  cases scope with
  | server ref => exact performs_findHosts ref
  | host ref => exact performs_findChecks ref
  | check ref key => exact performs_findCheck ref key

/-- Whatever is left to do is some work, so it comes to an end. -/
theorem exists_performs (steps : List Step) : ∃ work, Performs surroundings delay steps work := by
  induction steps with
  | nil => exact ⟨_, performs_nil⟩
  | cons step rest ih =>
      obtain ⟨next, performsRest⟩ := ih
      have first : ∃ work, Performs surroundings delay [step] work := by
        cases step with
        | findHosts server => exact ⟨_, performs_findHosts server⟩
        | findChecks ref => exact ⟨_, performs_findChecks ref⟩
        | findCheck ref key => exact ⟨_, performs_findCheck ref key⟩
        | execute ref host check => exact ⟨_, performs_execute ref host check⟩
        | collect record => exact ⟨_, performs_collect record⟩
      obtain ⟨work, performs⟩ := first
      exact ⟨_, performs.append performsRest⟩

theorem steps_goOn_nil (worker : Worker) (worked : Except Stop Tally × Collecting) :
    (worker.goOn [] worked).1.steps = [] := by
  match worked with
  | (.ok tally, after) => rfl
  | (.error stop, after) => rfl

theorem exists_reaches_end (surroundings : Surroundings) (worker : Worker) (collecting : Collecting) :
    ∃ ended after, Reaches surroundings (worker, collecting) (ended, after) ∧ ended.steps = [] := by
  obtain ⟨delay, steps, outcome⟩ := worker
  obtain ⟨work, performs⟩ : ∃ work, Performs surroundings delay steps work := exists_performs steps
  have reaches := performs outcome [] collecting
  rw [List.append_nil] at reaches
  exact ⟨_, _, reaches, steps_goOn_nil _ _⟩

/-- A unit that is left to itself ends as it does in a round of its own. -/
theorem reaches_runUnit (surroundings : Surroundings) (work : UnitOfWork) (collecting : Collecting) :
    Reaches surroundings (ofUnit work, collecting)
      (⟨work.delay, [], (collecting.runUnit surroundings work).1⟩,
        (collecting.runUnit surroundings work).2) := by
  have performs : Performs surroundings work.delay [.ofScope work.scope] _ :=
    performs_ofScope work.scope
  have reaches := performs (.ok {}) [] collecting
  rw [List.append_nil] at reaches
  refine reaches.trans ?_
  generalize collecting.runUnit surroundings work = worked
  match worked with
  | (.ok tally, after) =>
      rw [goOn]
      dsimp only [Except.map]
      rw [Tally.zero_add]
      exact .refl _
  | (.error stop, after) => exact .refl _

end Worker

/-! ### Workers who take turns -/

/-- The units of a round, all under way at the same time. -/
structure Crew where
  collecting : Collecting
  workers : List Worker

namespace Crew

variable (surroundings : Surroundings)

/-- Lets one worker take a step. -/
def turn (crew : Crew) (position : Nat) : Crew :=
  match crew.workers[position]? with
  | none => crew
  | some worker =>
      let (worker, collecting) := Worker.advance surroundings (worker, crew.collecting)
      ⟨collecting, crew.workers.set position worker⟩

def takeTurns (crew : Crew) (turns : List Nat) : Crew := turns.foldl (turn surroundings) crew

def IsDone (crew : Crew) : Prop := ∀ worker ∈ crew.workers, worker.steps = []

instance (crew : Crew) : Decidable crew.IsDone :=
  inferInstanceAs (Decidable (∀ worker ∈ crew.workers, worker.steps = []))

/-- Nobody begins before those in front are done. -/
def InOrder (crew : Crew) : List Nat → Prop
  | [] => True
  | position :: rest =>
      (∀ worker ∈ crew.workers.take position, worker.steps = []) ∧
        (crew.turn surroundings position).InOrder rest

/-- The units that a round has still to do, with its stream in front of them. -/
def ofRound (world : World) (round : Round) : Crew :=
  ⟨⟨world, round.stream⟩, round.remaining.map Worker.ofUnit⟩

/-- The round with what its units have counted, in the order of the plan. -/
def conclude (crew : Crew) (round : Round) : World × Round :=
  (crew.collecting.world,
    (crew.workers.map (·.outcome)).foldl Round.count
      { round with stream := crew.collecting.stream, remaining := [] })

variable {surroundings} {crew : Crew} {world : World} {round : Round}

/-- What no step breaks holds whoever has a turn when. -/
theorem takeTurns_keeps {motive : Collecting → Prop}
    (kept : ∀ delay step collecting, motive collecting →
      motive (Worker.Step.perform surroundings delay collecting step).2)
    (holds : motive crew.collecting) (turns : List Nat) :
    motive (crew.takeTurns surroundings turns).collecting := by
  induction turns generalizing crew with
  | nil => exact holds
  | cons position rest ih =>
      have first : motive (crew.turn surroundings position).collecting := by
        unfold turn
        split
        · exact holds
        · next worker _ => exact Worker.advance_keeps surroundings kept (worker, crew.collecting) holds
      exact ih first

theorem takeTurns_append (early late : List Nat) :
    crew.takeTurns surroundings (early ++ late) =
      (crew.takeTurns surroundings early).takeTurns surroundings late := List.foldl_append

theorem InOrder.append {early late : List Nat} (first : crew.InOrder surroundings early)
    (second : (crew.takeTurns surroundings early).InOrder surroundings late) :
    crew.InOrder surroundings (early ++ late) := by
  induction early generalizing crew with
  | nil => exact second
  | cons position rest ih => exact ⟨first.1, ih first.2 second⟩

theorem turn_eq {worker : Worker} {before after : List Worker} {collecting : Collecting} :
    turn surroundings ⟨collecting, before ++ worker :: after⟩ before.length =
      ⟨(Worker.advance surroundings (worker, collecting)).2,
        before ++ (Worker.advance surroundings (worker, collecting)).1 :: after⟩ := by
  unfold turn
  simp

/-- One worker can be left to itself while the others wait. -/
theorem exists_turns_of_reaches {worker ended : Worker} {collecting after : Collecting}
    {before : List Worker} (done : ∀ worker ∈ before, worker.steps = []) (others : List Worker)
    (reaches : Worker.Reaches surroundings (worker, collecting) (ended, after)) :
    ∃ turns, InOrder surroundings ⟨collecting, before ++ worker :: others⟩ turns ∧
      takeTurns surroundings ⟨collecting, before ++ worker :: others⟩ turns =
        ⟨after, before ++ ended :: others⟩ := by
  obtain ⟨count, reached⟩ := reaches
  refine ⟨List.replicate count before.length, ?_⟩
  induction count generalizing worker collecting with
  | zero =>
      cases reached
      exact ⟨trivial, rfl⟩
  | succ count ih =>
      rw [List.replicate_succ, takeTurns, List.foldl_cons, InOrder, turn_eq]
      obtain ⟨ordered, taken⟩ := ih reached
      refine ⟨⟨?_, ordered⟩, taken⟩
      dsimp only
      rwa [List.take_left]

theorem isDone_concat {finished : List Worker} (done : ∀ worker ∈ finished, worker.steps = [])
    (ended : Worker) (ends : ended.steps = []) :
    ∀ worker ∈ finished ++ [ended], worker.steps = [] := by
  intro worker inside
  rcases List.mem_append.mp inside with before | same
  · exact done worker before
  · rwa [List.mem_singleton.mp same]

/-- Whoever has had a turn so far, all can be brought to their ends. -/
theorem exists_turns_done (crew : Crew) : ∃ turns, (crew.takeTurns surroundings turns).IsDone := by
  have finish : ∀ (waiting finished : List Worker) (collecting : Collecting),
      (∀ worker ∈ finished, worker.steps = []) →
        ∃ turns, (takeTurns surroundings ⟨collecting, finished ++ waiting⟩ turns).IsDone := by
    intro waiting
    induction waiting with
    | nil =>
        intro finished collecting done
        refine ⟨[], ?_⟩
        rw [List.append_nil]
        exact done
    | cons worker rest ih =>
        intro finished collecting done
        obtain ⟨ended, after, reaches, ends⟩ :=
          worker.exists_reaches_end surroundings collecting
        obtain ⟨early, _, reached⟩ := exists_turns_of_reaches done rest reaches
        obtain ⟨late, allDone⟩ := ih (finished ++ [ended]) after (isDone_concat done ended ends)
        refine ⟨early ++ late, ?_⟩
        rw [takeTurns_append, reached]
        rwa [List.append_assoc] at allDone
  exact finish crew.workers [] crew.collecting (fun _ inside => absurd inside List.not_mem_nil)

theorem stream_count (round : Round) (outcome : Except Stop Tally) :
    (round.count outcome).stream = round.stream := by
  match outcome with
  | .ok tally => rfl
  | .error (.fault fault) => rfl
  | .error .crash => rfl

theorem withStream_count (round : Round) (outcome : Except Stop Tally) (stream : Collation.Stream) :
    { round.count outcome with stream } = { round with stream }.count outcome := by
  match outcome with
  | .ok tally => rfl
  | .error (.fault fault) => rfl
  | .error .crash => rfl

theorem exists_turns_performAll (surroundings : Surroundings) (works : List UnitOfWork)
    {finished : List Worker} (done : ∀ worker ∈ finished, worker.steps = []) (world : World)
    (round : Round) :
    ∃ turns ended after,
      InOrder surroundings ⟨⟨world, round.stream⟩, finished ++ works.map Worker.ofUnit⟩ turns ∧
      takeTurns surroundings ⟨⟨world, round.stream⟩, finished ++ works.map Worker.ofUnit⟩ turns =
          ⟨after, finished ++ ended⟩ ∧
      (∀ worker ∈ ended, worker.steps = []) ∧
      round.performAll surroundings world works =
        (after.world, (ended.map (·.outcome)).foldl Round.count { round with stream := after.stream }) := by
  induction works generalizing finished world round with
  | nil =>
      exact ⟨[], [], ⟨world, round.stream⟩, trivial, rfl,
        fun _ inside => absurd inside List.not_mem_nil, rfl⟩
  | cons work rest ih =>
      have reaches := Worker.reaches_runUnit surroundings work ⟨world, round.stream⟩
      have performed : round.performAll surroundings world (work :: rest) =
          ({ round with stream := (Collecting.runUnit surroundings ⟨world, round.stream⟩ work).2.stream }.count
            (Collecting.runUnit surroundings ⟨world, round.stream⟩ work).1).performAll surroundings
              (Collecting.runUnit surroundings ⟨world, round.stream⟩ work).2.world rest := rfl
      rw [performed]
      generalize Collecting.runUnit surroundings ⟨world, round.stream⟩ work = worked at reaches ⊢
      obtain ⟨outcome, middle⟩ := worked
      dsimp only at reaches ⊢
      obtain ⟨early, ordered, reached⟩ :=
        exists_turns_of_reaches done (rest.map Worker.ofUnit) reaches
      obtain ⟨late, ended, after, orderedRest, reachedAll, doneRest, performedRest⟩ :=
        ih (isDone_concat done ⟨work.delay, [], outcome⟩ rfl) middle.world
          ({ round with stream := middle.stream }.count outcome)
      rw [stream_count, List.append_assoc] at orderedRest reachedAll
      rw [List.append_assoc] at reachedAll
      refine ⟨early ++ late, ⟨work.delay, [], outcome⟩ :: ended, after, ?_, ?_, ?_, ?_⟩
      · refine ordered.append ?_
        rw [reached]
        exact orderedRest
      · rw [takeTurns_append, List.map_cons, reached]
        exact reachedAll
      · intro worker inside
        rcases List.mem_cons.mp inside with rfl | later
        · rfl
        · exact doneRest worker later
      · rw [performedRest, withStream_count]
        rfl

/-- Going through the units one after the other is one of the ways to take turns. -/
theorem exists_turns_work (world : World) (round : Round) :
    ∃ turns, (ofRound world round).InOrder surroundings turns ∧
      ((ofRound world round).takeTurns surroundings turns).IsDone ∧
      ((ofRound world round).takeTurns surroundings turns).conclude round =
        round.work surroundings world := by
  have noneDone : ∀ worker ∈ ([] : List Worker), worker.steps = [] :=
    fun _ inside => absurd inside List.not_mem_nil
  obtain ⟨turns, ended, after, ordered, reached, done, performed⟩ := exists_turns_performAll
    surroundings round.remaining noneDone world { round with remaining := [] }
  rw [List.nil_append] at ordered reached
  rw [List.nil_append] at reached
  refine ⟨turns, ordered, ?_⟩
  rw [ofRound, reached, Round.work, performed]
  exact ⟨done, rfl⟩

end Crew

end CheckRounds
