import CheckRounds.Proofs.Agent.Duties
import CheckRounds.Proofs.Round.Crew

namespace CheckRounds

/-! Executions among the other things that happen to hosts.

An execution works on what it looked up when it began, and it may be held up for any time
before it keeps the value that it gets.  Meanwhile orders may be applied, refreshes may fail
and hosts may be withdrawn.  Leaving all executions out of such a course of events leaves the
checks, the buckets and the timers as they are with them: an execution writes a value to the
check of its key if there still is one, and nothing else.
-/

open Collation (Stream)

/-! ### Executors that leave the agent alone -/

/-- Executing a check takes time at most. -/
def Surroundings.OnlyTakesTime (surroundings : Surroundings) : Prop :=
  ∀ host check, ∀ intervention ∈ (surroundings.execute host check).meanwhile,
    ∃ now, intervention = .setClock now

/-- Every execution ends in the same way, at once. -/
def Surroundings.ending (outcome : CheckOutcome) : Surroundings :=
  { execute := fun _ _ => { outcome }
    peer := fun _ => .refusing
    tracing := false
    newFile := fun _ _ => .error .noDirectory }

theorem World.interveneAll_clock (world : World) {interventions : List Intervention}
    (idle : ∀ intervention ∈ interventions, ∃ now, intervention = .setClock now) :
    ∃ clock, world.interveneAll interventions = { world with clock } := by
  induction interventions generalizing world with
  | nil => exact ⟨world.clock, rfl⟩
  | cons intervention rest ih =>
      obtain ⟨now, rfl⟩ := idle intervention List.mem_cons_self
      obtain ⟨clock, later⟩ :=
        ih { world with clock := now } fun other inside => idle other (List.mem_cons_of_mem _ inside)
      exact ⟨clock, later⟩

namespace Agent

variable {agent : Agent} {ref : HostRef} {key : String}

/-- A value for a check that is gone is dropped. -/
theorem keepValue_of_absent (absent : agent.check? ref key = none) (value : String) (now : Instant) :
    agent.keepValue ref key value now = agent := by
  unfold keepValue
  cases found : agent.host? ref with
  | none => rfl
  | some host =>
      have noCheck : host.checks.get? key = none := by
        rw [check?, found] at absent
        exact absent
      have sameHost : host.keepValue key value now = host := by
        have sameChecks : (host.keepValue key value now).checks = host.checks := by
          refine SortedMap.ext_get? fun other => ?_
          rw [Host.get?_keepValue]
          split
          · next same => rw [same, noCheck]; rfl
          · rfl
        exact congrArg (fun checks => { host with checks }) sameChecks
      dsimp only
      rw [sameHost, setHost_of_found found]

end Agent

/-! ### What a step of an execution writes -/

namespace Collecting

/-- A stream has the same file, and all files are where they were. -/
structure SameFiles (before after : Collecting) : Prop where
  directory : after.world.directory = before.world.directory
  file : after.stream.file? = before.stream.file?

/-- Nothing but values and records came about: what is left without the values is as it was, nobody
was contacted, and there is no other file. -/
structure Intact (before after : Collecting) : Prop extends SameFiles before after where
  bare : after.world.agent.bare = before.world.agent.bare
  contacts : after.world.contacts = before.world.contacts

variable {before middle after : Collecting}

theorem SameFiles.refl (collecting : Collecting) : collecting.SameFiles collecting := ⟨rfl, rfl⟩

theorem SameFiles.trans (first : before.SameFiles middle) (second : middle.SameFiles after) :
    before.SameFiles after :=
  ⟨second.directory.trans first.directory, second.file.trans first.file⟩

theorem Intact.refl (collecting : Collecting) : collecting.Intact collecting :=
  ⟨.refl collecting, rfl, rfl⟩

theorem Intact.trans (first : before.Intact middle) (second : middle.Intact after) :
    before.Intact after where
  toSameFiles := first.toSameFiles.trans second.toSameFiles
  bare := second.bare.trans first.bare
  contacts := second.contacts.trans first.contacts

theorem sameFiles_collect (collecting : Collecting) (record : Record) :
    collecting.SameFiles (collecting.collect record).2 := by
  have same := (collecting.stream.appendRecord_alone ⟨record.writeSeparated.toArray⟩).2
  unfold collect
  split <;> next appended => rw [appended] at same; exact ⟨rfl, same⟩

end Collecting

namespace Worker

variable {surroundings : Surroundings}

theorem world_collect (collecting : Collecting) (record : Record) :
    (collecting.collect record).2.world = collecting.world := by
  unfold Collecting.collect
  split <;> rfl

/-- The world that a step leaves.  Only the end of an execution writes to the agent, and
only a value. -/
def Step.leaves (surroundings : Surroundings) (world : World) : Step → World
  | .execute ref host check =>
      let run := surroundings.execute host check
      let waited := world.interveneAll run.meanwhile
      match run.outcome with
      | .value value => waited.mapAgent fun agent => agent.keepValue ref check.key value waited.clock
      | _ => waited
  | _ => world

theorem world_perform (delay : Nat) (collecting : Collecting) (step : Step) :
    (step.perform surroundings delay collecting).2.world = step.leaves surroundings collecting.world := by
  cases step with
  | findHosts server => rfl
  | findChecks ref => rfl
  | findCheck ref key => rfl
  | collect record =>
      have same := world_collect collecting record
      rw [Step.perform]
      generalize collecting.collect record = collected at same ⊢
      obtain ⟨result, after⟩ := collected
      cases result with
      | ok _ => exact same
      | error stop => exact same
  | execute ref host check =>
      rw [Step.perform, Step.leaves]
      cases (surroundings.execute host check).outcome <;> rfl

theorem world_advance (worker : Worker) (step : Step) (rest : List Step)
    (next : worker.steps = step :: rest) (collecting : Collecting) :
    (advance surroundings (worker, collecting)).2.world =
      step.leaves surroundings collecting.world := by
  obtain ⟨delay, steps, outcome⟩ := worker
  dsimp only at next
  subst next
  rw [← world_perform delay, advance]
  split <;> next same => rw [same]

/-- Whatever happens while a check is executed, no step touches a file. -/
theorem sameFiles_perform (delay : Nat) (collecting : Collecting) (step : Step) :
    collecting.SameFiles (step.perform surroundings delay collecting).2 := by
  cases step with
  | findHosts server => exact .refl collecting
  | findChecks ref => exact .refl collecting
  | findCheck ref key => exact .refl collecting
  | execute ref host check =>
      have same := collecting.world.directory_interveneAll (surroundings.execute host check).meanwhile
      rw [Step.perform]
      cases (surroundings.execute host check).outcome <;> exact ⟨same, rfl⟩
  | collect record =>
      have same := collecting.sameFiles_collect record
      rw [Step.perform]
      split <;> next collected => rw [collected] at same; exact same

/-- Without the values, no step of an execution can be told. -/
theorem bare_leaves (onlyTime : surroundings.OnlyTakesTime) (step : Step) (world : World) :
    (step.leaves surroundings world).agent.bare = world.agent.bare ∧
      (step.leaves surroundings world).contacts = world.contacts := by
  cases step with
  | execute ref host check =>
      obtain ⟨clock, waited⟩ := world.interveneAll_clock (onlyTime host check)
      rw [Step.leaves, waited]
      cases (surroundings.execute host check).outcome with
      | value value => exact ⟨world.agent.bare_keepValue ref check.key value clock, rfl⟩
      | failure causes => exact ⟨rfl, rfl⟩
      | crash => exact ⟨rfl, rfl⟩
  | findHosts server => exact ⟨rfl, rfl⟩
  | findChecks ref => exact ⟨rfl, rfl⟩
  | findCheck ref key => exact ⟨rfl, rfl⟩
  | collect record => exact ⟨rfl, rfl⟩

theorem intact_perform (onlyTime : surroundings.OnlyTakesTime) (delay : Nat) (collecting : Collecting)
    (step : Step) : collecting.Intact (step.perform surroundings delay collecting).2 := by
  have left := bare_leaves onlyTime step collecting.world
  rw [← world_perform delay] at left
  exact ⟨sameFiles_perform delay collecting step, left.1, left.2⟩

theorem intact_advance (onlyTime : surroundings.OnlyTakesTime) (state : Worker × Collecting) :
    state.2.Intact (advance surroundings state).2 :=
  advance_keeps surroundings (motive := state.2.Intact)
    (fun delay step between same => same.trans (intact_perform onlyTime delay between step)) state
    (.refl state.2)

end Worker

/-! ### Courses of events -/

/-- An agent, and the executions on its hosts that are under way. -/
structure Activity where
  agent : Agent
  executions : List Worker

namespace Activity

/-- What happens next.  An execution that proceeds finds its stream in any state and gets
any outcome of the check that it is waiting for. -/
inductive Move
  | applyOrders (host : HostRef) (orders : List Order) (now : Instant)
  | noteFault (host : HostRef) (fault : Fault) (now : Instant)
  | withdraw (host : HostRef)
  | executeDue (host : HostRef) (delay : Option Nat)
  | executeKeyed (host : HostRef) (key : String)
  | proceed (position : Nat) (outcome : CheckOutcome) (now : Instant) (stream : Stream)

/-- Whether something is done to a host other than executing its checks. -/
def Move.isOperation : Move → Bool
  | .applyOrders .. | .noteFault .. | .withdraw _ => true
  | .executeDue .. | .executeKeyed .. | .proceed .. => false

/-- The execution of what is due on a host now, or of all its checks. -/
def dueWorker (agent : Agent) (host : HostRef) (delay : Option Nat) : Worker :=
  let due := match delay with
    | some delay => agent.dueChecks host delay
    | none => agent.allChecks host
  { delay := delay.getD 0, steps := due.map (.execute host (agent.hostName host)) }

def keyedWorker (agent : Agent) (host : HostRef) (key : String) : Worker :=
  { delay := 0, steps := ((agent.check? host key).map (.execute host (agent.hostName host))).toList }

def proceed (activity : Activity) (position : Nat) (outcome : CheckOutcome) (now : Instant)
    (stream : Stream) : Activity :=
  match activity.executions[position]? with
  | none => activity
  | some worker =>
      let advanced := Worker.advance (.ending outcome)
        (worker, ⟨{ agent := activity.agent, clock := now }, stream⟩)
      ⟨advanced.2.world.agent, activity.executions.set position advanced.1⟩

def step (activity : Activity) : Move → Activity
  | .applyOrders host orders now =>
      { activity with agent := (activity.agent.applyOrders host orders now).2 }
  | .noteFault host fault now =>
      { activity with agent := (activity.agent.noteFault host fault now).2 }
  | .withdraw host => { activity with agent := activity.agent.withdraw host }
  | .executeDue host delay =>
      { activity with executions := activity.executions ++ [dueWorker activity.agent host delay] }
  | .executeKeyed host key =>
      { activity with executions := activity.executions ++ [keyedWorker activity.agent host key] }
  | .proceed position outcome now stream => activity.proceed position outcome now stream

def run (activity : Activity) (moves : List Move) : Activity := moves.foldl step activity

variable {activity left right : Activity} {outcome : CheckOutcome} {now : Instant} {stream : Stream}
  {position : Nat}

theorem onlyTakesTime_ending (outcome : CheckOutcome) :
    (Surroundings.ending outcome).OnlyTakesTime :=
  fun _ _ _ inside => absurd inside List.not_mem_nil

theorem bare_proceed : (activity.proceed position outcome now stream).agent.bare = activity.agent.bare := by
  unfold proceed
  split
  · rfl
  · exact (Worker.intact_advance (onlyTakesTime_ending outcome) _).bare

/-- Executions cannot be told once the values are left out. -/
theorem bare_step_of_execution {move : Move} (execution : move.isOperation = false) :
    (activity.step move).agent.bare = activity.agent.bare := by
  cases move with
  | executeDue host delay => rfl
  | executeKeyed host key => rfl
  | proceed position outcome now stream => exact bare_proceed
  | applyOrders host orders now => contradiction
  | noteFault host fault now => contradiction
  | withdraw host => contradiction

/-- All else does the same with and without the values. -/
theorem bare_step_of_operation {move : Move} (operation : move.isOperation = true)
    (same : left.agent.bare = right.agent.bare) :
    (left.step move).agent.bare = (right.step move).agent.bare := by
  cases move with
  | applyOrders host orders now =>
      exact (left.agent.bare_applyOrders host orders now).trans
        (same ▸ (right.agent.bare_applyOrders host orders now).symm)
  | noteFault host fault now =>
      exact (left.agent.bare_noteFault host fault now).trans
        (same ▸ (right.agent.bare_noteFault host fault now).symm)
  | withdraw host =>
      exact (left.agent.bare_withdraw host).trans (same ▸ (right.agent.bare_withdraw host).symm)
  | executeDue host delay => contradiction
  | executeKeyed host key => contradiction
  | proceed position outcome now stream => contradiction

theorem bare_run (moves : List Move) (same : left.agent.bare = right.agent.bare) :
    (left.run moves).agent.bare = (right.run (moves.filter Move.isOperation)).agent.bare := by
  induction moves generalizing left right with
  | nil => exact same
  | cons move rest ih =>
      cases kind : move.isOperation with
      | true =>
          rw [List.filter_cons_of_pos kind]
          exact ih (bare_step_of_operation kind same)
      | false =>
          rw [List.filter_cons_of_neg (by simp [kind])]
          exact ih ((bare_step_of_execution kind).trans same)

/-! ### What an execution may write -/

/-- The check that gets a value when an execution proceeds, and the value. -/
def written? (activity : Activity) : Move → Option (HostRef × String × String × Instant)
  | .proceed position outcome now _ =>
      match activity.executions[position]?.bind (·.steps.head?), outcome with
      | some (.execute ref _ check), .value value => some (ref, check.key, value, now)
      | _, _ => none
  | _ => none

/-- One check has got a value, if it is there, and nothing else has changed. -/
structure HasKept (before : Agent) (ref : HostRef) (key value : String) (now : Instant)
    (after : Agent) : Prop where
  kept : after.check? ref key = (before.check? ref key).map fun check =>
    { check with lastValue := some value, lastCheck := some now }
  others : ∀ other otherKey, (other, otherKey) ≠ (ref, key) →
    after.check? other otherKey = before.check? other otherKey
  duties : before.SameDuties after
  absent : before.check? ref key = none → after = before

theorem hasKept_keepValue (agent : Agent) (ref : HostRef) (key value : String) (now : Instant) :
    HasKept agent ref key value now (agent.keepValue ref key value now) where
  kept := Agent.check?_keepValue_self value now
  others _ _ different := Agent.check?_keepValue value now different
  duties := .of_bare (agent.bare_keepValue ref key value now)
  absent gone := agent.keepValue_of_absent gone value now

/-- What a move of an execution leaves of an agent. -/
def Wrote (before : Agent) (after : Agent) : Option (HostRef × String × String × Instant) → Prop
  | none => after = before
  | some (ref, key, value, now) => HasKept before ref key value now after

theorem wrote_step {move : Move} (execution : move.isOperation = false) :
    Wrote activity.agent (activity.step move).agent (activity.written? move) := by
  cases move with
  | executeDue host delay => rfl
  | executeKeyed host key => rfl
  | applyOrders host orders now => contradiction
  | noteFault host fault now => contradiction
  | withdraw host => contradiction
  | proceed position outcome now stream =>
      unfold step proceed written?
      dsimp only
      cases activity.executions[position]? with
      | none => rfl
      | some worker =>
          dsimp only [Option.bind_some]
          cases next : worker.steps with
          | nil =>
              obtain ⟨delay, steps, counted⟩ := worker
              dsimp only at next
              subst next
              rfl
          | cons first rest =>
              rw [Worker.world_advance worker first rest next, List.head?_cons]
              cases first with
              | execute ref host check =>
                  cases outcome with
                  | value value => exact hasKept_keepValue activity.agent ref check.key value now
                  | failure causes => rfl
                  | crash => rfl
              | findHosts server => rfl
              | findChecks ref => rfl
              | findCheck ref key => rfl
              | collect record => rfl

theorem run_append (early late : List Move) :
    activity.run (early ++ late) = (activity.run early).run late := List.foldl_append

end Activity

/-! ### The executions that run -/

/-- Whether something that happens takes a host off its server. -/
def Intervention.unregisters : Intervention → Bool
  | .unregisterServer _ | .unregisterHost .. => true
  | _ => false

/-- While a check is executed no host is taken off its server. -/
def Surroundings.KeepsHosts (surroundings : Surroundings) : Prop :=
  ∀ host check, ∀ intervention ∈ (surroundings.execute host check).meanwhile,
    intervention.unregisters = false

namespace Activity

/-- Whether a move begins no execution and lets only the first one proceed. -/
def Move.followsFirst : Move → Bool
  | .proceed 0 .. => true
  | move => move.isOperation

/-- An activity is brought from one state to another by the first of its executions and by
operations. -/
def GoesOn (before after : Activity) : Prop :=
  ∃ moves : List Move, (∀ move ∈ moves, move.followsFirst = true) ∧ before.run moves = after

theorem GoesOn.refl (activity : Activity) : GoesOn activity activity :=
  ⟨[], fun _ inside => absurd inside List.not_mem_nil, rfl⟩

theorem GoesOn.trans {before middle after : Activity} (first : GoesOn before middle)
    (second : GoesOn middle after) : GoesOn before after := by
  obtain ⟨early, follows, rfl⟩ := first
  obtain ⟨late, followsLate, rfl⟩ := second
  exact ⟨early ++ late, List.forall_mem_append.mpr ⟨follows, followsLate⟩, run_append early late⟩

theorem GoesOn.of_step {before : Activity} (move : Move) (follows : move.followsFirst = true) :
    GoesOn before (before.step move) :=
  ⟨[move], List.forall_mem_singleton.mpr follows, rfl⟩

theorem goesOn_intervene (world : World) (executions : List Worker) {intervention : Intervention}
    (keeps : intervention.unregisters = false) :
    GoesOn ⟨world.agent, executions⟩ ⟨(world.intervene intervention).agent, executions⟩ := by
  cases intervention with
  | setClock now => exact .refl _
  | unregisterServer id => contradiction
  | unregisterHost server host => contradiction
  | applyOrders server host orders =>
      unfold World.intervene
      dsimp only
      cases world.hostNamed? server host with
      | none => exact .refl _
      | some ref => exact .of_step (.applyOrders ref orders world.clock) rfl
  | applyOrdersTo ref orders => exact .of_step (.applyOrders ref orders world.clock) rfl
  | noteFault ref fault => exact .of_step (.noteFault ref fault world.clock) rfl
  | withdrawHost ref => exact .of_step (.withdraw ref) rfl

theorem goesOn_interveneAll (world : World) (executions : List Worker)
    {interventions : List Intervention}
    (keeps : ∀ intervention ∈ interventions, intervention.unregisters = false) :
    GoesOn ⟨world.agent, executions⟩ ⟨(world.interveneAll interventions).agent, executions⟩ := by
  induction interventions generalizing world with
  | nil => exact .refl _
  | cons intervention rest ih =>
      have first := goesOn_intervene world executions (keeps intervention List.mem_cons_self)
      exact first.trans (ih (world.intervene intervention)
        fun other inside => keeps other (List.mem_cons_of_mem _ inside))

end Activity

namespace Worker

open Activity (GoesOn)

variable {surroundings : Surroundings}

/-- A step does what it does after everything that happens meanwhile has happened. -/
theorem exists_perform_ending (keeps : surroundings.KeepsHosts) (delay : Nat)
    (collecting : Collecting) (step : Step) :
    ∃ interventions outcome, (∀ intervention ∈ interventions, intervention.unregisters = false) ∧
      step.perform surroundings delay collecting =
        step.perform (.ending outcome) delay
          ⟨collecting.world.interveneAll interventions, collecting.stream⟩ := by
  cases step with
  | execute ref host check =>
      refine ⟨(surroundings.execute host check).meanwhile, (surroundings.execute host check).outcome,
        keeps host check, ?_⟩
      rw [Step.perform, Step.perform, Surroundings.ending]
      cases (surroundings.execute host check).outcome <;> rfl
  | findHosts server => exact ⟨[], .crash, fun _ inside => absurd inside List.not_mem_nil, rfl⟩
  | findChecks ref => exact ⟨[], .crash, fun _ inside => absurd inside List.not_mem_nil, rfl⟩
  | findCheck ref key => exact ⟨[], .crash, fun _ inside => absurd inside List.not_mem_nil, rfl⟩
  | collect record => exact ⟨[], .crash, fun _ inside => absurd inside List.not_mem_nil, rfl⟩

/-- Of the world a step needs the agent and the time. -/
theorem perform_onlyAgent (outcome : CheckOutcome) (delay : Nat) (world : World) (stream : Stream)
    (step : Step) :
    (step.perform (.ending outcome) delay ⟨{ agent := world.agent, clock := world.clock }, stream⟩).1 =
        (step.perform (.ending outcome) delay ⟨world, stream⟩).1 ∧
      (step.leaves (.ending outcome) { agent := world.agent, clock := world.clock }).agent =
        (step.leaves (.ending outcome) world).agent := by
  cases step with
  | findHosts server => exact ⟨rfl, rfl⟩
  | findChecks ref => exact ⟨rfl, rfl⟩
  | findCheck ref key => exact ⟨rfl, rfl⟩
  | execute ref host check =>
      cases outcome with
      | value value => exact ⟨rfl, rfl⟩
      | failure causes => exact ⟨rfl, rfl⟩
      | crash => exact ⟨rfl, rfl⟩
  | collect record =>
      refine ⟨?_, rfl⟩
      dsimp only [Step.perform, Collecting.collect]
      generalize stream.appendRecord _ = appended
      obtain ⟨result, after⟩ := appended
      cases result with
      | ok _ => rfl
      | error fault => rfl

theorem advance_onlyAgent (outcome : CheckOutcome) (worker : Worker) (world : World) (stream : Stream) :
    (advance (.ending outcome)
        (worker, ⟨{ agent := world.agent, clock := world.clock }, stream⟩)).1 =
        (advance (.ending outcome) (worker, ⟨world, stream⟩)).1 ∧
      (advance (.ending outcome)
        (worker, ⟨{ agent := world.agent, clock := world.clock }, stream⟩)).2.world.agent =
        (advance (.ending outcome) (worker, ⟨world, stream⟩)).2.world.agent := by
  obtain ⟨delay, steps, counted⟩ := worker
  cases steps with
  | nil => exact ⟨rfl, rfl⟩
  | cons step rest =>
      obtain ⟨sameResult, sameAgent⟩ := perform_onlyAgent outcome delay world stream step
      rw [world_advance ⟨delay, step :: rest, counted⟩ step rest rfl,
        world_advance ⟨delay, step :: rest, counted⟩ step rest rfl]
      refine ⟨?_, sameAgent⟩
      rw [advance, advance]
      generalize step.perform (.ending outcome) delay ⟨world, stream⟩ = full at sameResult ⊢
      generalize step.perform (.ending outcome) delay _ = bare at sameResult ⊢
      obtain ⟨result, fullAfter⟩ := full
      obtain ⟨_, bareAfter⟩ := bare
      cases sameResult
      cases result with
      | ok performed => rfl
      | error stop => rfl

theorem goesOn_advance (keeps : surroundings.KeepsHosts) (worker : Worker) (collecting : Collecting) :
    GoesOn ⟨collecting.world.agent, [worker]⟩
      ⟨(advance surroundings (worker, collecting)).2.world.agent,
        [(advance surroundings (worker, collecting)).1]⟩ := by
  obtain ⟨delay, steps, counted⟩ := worker
  cases steps with
  | nil => exact .refl _
  | cons step rest =>
      obtain ⟨interventions, outcome, allKeep, performed⟩ :=
        exists_perform_ending keeps delay collecting step
      refine (Activity.goesOn_interveneAll collecting.world _ allKeep).trans ?_
      generalize collecting.world.interveneAll interventions = world at performed ⊢
      have advanced : advance surroundings (⟨delay, step :: rest, counted⟩, collecting) =
          advance (.ending outcome) (⟨delay, step :: rest, counted⟩, ⟨world, collecting.stream⟩) := by
        rw [advance, advance, performed]
      obtain ⟨sameWorker, sameAgent⟩ :=
        advance_onlyAgent outcome ⟨delay, step :: rest, counted⟩ world collecting.stream
      rw [advanced, ← sameWorker, ← sameAgent]
      exact .of_step (.proceed 0 outcome world.clock collecting.stream) rfl

theorem goesOn_of_reaches (keeps : surroundings.KeepsHosts) {before after : Worker × Collecting}
    (reaches : Reaches surroundings before after) :
    GoesOn ⟨before.2.world.agent, [before.1]⟩ ⟨after.2.world.agent, [after.1]⟩ := by
  obtain ⟨count, rfl⟩ := reaches
  induction count generalizing before with
  | zero => exact .refl _
  | succ count ih =>
      have later := @ih (advance surroundings before)
      exact (goesOn_advance keeps before.1 before.2).trans later

theorem world_goOn (worker : Worker) (rest : List Step) (worked : Except Stop Tally × Collecting) :
    (worker.goOn rest worked).2.world = worked.2.world := by
  obtain ⟨result, after⟩ := worked
  cases result with
  | ok tally => rfl
  | error stop => rfl

theorem goesOn_of_performs (keeps : surroundings.KeepsHosts) {delay : Nat} {steps : List Step}
    {work : Collecting → Except Stop Tally × Collecting}
    (performs : Performs surroundings delay steps work) (collecting : Collecting) :
    ∃ executions, GoesOn ⟨collecting.world.agent, [{ delay, steps }]⟩
      ⟨(work collecting).2.world.agent, executions⟩ := by
  have reaches := performs (.ok {}) [] collecting
  rw [List.append_nil] at reaches
  have goesOn := goesOn_of_reaches keeps reaches
  rw [world_goOn] at goesOn
  exact ⟨_, goesOn⟩

end Worker

namespace Collecting

open Activity (GoesOn dueWorker keyedWorker)

variable {surroundings : Surroundings}

/-- Executing what is due on a host, or everything, is the execution begun here, which
proceeds while operations come in between. -/
theorem goesOn_executeDue (keeps : surroundings.KeepsHosts) (collecting : Collecting) (ref : HostRef)
    (delay : Option Nat) :
    ∃ executions, GoesOn ⟨collecting.world.agent, [dueWorker collecting.world.agent ref delay]⟩
      ⟨(collecting.executeDue surroundings ref delay).2.world.agent, executions⟩ :=
  Worker.goesOn_of_performs keeps
    (Worker.performs_executeEach ref (collecting.world.agent.hostName ref) _) collecting

theorem goesOn_executeKeyed (keeps : surroundings.KeepsHosts) (collecting : Collecting) (ref : HostRef)
    (key : String) :
    ∃ executions, GoesOn ⟨collecting.world.agent, [keyedWorker collecting.world.agent ref key]⟩
      ⟨(collecting.executeKeyed surroundings ref key).2.world.agent, executions⟩ := by
  unfold keyedWorker executeKeyed Agent.check?
  cases (collecting.world.agent.host? ref).bind fun host => host.checks.get? key with
  | none => exact ⟨_, .refl _⟩
  | some check =>
      have performs : Worker.Performs surroundings 0 _ _ :=
        Worker.performs_execute ref (collecting.world.agent.hostName ref) check
      obtain ⟨executions, goesOn⟩ := Worker.goesOn_of_performs keeps performs collecting
      refine ⟨executions, ?_⟩
      dsimp only at goesOn ⊢
      generalize collecting.execute surroundings ref (collecting.world.agent.hostName ref) check =
        executed at goesOn ⊢
      obtain ⟨result, after⟩ := executed
      cases result with
      | ok succeeded => exact goesOn
      | error stop => exact goesOn

end Collecting

namespace Activity

/-- Whatever executions are under way or begin, and whenever they proceed among the orders,
the failed refreshes and the withdrawals: the checks, the buckets, the timers and the refresh
states are those without any execution.  A move of an execution gives a value to the check of
its key if that is still there, and otherwise does nothing.  The functions that execute
checks are such courses of events, whatever is done to hosts while they wait. -/
theorem executions_only_keep_values (activity : Activity) (moves : List Move) :
    (activity.run (moves.filter Move.isOperation)).agent.SameDuties (activity.run moves).agent ∧
    (∀ move : Move, move.isOperation = false →
      Wrote (activity.run moves).agent ((activity.run moves).step move).agent
        ((activity.run moves).written? move)) ∧
    ∀ surroundings : Surroundings, surroundings.KeepsHosts → ∀ (collecting : Collecting) (ref : HostRef),
      (∀ delay, ∃ executions,
        GoesOn (step ⟨collecting.world.agent, []⟩ (.executeDue ref delay))
          ⟨(collecting.executeDue surroundings ref delay).2.world.agent, executions⟩) ∧
      ∀ key, ∃ executions,
        GoesOn (step ⟨collecting.world.agent, []⟩ (.executeKeyed ref key))
          ⟨(collecting.executeKeyed surroundings ref key).2.world.agent, executions⟩ := by
  refine ⟨.of_bare (bare_run moves rfl), fun _ => wrote_step, ?_⟩
  intro surroundings keeps collecting ref
  exact ⟨collecting.goesOn_executeDue keeps ref, collecting.goesOn_executeKeyed keeps ref⟩

/-- A check that is executed while it is taken off its host stays away, and so it is when the
executor itself takes it off. -/
theorem executions_only_keep_values_of_removed :
    let ordered := ((Agent.empty {}).perform
      (.registerServer { address := "a", hosts := [{ name := "h" }] })).perform
        (.applyOrders 0 [{ key := "k", delay := 60 }] default)
    let moves : List Move := [.executeKeyed 0 "k", .applyOrders 0 [] default]
    let waiting := run ⟨ordered, []⟩ moves
    let last : Move := .proceed 0 (.value "v") default (.create .memory (.memory .create))
    let removing : Surroundings :=
      { Surroundings.ending (.value "v") with
        execute := fun _ _ => { meanwhile := [.applyOrdersTo 0 []], outcome := .value "v" } }
    let collecting : Collecting := ⟨{ agent := ordered, clock := default }, .create .memory (.memory .create)⟩
    last.isOperation = false ∧ waiting.written? last = some (0, "k", "v", default) ∧
      (waiting.step last).agent = waiting.agent ∧
      ∃ executions, GoesOn (step ⟨ordered, []⟩ (.executeKeyed 0 "k"))
        ⟨(collecting.executeKeyed removing 0 "k").2.world.agent, executions⟩ := by
  intro ordered moves waiting last removing collecting
  have written : waiting.written? last = some (0, "k", "v", default) := by decide +kernel
  have wrote := (executions_only_keep_values ⟨ordered, []⟩ moves).2.1 last rfl
  have gone : waiting.agent.check? 0 "k" = none := by decide +kernel
  have keeps : removing.KeepsHosts := fun _ _ intervention inside => by
    rw [List.mem_singleton.mp inside]
    rfl
  refine ⟨rfl, written, ?_, ?_⟩
  · rw [written] at wrote
    exact wrote.absent gone
  · exact ((executions_only_keep_values ⟨ordered, []⟩ moves).2.2 removing keeps collecting 0).2 "k"

end Activity

end CheckRounds
