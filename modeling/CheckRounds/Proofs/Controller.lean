import CheckRounds.Controller
import CheckRounds.Proofs.Sweep

namespace CheckRounds

/-! Sweeps that are under way at the same time.

The sweep timer starts one sweep at a time, whatever happens in between.  A sweep that is
asked for by a command is started at once, so there may be one more sweep under way for every
such command.
-/

/-! ### Stages -/

namespace Stage

def isSweep : Stage → Bool
  | .sweep | .sweeping _ => true
  | .dispatch _ | .opening .. | .dividing .. | .rounds .. => false

/-- Work that goes on stays what it is. -/
theorem isSweep_step {surroundings : Surroundings} {world : World} {stage next : Stage}
    (stepped : (stage.step surroundings world).2 = .going next) : next.isSweep = stage.isSweep := by
  unfold step at stepped
  split at stepped
  case h_1 => cases stepped; rfl
  case h_2 => cases stepped
  case h_3 => cases stepped; rfl
  case h_4 => cases stepped; rfl
  case h_5 => cases stepped; rfl
  case h_6 => split at stepped <;> cases stepped <;> rfl
  case h_7 => cases stepped; rfl
  case h_8 =>
    split at stepped
    · cases stepped; rfl
    · split at stepped <;> cases stepped
      rfl

/-- The hosts that a sweep has still to ask for. -/
def waitingHosts : Stage → List (ServerRef × HostRef)
  | .sweeping progress => progress.waiting
  | _ => []

end Stage

def Command.isRefresh : Command → Bool
  | .refreshNow _ => true
  | _ => false

/-- Whether a sweep is asked for by a command. -/
def Happening.isRequest : Happening → Bool
  | .queue command => command.isRefresh
  | _ => false

/-- A task does what it was started for: a sweep of a ticket was asked for under the ticket. -/
def Task.Fits (happened : List Happening) (task : Task) : Prop :=
  match task.origin with
  | .sweepTimer => task.stage.isSweep = true
  | .delayTimer => task.stage.isSweep = false
  | .ticket number => task.stage.isSweep = true → .queue (.refreshNow number) ∈ happened

theorem Task.Fits.mono {happened : List Happening} {task : Task} (fits : task.Fits happened)
    (more : List Happening) : task.Fits (happened ++ more) := by
  obtain ⟨origin, stage⟩ := task
  cases origin with
  | sweepTimer => exact fits
  | delayTimer => exact fits
  | ticket number => exact fun sweeps => List.mem_append_left more (fits sweeps)

theorem Task.Fits.going {happened : List Happening} {task : Task} {stage : Stage}
    (fits : task.Fits happened) (same : stage.isSweep = task.stage.isSweep) :
    ({ task with stage } : Task).Fits happened := by
  simpa only [Task.Fits, same] using fits

namespace Controller

variable {surroundings : Surroundings} {controller : Controller} {happened : List Happening}

theorem sweepsInFlight_eq (controller : Controller) :
    controller.sweepsInFlight = controller.tasks.filter (·.stage.isSweep) := by
  refine List.filter_congr fun task _ => ?_
  cases task.stage <;> rfl

/-- What the loop has started fits what has happened to it. -/
structure Flights (happened : List Happening) (controller : Controller) : Prop where
  timer : controller.tasks.countP (·.origin = .sweepTimer) = controller.sweeping.toNat
  fits : ∀ task ∈ controller.tasks, task.Fits happened
  queued : ∀ number, .refreshNow number ∈ controller.commands →
    .queue (.refreshNow number) ∈ happened
  bound : controller.tasks.countP (·.stage.isSweep) +
      controller.commands.countP Command.isRefresh ≤
    controller.sweeping.toNat + happened.countP Happening.isRequest

theorem Flights.mono (flights : Flights happened controller) (more : List Happening) :
    Flights (happened ++ more) controller where
  timer := flights.timer
  fits task inside := (flights.fits task inside).mono more
  queued number inside := List.mem_append_left more (flights.queued number inside)
  bound := by
    have bound := flights.bound
    rw [List.countP_append]
    omega

theorem Flights.answer (flights : Flights happened controller) (ticket : Nat)
    (reply : Except CommandFault Tidings) : Flights happened (controller.answer ticket reply) :=
  ⟨flights.timer, flights.fits, flights.queued, flights.bound⟩

theorem Flights.queue (flights : Flights happened controller) (command : Command) :
    Flights (happened ++ [.queue command]) (controller.queue command) := by
  unfold Controller.queue
  split
  · have more := flights.mono [.queue command]
    constructor
    case timer => exact more.timer
    case fits => exact more.fits
    case queued =>
      intro number inside
      rcases List.mem_append.mp inside with before | added
      · exact more.queued number before
      · rw [← List.mem_singleton.mp added]
        exact List.mem_append_right happened List.mem_cons_self
    case bound =>
      have bound := flights.bound
      have same : Happening.isRequest (.queue command) = command.isRefresh := rfl
      simp only [List.countP_append, List.countP_singleton, same]
      omega
  · split
    · exact (flights.mono _).answer _ _
    · exact flights.mono _

/-- A task may be started if it fits and its place in the counts is left free. -/
theorem flights_launch {origin : Origin} {stage : Stage}
    (timer : controller.tasks.countP (·.origin = .sweepTimer) + (decide (origin = .sweepTimer)).toNat =
      controller.sweeping.toNat)
    (fits : ∀ task ∈ controller.tasks, task.Fits happened) (fitting : Task.Fits happened ⟨origin, stage⟩)
    (queued : ∀ number, .refreshNow number ∈ controller.commands →
      .queue (.refreshNow number) ∈ happened)
    (bound : controller.tasks.countP (·.stage.isSweep) + stage.isSweep.toNat +
        controller.commands.countP Command.isRefresh ≤
      controller.sweeping.toNat + happened.countP Happening.isRequest) :
    Flights happened (controller.launch origin stage) := by
  have counted : ∀ counts : Task → Bool, (controller.launch origin stage).tasks.countP counts =
      controller.tasks.countP counts + (counts ⟨origin, stage⟩).toNat := by
    intro counts
    rw [Controller.launch, List.countP_append, List.countP_singleton]
    cases counts ⟨origin, stage⟩ <;> rfl
  constructor
  case timer => rw [counted]; exact timer
  case fits =>
    intro task inside
    rcases List.mem_append.mp inside with before | added
    · exact fits task before
    · rw [List.mem_singleton.mp added]
      exact fitting
  case queued => exact queued
  case bound => rw [counted]; exact bound

theorem Flights.launch (flights : Flights happened controller) {origin : Origin} {stage : Stage}
    (notTimer : origin ≠ .sweepTimer) (notSweep : stage.isSweep = false) :
    Flights happened (controller.launch origin stage) := by
  refine flights_launch ?_ flights.fits ?_ flights.queued ?_
  · simpa [notTimer] using flights.timer
  · cases origin with
    | sweepTimer => contradiction
    | delayTimer => exact notSweep
    | ticket number => exact fun sweeps => absurd (notSweep.symm.trans sweeps) (by simp)
  · simpa [notSweep] using flights.bound

theorem Flights.stop (flights : Flights happened controller) :
    Flights happened controller.stop := by
  have emptied : Flights happened { controller with running := false, commands := [] } := by
    constructor
    case timer => exact flights.timer
    case fits => exact flights.fits
    case queued => exact fun _ inside => absurd inside List.not_mem_nil
    case bound => exact Nat.le_trans (Nat.le_add_right _ _) flights.bound
  unfold Controller.stop
  generalize controller.commands.filterMap Command.ticket? = tickets
  generalize { controller with running := false, commands := [] } = stopped at emptied ⊢
  induction tickets generalizing stopped with
  | nil => exact emptied
  | cons ticket rest ih => exact ih _ (emptied.answer ticket _)

theorem Flights.receive (flights : Flights happened controller) :
    Flights happened controller.receive := by
  unfold Controller.receive
  split
  · exact flights
  · next command rest queued =>
      have queuedRest : ∀ number, .refreshNow number ∈ rest →
          .queue (.refreshNow number) ∈ happened := by
        intro number inside
        exact flights.queued number (queued ▸ List.mem_cons_of_mem command inside)
      have bound := flights.bound
      rw [queued, List.countP_cons] at bound
      have taken : Flights happened { controller with commands := rest } :=
        ⟨flights.timer, flights.fits, queuedRest, by dsimp only; omega⟩
      cases command with
      | refreshNow number =>
          have asked := flights.queued number (queued ▸ List.mem_cons_self)
          exact flights_launch flights.timer flights.fits (fun _ => asked) queuedRest (by
            simpa [Stage.isSweep, Command.isRefresh, Nat.add_assoc, Nat.add_comm] using bound)
      | dispatchNow number delay => exact taken.launch (by simp) rfl
      | usePolicy policy => exact ⟨taken.timer, taken.fits, taken.queued, taken.bound⟩
      | useCollation mode => exact ⟨taken.timer, taken.fits, taken.queued, taken.bound⟩
      | getStats number => exact taken.answer number _
      | shutdown => exact taken.stop

theorem Flights.sweepTick (flights : Flights happened controller) :
    Flights happened controller.sweepTick := by
  unfold Controller.sweepTick
  split
  · next ready =>
      have idle : controller.sweeping = false := by simp_all
      have timer := flights.timer
      have bound := flights.bound
      rw [idle] at timer bound
      refine flights_launch ?_ flights.fits rfl flights.queued ?_
      · simpa using timer
      · simp only [Stage.isSweep, Bool.toNat_true, Bool.toNat_false] at bound ⊢
        omega
  · exact flights

theorem Flights.delayTick (flights : Flights happened controller) (delay : Nat) :
    Flights happened (controller.delayTick delay) := by
  unfold Controller.delayTick
  split
  · exact flights.launch (by simp) rfl
  · exact flights

theorem countP_of_found {task : Task} {position : Nat}
    (found : controller.tasks[position]? = some task) (counts : Task → Bool) :
    controller.tasks.countP counts =
      (controller.tasks.eraseIdx position).countP counts + if counts task then 1 else 0 := by
  obtain ⟨inside, rfl⟩ := List.getElem?_eq_some_iff.mp found
  rw [(List.getElem_cons_eraseIdx_perm inside).symm.countP_eq, List.countP_cons]

/-- A task that goes on stays what it is in all counts. -/
theorem Flights.goOn (flights : Flights happened controller) {position : Nat} {task : Task}
    {stage : Stage} (found : controller.tasks[position]? = some task)
    (same : stage.isSweep = task.stage.isSweep) (world : World) :
    Flights happened
      { controller with world, tasks := controller.tasks.set position { task with stage } } := by
  obtain ⟨inside, _⟩ := List.getElem?_eq_some_iff.mp found
  have timer := flights.timer
  have bound := flights.bound
  rw [countP_of_found found] at timer bound
  have after := List.set_perm_cons_eraseIdx inside ({ task with stage } : Task)
  constructor
  case timer => rw [after.countP_eq, List.countP_cons]; exact timer
  case fits =>
    intro other inside
    rcases List.mem_or_eq_of_mem_set inside with before | rfl
    · exact flights.fits other before
    · exact (flights.fits task (List.mem_of_getElem? found)).going same
  case queued => exact flights.queued
  case bound => rw [after.countP_eq, List.countP_cons, same]; exact bound

/-- A task that ends leaves the counts, and with the timer's task the flag falls. -/
theorem Flights.conclude (flights : Flights happened controller) {position : Nat} {task : Task}
    (found : controller.tasks[position]? = some task) (world : World) (tidings : Tidings) :
    Flights happened ({ controller with
      world, tasks := controller.tasks.eraseIdx position }.conclude tidings task.origin) := by
  have taskFits := flights.fits task (List.mem_of_getElem? found)
  have restFits : ∀ other ∈ controller.tasks.eraseIdx position, other.Fits happened :=
    fun other inside => flights.fits other (List.mem_of_mem_eraseIdx inside)
  have timer := flights.timer
  have bound := flights.bound
  rw [countP_of_found found] at timer bound
  obtain ⟨origin, stage⟩ := task
  cases origin with
  | sweepTimer =>
      have sweeps : stage.isSweep = true := taskFits
      have flagged := Bool.toNat_le controller.sweeping
      simp only [decide_true, if_true, sweeps] at timer bound
      refine ⟨?_, restFits, flights.queued, ?_⟩
      · simp only [Controller.conclude, Bool.toNat_false]
        omega
      · simp only [Controller.conclude, Bool.toNat_false]
        omega
  | delayTimer =>
      refine ⟨by simpa [Controller.conclude] using timer, restFits, flights.queued, ?_⟩
      simp only [Controller.conclude]
      omega
  | ticket number =>
      have ended : Flights happened
          { controller with world, tasks := controller.tasks.eraseIdx position } :=
        ⟨by simpa using timer, restFits, flights.queued, by dsimp only; omega⟩
      exact ended.answer number _

theorem Flights.advance (flights : Flights happened controller) (position : Nat) :
    Flights happened (controller.advance surroundings position) := by
  unfold Controller.advance
  split
  · exact flights
  · next task found =>
      split
      · next world stage stepped =>
          exact flights.goOn found (Stage.isSweep_step (congrArg Prod.snd stepped)) world
      · next world tidings stepped => exact flights.conclude found world tidings

theorem Flights.step (flights : Flights happened controller) (happening : Happening) :
    Flights (happened ++ [happening]) (controller.step surroundings happening) := by
  cases happening with
  | queue command => exact flights.queue command
  | sweepTick => exact (flights.mono _).sweepTick
  | delayTick delay => exact (flights.mono _).delayTick delay
  | receive => exact (flights.mono _).receive
  | advance position => exact (flights.mono _).advance position

theorem Flights.run (flights : Flights happened controller) (surroundings : Surroundings)
    (happenings : List Happening) :
    Flights (happened ++ happenings) (controller.run surroundings happenings) := by
  induction happenings generalizing happened controller with
  | nil => rwa [List.append_nil]
  | cons happening rest ih =>
      rw [List.append_cons]
      exact ih (flights.step happening)

theorem flights_start (world : World) : Flights [] ({ world } : Controller) :=
  ⟨rfl, fun _ inside => absurd inside List.not_mem_nil,
    fun _ inside => absurd inside List.not_mem_nil, Nat.le_refl 0⟩

/-- The sweep timer has one sweep under way if the flag says so, and otherwise none.  Any other
sweep that is under way was asked for by a command, so there is at most one more than there
were such commands. -/
theorem timer_runs_one_sweep (surroundings : Surroundings) (world : World)
    (happenings : List Happening) :
    let after := run surroundings { world } happenings
    after.sweepsInFlight.countP (·.origin = .sweepTimer) = after.sweeping.toNat ∧
      (∀ task ∈ after.sweepsInFlight, task.origin ≠ .sweepTimer →
        ∃ number, task.origin = .ticket number ∧ .queue (.refreshNow number) ∈ happenings) ∧
      after.sweepsInFlight.length ≤ after.sweeping.toNat + happenings.countP Happening.isRequest := by
  have flights := (flights_start world).run surroundings happenings
  rw [List.nil_append] at flights
  generalize run surroundings { world } happenings = after at flights ⊢
  dsimp only
  rw [sweepsInFlight_eq]
  refine ⟨?_, ?_, ?_⟩
  · rw [List.countP_filter, ← flights.timer]
    refine List.countP_congr fun task inside => ?_
    have fits := flights.fits task inside
    simp only [Bool.and_eq_true, decide_eq_true_eq, and_iff_left_iff_imp]
    intro ofTimer
    rwa [Task.Fits, ofTimer] at fits
  · intro task inside notTimer
    obtain ⟨inside, sweeps⟩ := List.mem_filter.mp inside
    have fits := flights.fits task inside
    obtain ⟨origin, stage⟩ := task
    cases origin with
    | sweepTimer => contradiction
    | delayTimer => exact absurd (sweeps.symm.trans fits) (by simp)
    | ticket number => exact ⟨number, rfl, fits sweeps⟩
  · rw [← List.countP_eq_length_filter]
    exact Nat.le_trans (Nat.le_add_right _ _) flights.bound

/-! ### More than one sweep -/

/-- Some sweeps are under way, all of which have still to ask for the same hosts. -/
structure Crowded (due : List (ServerRef × HostRef)) (now : Instant) (count : Nat)
    (controller : Controller) : Prop where
  running : controller.running = true
  idle : controller.commands = []
  count : controller.tasks.length = count
  sweeps : ∀ task ∈ controller.tasks, task.stage = .sweeping ⟨due, {}⟩
  clock : controller.world.clock = now
  due : controller.world.agent.waitingOn now controller.world.agent.serverRefs = due

variable {due : List (ServerRef × HostRef)} {now : Instant} {count : Nat}

theorem advance_launched (origin : Origin) :
    (controller.launch origin .sweep).advance surroundings controller.tasks.length =
      { controller with
        world := (RefreshSweep.start controller.world).2
        tasks := controller.tasks ++ [⟨origin, .sweeping (RefreshSweep.start controller.world).1⟩] } := by
  have last : (controller.launch origin .sweep).tasks[controller.tasks.length]? =
      some ⟨origin, .sweep⟩ := by simp [Controller.launch]
  unfold Controller.advance
  rw [last]
  simp [Stage.step, Controller.launch]

/-- A sweep that begins asks for all the hosts that the others ask for. -/
theorem Crowded.begin (crowded : Crowded due now count controller) (surroundings : Surroundings)
    (origin : Origin) :
    Crowded due now (count + 1)
      ((controller.launch origin .sweep).advance surroundings controller.tasks.length) := by
  obtain ⟨running, idle, counted, sweeps, rfl, waiting⟩ := crowded
  rw [advance_launched, RefreshSweep.start_eq, waiting]
  constructor
  case running => exact running
  case idle => exact idle
  case count => simp [counted]
  case sweeps =>
    intro task inside
    rcases List.mem_append.mp inside with before | added
    · exact sweeps task before
    · rw [List.mem_singleton.mp added]
  case clock => rfl
  case due =>
    dsimp only
    rw [Agent.waitingOn_askHosts, Agent.serverRefs_askHosts, waiting]

/-- A command that asks for a sweep makes one more, however many there are. -/
theorem Crowded.request (crowded : Crowded due now count controller) (number : Nat) :
    Crowded due now (count + 1)
      (controller.run surroundings [.queue (.refreshNow number), .receive, .advance count]) := by
  have taken : (controller.queue (.refreshNow number)).receive =
      controller.launch (.ticket number) .sweep := by
    obtain ⟨world, running, sweeping, commands, tasks, answers⟩ := controller
    cases crowded.running
    cases crowded.idle
    rfl
  have begun := crowded.begin surroundings (.ticket number)
  rw [crowded.count, ← taken] at begun
  exact begun

/-- Nothing keeps a command from starting a sweep while others are under way: for any number of
requests there is an order of events after which as many sweeps, and the timer's, have all still
to ask for every host that is to be refreshed. -/
theorem exists_sweeps_at_once (surroundings : Surroundings) (world : World) (requests : Nat) :
    ∃ happenings : List Happening, happenings.countP Happening.isRequest = requests ∧
      let after := run surroundings { world } happenings
      after.sweepsInFlight.length = requests + 1 ∧
        ∀ task ∈ after.sweepsInFlight, task.stage.waitingHosts =
          world.agent.waitingOn world.clock world.agent.serverRefs := by
  suffices crowd : ∃ happenings : List Happening, happenings.countP Happening.isRequest = requests ∧
      Crowded (world.agent.waitingOn world.clock world.agent.serverRefs) world.clock (requests + 1)
        (run surroundings { world } happenings) by
    obtain ⟨happenings, asked, crowded⟩ := crowd
    have all : (run surroundings { world } happenings).sweepsInFlight =
        (run surroundings { world } happenings).tasks := by
      rw [sweepsInFlight_eq, List.filter_eq_self]
      intro task inside
      rw [crowded.sweeps task inside]
      rfl
    refine ⟨happenings, asked, ?_⟩
    dsimp only
    rw [all]
    refine ⟨crowded.count, fun task inside => ?_⟩
    rw [crowded.sweeps task inside]
    rfl
  induction requests with
  | zero =>
      have empty : Crowded (world.agent.waitingOn world.clock world.agent.serverRefs) world.clock 0
          { world, sweeping := true } :=
        ⟨rfl, rfl, rfl, fun _ inside => absurd inside List.not_mem_nil, rfl, rfl⟩
      exact ⟨[.sweepTick, .advance 0], rfl, empty.begin surroundings .sweepTimer⟩
  | succ requests ih =>
      obtain ⟨happenings, asked, crowded⟩ := ih
      refine ⟨happenings ++ [.queue (.refreshNow requests), .receive, .advance (requests + 1)], ?_, ?_⟩
      · rw [List.countP_append, asked]
        rfl
      · rw [run, List.foldl_append]
        exact crowded.request requests

/-- The timer's sweep and one that was asked for both wait for the orders of the same host, and
both ask for them. -/
theorem two_sweeps_at_once :
    let registered := (Agent.empty {}).perform
      (.registerServer { address := "a", hosts := [{ name := "h" }] })
    let surroundings : Surroundings :=
      { execute := fun _ _ => { outcome := .crash }
        peer := fun _ => .listening { answer := fun _ => { reply := none } }
        tracing := false
        newFile := fun _ _ => .error .noDirectory }
    let begun := run surroundings { world := { agent := registered, clock := default } }
      [.sweepTick, .queue (.refreshNow 0), .receive, .advance 0, .advance 1]
    begun.sweepsInFlight.map (·.origin) = [.sweepTimer, .ticket 0] ∧
      begun.sweepsInFlight.map (·.stage.waitingHosts) = [[(0, 0)], [(0, 0)]] ∧
      (begun.run surroundings [.advance 0, .advance 1]).world.contacts =
        List.replicate 2 ⟨"a:10051", some (Frame.encode (ordersRequest "h"))⟩ := by
  decide +kernel

end Controller

end CheckRounds
