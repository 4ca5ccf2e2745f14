import CheckRounds.Controller.Task

namespace CheckRounds

/-! The loop that drives an agent.

Commands are queued and taken in order.  Ticks of the sweep timer and of the delay timers,
the commands, and the steps of the work that they started may come in any order.  The
sweep timer starts no sweep while the one that it started last is under way.
-/

inductive Command
  | refreshNow (ticket : Nat)
  | dispatchNow (ticket delay : Nat)
  | usePolicy (policy : WorkPolicy)
  | useCollation (mode : CollationMode)
  | getStats (ticket : Nat)
  | shutdown
deriving DecidableEq, Repr

namespace Command

def name : Command → String
  | .refreshNow _ => "RefreshNow"
  | .dispatchNow .. => "DispatchNow"
  | .usePolicy _ => "SetThreadPolicy"
  | .useCollation _ => "SetCollation"
  | .getStats _ => "GetStats"
  | .shutdown => "Shutdown"

/-- The number under which a command wants its answer, if it wants one. -/
def ticket? : Command → Option Nat
  | .refreshNow ticket | .dispatchNow ticket _ | .getStats ticket => some ticket
  | _ => none

end Command

/-- Why a command has no answer: it could not be queued, or it was never taken. -/
inductive CommandFault
  | notSent (command : Command)
  | notAnswered
deriving DecidableEq, Repr

def CommandFault.message : CommandFault → String
  | .notSent command => "failed to send " ++ command.name ++ " command"
  | .notAnswered => "failed to receive response"

inductive Origin
  | sweepTimer
  | delayTimer
  | ticket (number : Nat)
deriving DecidableEq, Repr

structure Task where
  origin : Origin
  stage : Stage

/-- Something that happens to the loop.  `advance` is a step of the task at a position. -/
inductive Happening
  | queue (command : Command)
  | sweepTick
  | delayTick (delay : Nat)
  | receive
  | advance (position : Nat)
deriving DecidableEq, Repr

structure Controller where
  world : World
  running : Bool := true
  /-- Whether the sweep that the timer started last is under way. -/
  sweeping : Bool := false
  commands : List Command := []
  tasks : List Task := []
  /-- The answers so far, each under its ticket. -/
  answers : List (Nat × Except CommandFault Tidings) := []

namespace Controller

variable (surroundings : Surroundings)

def launch (controller : Controller) (origin : Origin) (stage : Stage) : Controller :=
  { controller with tasks := controller.tasks ++ [⟨origin, stage⟩] }

def answer (controller : Controller) (ticket : Nat) (answer : Except CommandFault Tidings) :
    Controller :=
  { controller with answers := controller.answers ++ [(ticket, answer)] }

def mapAgent (controller : Controller) (change : Agent → Agent) : Controller :=
  { controller with world := controller.world.mapAgent change }

/-- Stops the loop; the commands that wait get no answer. -/
def stop (controller : Controller) : Controller :=
  (controller.commands.filterMap Command.ticket?).foldl
    (fun controller ticket => controller.answer ticket (.error .notAnswered))
    { controller with running := false, commands := [] }

def obey (controller : Controller) : Command → Controller
  | .refreshNow ticket => controller.launch (.ticket ticket) .sweep
  | .dispatchNow ticket delay => controller.launch (.ticket ticket) (.dispatch delay)
  | .usePolicy policy => controller.mapAgent (·.usePolicy policy)
  | .useCollation mode => controller.mapAgent (·.useCollation mode)
  | .getStats ticket => controller.answer ticket (.ok (.overview controller.world.agent.overview))
  | .shutdown => controller.stop

/-- Queues a command.  After the loop has stopped there is only a fault to tell. -/
def queue (controller : Controller) (command : Command) : Controller :=
  if controller.running then { controller with commands := controller.commands ++ [command] }
  else
    match command.ticket? with
    | some ticket => controller.answer ticket (.error (.notSent command))
    | none => controller

def receive (controller : Controller) : Controller :=
  match controller.commands with
  | [] => controller
  | command :: rest => { controller with commands := rest }.obey command

def sweepTick (controller : Controller) : Controller :=
  if controller.running && !controller.sweeping then
    { controller with sweeping := true }.launch .sweepTimer .sweep
  else controller

def delayTick (controller : Controller) (delay : Nat) : Controller :=
  if controller.running then controller.launch .delayTimer (.dispatch delay) else controller

def conclude (controller : Controller) (tidings : Tidings) : Origin → Controller
  | .sweepTimer => { controller with sweeping := false }
  | .delayTimer => controller
  | .ticket number => controller.answer number (.ok tidings)

def advance (controller : Controller) (position : Nat) : Controller :=
  match controller.tasks[position]? with
  | none => controller
  | some task =>
      match task.stage.step surroundings controller.world with
      | (world, .going stage) =>
          { controller with world, tasks := controller.tasks.set position { task with stage } }
      | (world, .done tidings) =>
          { controller with world, tasks := controller.tasks.eraseIdx position }.conclude tidings
            task.origin

def step (controller : Controller) : Happening → Controller
  | .queue command => controller.queue command
  | .sweepTick => controller.sweepTick
  | .delayTick delay => controller.delayTick delay
  | .receive => controller.receive
  | .advance position => controller.advance surroundings position

def run (controller : Controller) (happenings : List Happening) : Controller :=
  happenings.foldl (step surroundings) controller

/-- The sweeps of all origins that are under way. -/
def sweepsInFlight (controller : Controller) : List Task :=
  controller.tasks.filter fun task =>
    match task.stage with
    | .sweep | .sweeping _ => true
    | _ => false

def answer? (controller : Controller) (ticket : Nat) : Option (Except CommandFault Tidings) :=
  controller.answers.lookup ticket

def phasesLeft (controller : Controller) : Nat :=
  controller.tasks.foldr (fun task phases => task.stage.phasesLeft + phases) 0

def stepsLeft (controller : Controller) : Nat :=
  controller.tasks.foldr (fun task steps => task.stage.stepsLeft + 1 + steps) 0

theorem commands_answer_foldl {controller : Controller} {tickets : List Nat}
    {reply : Except CommandFault Tidings} :
    (tickets.foldl (fun controller ticket => controller.answer ticket reply) controller).commands =
      controller.commands := by
  induction tickets generalizing controller with
  | nil => rfl
  | cons ticket rest ih => exact ih

theorem commands_obey (controller : Controller) (command : Command) :
    (controller.obey command).commands.length ≤ controller.commands.length := by
  cases command
  case shutdown => simp only [obey, stop, commands_answer_foldl, List.length_nil, Nat.zero_le]
  all_goals exact Nat.le_refl _

theorem commands_receive {controller : Controller} {command : Command} {rest : List Command}
    (queued : controller.commands = command :: rest) :
    controller.receive.commands.length < controller.commands.length := by
  have fewer := commands_obey { controller with commands := rest } command
  simp only [receive, queued, List.length_cons] at fewer ⊢
  omega

theorem tasks_conclude {controller : Controller} {tidings : Tidings} {origin : Origin} :
    (controller.conclude tidings origin).tasks = controller.tasks := by cases origin <;> rfl

theorem commands_conclude {controller : Controller} {tidings : Tidings} {origin : Origin} :
    (controller.conclude tidings origin).commands = controller.commands := by cases origin <;> rfl

theorem commands_advance {controller : Controller} {position : Nat} :
    (controller.advance surroundings position).commands = controller.commands := by
  unfold advance
  split
  · rfl
  · split
    · rfl
    · exact commands_conclude

/-- A step of the first task brings it nearer to its end. -/
theorem advance_zero {controller : Controller} {task : Task} {rest : List Task}
    (first : controller.tasks = task :: rest) :
    Prod.Lex (· < ·) (· < ·)
      ((controller.advance surroundings 0).phasesLeft, (controller.advance surroundings 0).stepsLeft)
      (controller.phasesLeft, controller.stepsLeft) := by
  have here : controller.tasks[0]? = some task := by rw [first]; rfl
  unfold advance
  rw [here]
  dsimp only
  split
  case h_1 world stage stepped =>
    have nearer := Stage.nearer_step (congrArg Prod.snd stepped)
    simp only [phasesLeft, stepsLeft, first, List.set_cons_zero, List.foldr_cons]
    rcases Prod.lex_def.mp nearer with fewer | ⟨same, fewer⟩
    · exact Prod.Lex.left _ _ (Nat.add_lt_add_right fewer _)
    · dsimp only at same fewer
      rw [same]
      exact Prod.Lex.right _ (by omega)
  case h_2 world tidings stepped =>
    simp only [phasesLeft, stepsLeft, tasks_conclude, first, List.eraseIdx_zero, List.tail_cons,
      List.foldr_cons]
    rcases Nat.eq_zero_or_pos task.stage.phasesLeft with last | further
    · rw [last, Nat.zero_add]
      exact Prod.Lex.right _ (by omega)
    · exact Prod.Lex.left _ _ (by omega)

/-- Takes every command that is queued and does all work to its end, the oldest first. -/
def settle (controller : Controller) : Controller :=
  match _commands : controller.commands with
  | _ :: _ => controller.receive.settle
  | [] =>
      match _tasks : controller.tasks with
      | _ :: _ => (controller.advance surroundings 0).settle
      | [] => controller
termination_by
  (controller.commands.length, controller.phasesLeft, controller.stepsLeft)
decreasing_by
  · exact Prod.Lex.left _ _ (commands_receive (by assumption))
  · rw [commands_advance]
    exact Prod.Lex.right _ (advance_zero surroundings (by assumption))

end Controller

end CheckRounds
