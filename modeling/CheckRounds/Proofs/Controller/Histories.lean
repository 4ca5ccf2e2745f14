import CheckRounds.Proofs.Controller.Turns

namespace CheckRounds

/-! What a run of the loop makes of every task that it launched.

A task is known by the happening that launched it.  Its place among the tasks moves when one
before it ends, and the turns that it has are those of its place.  So an answer under a ticket
can be traced to the command with this ticket, and to the turns of the task that the command
asked for.
-/

variable {surroundings : Surroundings}

/-- The task that a command asks for. -/
def Command.task? : Command → Option Task
  | .refreshNow ticket => some ⟨.ticket ticket, .sweep⟩
  | .dispatchNow ticket delay => some ⟨.ticket ticket, .dispatch delay⟩
  | .usePolicy _ | .useCollation _ | .getStats _ | .shutdown => none

namespace Controller

variable {controller begun : Controller} {happened : List Happening}

theorem run_append (controller : Controller) (first second : List Happening) :
    controller.run surroundings (first ++ second) =
      (controller.run surroundings first).run surroundings second :=
  List.foldl_append

theorem run_concat (controller : Controller) (happenings : List Happening) (happening : Happening) :
    controller.run surroundings (happenings ++ [happening]) =
      (controller.run surroundings happenings).step surroundings happening :=
  run_append controller happenings [happening]

/-! ### What one happening does -/

/-- The task that a happening launches, if it launches one. -/
def launched? (controller : Controller) : Happening → Option Task
  | .sweepTick =>
      if controller.running && !controller.sweeping then some ⟨.sweepTimer, .sweep⟩ else none
  | .delayTick delay => if controller.running then some ⟨.delayTimer, .dispatch delay⟩ else none
  | .receive => controller.commands.head?.bind Command.task?
  | .queue _ | .advance _ => none

/-- What the task at a position has to tell, if it is done with its next step. -/
def tidings? (surroundings : Surroundings) (controller : Controller) (position : Nat) :
    Option (Origin × Tidings) := do
  let task ← controller.tasks[position]?
  match (task.stage.step surroundings controller.world).2 with
  | .done tidings => some (task.origin, tidings)
  | .going _ => none

/-- The answers that a happening gives. -/
def replies (surroundings : Surroundings) (controller : Controller) :
    Happening → List (Nat × Except CommandFault Tidings)
  | .queue command =>
      if controller.running then []
      else command.ticket?.toList.map fun ticket => (ticket, .error (.notSent command))
  | .receive =>
      match controller.commands with
      | .getStats ticket :: _ => [(ticket, .ok (.overview controller.world.agent.overview))]
      | .shutdown :: rest =>
          (rest.filterMap Command.ticket?).map fun ticket => (ticket, .error .notAnswered)
      | _ => []
  | .advance position =>
      match controller.tidings? surroundings position with
      | some (.ticket ticket, tidings) => [(ticket, .ok tidings)]
      | _ => []
  | .sweepTick | .delayTick _ => []

/-- A task is launched by a tick or by the command that is taken. -/
theorem launched_cases {happening : Happening} {task : Task}
    (launched : controller.launched? happening = some task) :
    (happening = .sweepTick ∧ task = ⟨.sweepTimer, .sweep⟩) ∨
      (∃ delay, happening = .delayTick delay ∧ task = ⟨.delayTimer, .dispatch delay⟩) ∨
      (happening = .receive ∧ ∃ command, controller.commands.head? = some command ∧
        command.task? = some task) := by
  cases happening with
  | queue | advance => cases launched
  | sweepTick =>
      rw [launched?] at launched
      split at launched <;> cases launched
      exact .inl ⟨rfl, rfl⟩
  | delayTick delay =>
      rw [launched?] at launched
      split at launched <;> cases launched
      exact .inr (.inl ⟨delay, rfl, rfl⟩)
  | receive => exact .inr (.inr ⟨rfl, Option.bind_eq_some_iff.mp launched⟩)

/-- Every task begins as a sweep or as a dispatch that has no round yet. -/
theorem keepsToSnapshots_of_launched {happening : Happening} {task : Task}
    (launched : controller.launched? happening = some task) : task.stage.KeepsToSnapshots [] := by
  obtain ⟨_, rfl⟩ | ⟨delay, _, rfl⟩ | ⟨_, command, _, asks⟩ := launched_cases launched
  · exact Stage.keepsToSnapshots_of_none rfl rfl
  · exact Stage.keepsToSnapshots_of_none rfl rfl
  · cases command <;> cases asks <;> exact Stage.keepsToSnapshots_of_none rfl rfl

theorem foldl_answer (tickets : List Nat) (reply : Except CommandFault Tidings)
    (controller : Controller) :
    tickets.foldl (fun controller ticket => controller.answer ticket reply) controller =
      { controller with answers := controller.answers ++ tickets.map (·, reply) } := by
  induction tickets generalizing controller with
  | nil => rw [List.foldl_nil, List.map_nil, List.append_nil]
  | cons ticket rest ih =>
      rw [List.foldl_cons, ih, List.map_cons, List.append_cons]
      rfl

theorem stop_eq (controller : Controller) :
    controller.stop =
      { controller with
        running := false
        commands := []
        answers := controller.answers ++
          (controller.commands.filterMap Command.ticket?).map (·, .error .notAnswered) } :=
  foldl_answer _ _ _

/-- A step of the task at a position finds no task there, or brings it further, or ends it. -/
theorem advance_cases (surroundings : Surroundings) (controller : Controller) (position : Nat) :
    (controller.tasks[position]? = none ∧ controller.advance surroundings position = controller) ∨
      ∃ task, controller.tasks[position]? = some task ∧
        let stepped := task.stage.step surroundings controller.world
        (∃ stage, stepped.2 = .going stage ∧
          controller.advance surroundings position =
            { controller with
              world := stepped.1
              tasks := controller.tasks.set position { task with stage } }) ∨
        ∃ tidings, stepped.2 = .done tidings ∧
          controller.advance surroundings position =
            { controller with
              world := stepped.1
              tasks := controller.tasks.eraseIdx position }.conclude tidings task.origin := by
  unfold advance
  cases controller.tasks[position]? with
  | none => exact .inl ⟨rfl, rfl⟩
  | some task =>
      refine .inr ⟨task, rfl, ?_⟩
      dsimp only
      generalize task.stage.step surroundings controller.world = stepped
      obtain ⟨world, progress⟩ := stepped
      cases progress with
      | going stage => exact .inl ⟨stage, rfl, rfl⟩
      | done tidings => exact .inr ⟨tidings, rfl, rfl⟩

theorem tidings?_of_missing {position : Nat} (missing : controller.tasks[position]? = none) :
    controller.tidings? surroundings position = none := by
  simp [tidings?, missing]

theorem tidings?_of_going {position : Nat} {task : Task} {stage : Stage}
    (found : controller.tasks[position]? = some task)
    (stepped : (task.stage.step surroundings controller.world).2 = .going stage) :
    controller.tidings? surroundings position = none := by
  simp [tidings?, found, stepped]

theorem tidings?_of_done {position : Nat} {task : Task} {tidings : Tidings}
    (found : controller.tasks[position]? = some task)
    (stepped : (task.stage.step surroundings controller.world).2 = .done tidings) :
    controller.tidings? surroundings position = some (task.origin, tidings) := by
  simp [tidings?, found, stepped]

theorem tasks_step (controller : Controller) {happening : Happening}
    (other : ∀ position, happening ≠ .advance position) :
    (controller.step surroundings happening).tasks =
      controller.tasks ++ (controller.launched? happening).toList := by
  cases happening with
  | queue command =>
      simp only [step, queue, launched?, Option.toList_none, List.append_nil]
      split
      · rfl
      · split <;> rfl
  | sweepTick =>
      simp only [step, sweepTick, launched?]
      split
      · rfl
      · exact (List.append_nil _).symm
  | delayTick delay =>
      simp only [step, delayTick, launched?]
      split
      · rfl
      · exact (List.append_nil _).symm
  | receive =>
      simp only [step, receive, launched?]
      cases controller.commands with
      | nil => exact (List.append_nil _).symm
      | cons command rest =>
          cases command with
          | shutdown =>
              simp only [obey, stop_eq]
              exact (List.append_nil _).symm
          | refreshNow ticket => rfl
          | dispatchNow ticket delay => rfl
          | usePolicy policy => exact (List.append_nil _).symm
          | useCollation mode => exact (List.append_nil _).symm
          | getStats ticket => exact (List.append_nil _).symm
  | advance position => exact absurd rfl (other position)

theorem answers_step (surroundings : Surroundings) (controller : Controller) (happening : Happening) :
    (controller.step surroundings happening).answers =
      controller.answers ++ controller.replies surroundings happening := by
  cases happening with
  | queue command =>
      simp only [step, queue, replies]
      split
      · exact (List.append_nil _).symm
      · cases command.ticket? with
        | none => exact (List.append_nil _).symm
        | some ticket => rfl
  | sweepTick =>
      simp only [step, sweepTick, replies, List.append_nil]
      split <;> rfl
  | delayTick delay =>
      simp only [step, delayTick, replies, List.append_nil]
      split <;> rfl
  | receive =>
      simp only [step, receive, replies]
      cases controller.commands with
      | nil => exact (List.append_nil _).symm
      | cons command rest =>
          cases command with
          | shutdown => simp only [obey, stop_eq]
          | getStats ticket => rfl
          | refreshNow ticket => exact (List.append_nil _).symm
          | dispatchNow ticket delay => exact (List.append_nil _).symm
          | usePolicy policy => exact (List.append_nil _).symm
          | useCollation mode => exact (List.append_nil _).symm
  | advance position =>
      rw [step]
      obtain ⟨missing, same⟩ | ⟨task, found, ⟨stage, stepped, went⟩ | ⟨tidings, stepped, ended⟩⟩ :=
        advance_cases surroundings controller position
      · rw [same, replies, tidings?_of_missing missing, List.append_nil]
      · rw [went, replies, tidings?_of_going found stepped, List.append_nil]
      · rw [ended, replies, tidings?_of_done found stepped]
        cases task.origin with
        | sweepTimer => exact (List.append_nil _).symm
        | delayTimer => exact (List.append_nil _).symm
        | ticket number => rfl

/-! ### Turns -/

/-- Where the task at a position is after a happening: one before it may have ended. -/
def positionAfter (surroundings : Surroundings) (controller : Controller) (position : Nat) :
    Happening → Nat
  | .advance ended =>
      if ended < position ∧ (controller.tidings? surroundings ended).isSome then position - 1
      else position
  | _ => position

def positionOf (surroundings : Surroundings) (controller : Controller) (position : Nat) :
    List Happening → Nat
  | [] => position
  | happening :: rest =>
      positionOf surroundings (controller.step surroundings happening)
        (controller.positionAfter surroundings position happening) rest

/-- The worlds in which the task at a position has its turns.  When it has ended, there may be
more of them, at which it has nothing left to do. -/
def turnsOf (surroundings : Surroundings) (controller : Controller) (position : Nat) :
    List Happening → List World
  | [] => []
  | happening :: rest =>
      (if happening = .advance position then [controller.world] else []) ++
        turnsOf surroundings (controller.step surroundings happening)
          (controller.positionAfter surroundings position happening) rest

theorem positionOf_concat (controller : Controller) (position : Nat) (happenings : List Happening)
    (happening : Happening) :
    controller.positionOf surroundings position (happenings ++ [happening]) =
      (controller.run surroundings happenings).positionAfter surroundings
        (controller.positionOf surroundings position happenings) happening := by
  induction happenings generalizing controller position with
  | nil => rfl
  | cons earlier rest ih => exact ih _ _

theorem turnsOf_append (controller : Controller) (position : Nat) (first second : List Happening) :
    controller.turnsOf surroundings position (first ++ second) =
      controller.turnsOf surroundings position first ++
        (controller.run surroundings first).turnsOf surroundings
          (controller.positionOf surroundings position first) second := by
  induction first generalizing controller position with
  | nil => rfl
  | cons happening rest ih =>
      rw [List.cons_append, turnsOf, ih, turnsOf, List.append_assoc]
      rfl

theorem moment_of_turn (controller : Controller) (position : Nat) (happenings : List Happening)
    {moment : World} (inside : moment ∈ controller.turnsOf surroundings position happenings) :
    ∃ earlier, earlier <+: happenings ∧ moment = (controller.run surroundings earlier).world := by
  induction happenings generalizing controller position with
  | nil => cases inside
  | cons happening rest ih =>
      rw [turnsOf, List.mem_append] at inside
      rcases inside with own | later
      · split at own
        · exact ⟨[], List.nil_prefix, List.mem_singleton.mp own⟩
        · cases own
      · obtain ⟨earlier, before, same⟩ := ih _ _ later
        exact ⟨happening :: earlier, List.cons_prefix_cons.mpr ⟨rfl, before⟩, same⟩

/-- The turns of the task that a happening launches, when others follow. -/
def turnsSince (surroundings : Surroundings) (controller : Controller) (launch : Happening)
    (late : List Happening) : List World :=
  (controller.step surroundings launch).turnsOf surroundings controller.tasks.length late

/-- How far the task has come that a happening launches at a stage, when others follow. -/
def progressOf (surroundings : Surroundings) (controller : Controller) (launch : Happening)
    (stage : Stage) (late : List Happening) : Progress :=
  (Progress.going stage).through surroundings (controller.turnsSince surroundings launch late)

/-- Where this task is after the happenings that follow. -/
def placeOf (surroundings : Surroundings) (controller : Controller) (launch : Happening)
    (late : List Happening) : Nat :=
  (controller.step surroundings launch).positionOf surroundings controller.tasks.length late

theorem placeOf_concat (controller : Controller) (launch : Happening) (late : List Happening)
    (happening : Happening) :
    controller.placeOf surroundings launch (late ++ [happening]) =
      (controller.run surroundings (launch :: late)).positionAfter surroundings
        (controller.placeOf surroundings launch late) happening :=
  positionOf_concat _ _ late happening

theorem progressOf_concat (controller : Controller) (launch : Happening) (stage : Stage)
    (late : List Happening) (happening : Happening) :
    controller.progressOf surroundings launch stage (late ++ [happening]) =
      if happening = .advance (controller.placeOf surroundings launch late) then
        (controller.progressOf surroundings launch stage late).turn surroundings
          (controller.run surroundings (launch :: late)).world
      else controller.progressOf surroundings launch stage late := by
  rw [progressOf, turnsSince, turnsOf_append, turnsOf, turnsOf, List.append_nil, ← placeOf,
    ← turnsSince]
  split
  · exact Progress.through_concat _ _ _
  · rw [List.append_nil]
    rfl

/-! ### Tasks under way -/

/-- A task at a position was launched by one of the happenings, and is as far as its turns since
then brought it. -/
def Tracked (surroundings : Surroundings) (begun : Controller) (happened : List Happening)
    (position : Nat) (task : Task) : Prop :=
  ∃ early launch late stage,
    happened = early ++ launch :: late ∧
    (begun.run surroundings early).launched? launch = some ⟨task.origin, stage⟩ ∧
    (begun.run surroundings early).placeOf surroundings launch late = position ∧
    (begun.run surroundings early).progressOf surroundings launch stage late = .going task.stage

variable {position : Nat} {task : Task} {happening : Happening}

theorem Tracked.elsewhere (tracked : Tracked surroundings begun happened position task)
    (other : happening ≠ .advance position) :
    Tracked surroundings begun (happened ++ [happening])
      ((begun.run surroundings happened).positionAfter surroundings position happening) task := by
  obtain ⟨early, launch, late, stage, rfl, launched, rfl, came⟩ := tracked
  refine ⟨early, launch, late ++ [happening], stage, ?_, launched, ?_, ?_⟩
  · rw [List.append_assoc, List.cons_append]
  · rw [placeOf_concat, run_append]
  · rw [progressOf_concat, if_neg other, came]

theorem tracked_launch (launched : (begun.run surroundings happened).launched? happening = some task) :
    Tracked surroundings begun (happened ++ [happening]) (begun.run surroundings happened).tasks.length
      task :=
  ⟨happened, happening, [], task.stage, rfl, launched, rfl, rfl⟩

/-- A turn of the task leaves it in its place, if it is not its last. -/
theorem Tracked.turn (tracked : Tracked surroundings begun happened position task) :
    ∃ early launch late stage,
      happened = early ++ launch :: late ∧
      (begun.run surroundings early).launched? launch = some ⟨task.origin, stage⟩ ∧
      (begun.run surroundings early).placeOf surroundings launch (late ++ [.advance position]) =
        position ∧
      (begun.run surroundings early).progressOf surroundings launch stage
          (late ++ [.advance position]) =
        (task.stage.step surroundings (begun.run surroundings happened).world).2 := by
  obtain ⟨early, launch, late, stage, rfl, launched, rfl, came⟩ := tracked
  refine ⟨early, launch, late, stage, rfl, launched, ?_, ?_⟩
  · rw [placeOf_concat, positionAfter, if_neg fun before => Nat.lt_irrefl _ before.1]
  · rw [progressOf_concat, if_pos rfl, came, ← run_append]
    rfl

theorem Tracked.going {stage : Stage} (tracked : Tracked surroundings begun happened position task)
    (stepped :
      (task.stage.step surroundings (begun.run surroundings happened).world).2 = .going stage) :
    Tracked surroundings begun (happened ++ [.advance position]) position { task with stage } := by
  obtain ⟨early, launch, late, first, rfl, launched, place, came⟩ := tracked.turn
  refine ⟨early, launch, late ++ [.advance position], first, ?_, launched, place, came.trans stepped⟩
  rw [List.append_assoc, List.cons_append]

theorem positionAfter_of_other (other : ∀ moved, happening ≠ .advance moved) :
    controller.positionAfter surroundings position happening = position := by
  cases happening with
  | advance moved => exact absurd rfl (other moved)
  | queue | sweepTick | delayTick | receive => rfl

theorem positionAfter_of_none {moved : Nat} (goesOn : controller.tidings? surroundings moved = none) :
    controller.positionAfter surroundings position (.advance moved) = position := by
  rw [positionAfter, goesOn, if_neg fun ends => by cases ends.2]

theorem positionAfter_of_some {moved : Nat} {told : Origin × Tidings}
    (ends : controller.tidings? surroundings moved = some told) :
    controller.positionAfter surroundings position (.advance moved) =
      if moved < position then position - 1 else position := by
  simp [positionAfter, ends]

def AllTracked (surroundings : Surroundings) (begun : Controller) (happened : List Happening) : Prop :=
  ∀ position task, (begun.run surroundings happened).tasks[position]? = some task →
    Tracked surroundings begun happened position task

theorem AllTracked.other (all : AllTracked surroundings begun happened)
    (other : ∀ moved, happening ≠ .advance moved) :
    AllTracked surroundings begun (happened ++ [happening]) := by
  intro position task found
  rw [run_concat, tasks_step _ other, List.getElem?_append] at found
  split at found
  · have tracked := (all position task found).elsewhere (other position)
    rwa [positionAfter_of_other other] at tracked
  · next behind =>
      cases launched : (begun.run surroundings happened).launched? happening with
      | none => rw [launched] at found; cases found
      | some newest =>
          rw [launched, Option.toList_some, List.getElem?_singleton] at found
          split at found
          · cases found
            have place : position = (begun.run surroundings happened).tasks.length := by omega
            rw [place]
            exact tracked_launch launched
          · cases found

theorem AllTracked.advance (all : AllTracked surroundings begun happened) (moved : Nat) :
    AllTracked surroundings begun (happened ++ [.advance moved]) := by
  intro position task found
  rw [run_concat, step] at found
  have elsewhere {before : Nat} (there : (begun.run surroundings happened).tasks[before]? = some task)
      (apart : moved ≠ before) : Tracked surroundings begun (happened ++ [.advance moved])
        ((begun.run surroundings happened).positionAfter surroundings before (.advance moved)) task :=
    (all before task there).elsewhere fun same => apart (Happening.advance.inj same)
  obtain ⟨missing, same⟩ | ⟨other, there, ⟨stage, stepped, went⟩ | ⟨tidings, stepped, ended⟩⟩ :=
    advance_cases surroundings (begun.run surroundings happened) moved
  · rw [same] at found
    have apart : moved ≠ position := by
      rintro rfl
      rw [missing] at found
      cases found
    have tracked := elsewhere found apart
    rwa [positionAfter_of_none (tidings?_of_missing missing)] at tracked
  · rw [went, List.getElem?_set] at found
    split at found
    · next here =>
        subst here
        obtain ⟨_, rfl⟩ : _ ∧ { other with stage } = task := by simpa using found
        exact (all moved other there).going stepped
    · next apart =>
        have tracked := elsewhere found apart
        rwa [positionAfter_of_none (tidings?_of_going there stepped)] at tracked
  · rw [ended, tasks_conclude, List.getElem?_eraseIdx] at found
    split at found
    · next before =>
        have tracked := elsewhere found (by omega)
        rwa [positionAfter_of_some (tidings?_of_done there stepped), if_neg (by omega)] at tracked
    · next behind =>
        have tracked := elsewhere found (by omega)
        rwa [positionAfter_of_some (tidings?_of_done there stepped), if_pos (by omega),
          Nat.add_sub_cancel] at tracked

/-- Every task of a run can be traced to its launch. -/
theorem allTracked_run (idle : begun.tasks = []) (happened : List Happening) :
    AllTracked surroundings begun happened := by
  induction happened using List.reverseRecOn with
  | nil =>
      intro position task found
      rw [run, List.foldl_nil, idle] at found
      cases found
  | append_singleton happened happening ih =>
      by_cases advances : ∃ moved, happening = .advance moved
      · obtain ⟨moved, rfl⟩ := advances
        exact ih.advance moved
      · exact ih.other (not_exists.mp advances)

/-! ### Answers -/

/-- What a command comes to that is taken now, when other happenings follow. -/
inductive CameTo (surroundings : Surroundings) (controller : Controller) (late : List Happening) :
    Command → Tidings → Prop
  | overview (ticket : Nat) :
      CameTo surroundings controller late (.getStats ticket) (.overview controller.world.agent.overview)
  | work {command : Command} {task : Task} {tidings : Tidings} (asked : command.task? = some task)
      (ended : controller.progressOf surroundings .receive task.stage late = .done tidings) :
      CameTo surroundings controller late command tidings

/-- The command with this ticket was taken, and came to these tidings. -/
def Served (surroundings : Surroundings) (begun : Controller) (happened : List Happening)
    (ticket : Nat) (tidings : Tidings) : Prop :=
  ∃ early late command,
    happened = early ++ .receive :: late ∧
    (begun.run surroundings early).commands.head? = some command ∧
    command.ticket? = some ticket ∧
    (begun.run surroundings early).CameTo surroundings late command tidings

theorem CameTo.concat {late : List Happening} {command : Command} {tidings : Tidings}
    (came : controller.CameTo surroundings late command tidings) (happening : Happening) :
    controller.CameTo surroundings (late ++ [happening]) command tidings := by
  cases came with
  | overview ticket => exact .overview ticket
  | work asked ended =>
      refine .work asked ?_
      rw [progressOf_concat, ended]
      split <;> rfl

theorem Served.concat {ticket : Nat} {tidings : Tidings}
    (served : Served surroundings begun happened ticket tidings) (happening : Happening) :
    Served surroundings begun (happened ++ [happening]) ticket tidings := by
  obtain ⟨early, late, command, rfl, taken, own, came⟩ := served
  refine ⟨early, late ++ [happening], command, ?_, taken, own, came.concat happening⟩
  rw [List.append_assoc, List.cons_append]

/-- A task under a ticket was asked for by a command with this ticket. -/
theorem command_of_launched {ticket : Nat} {stage : Stage}
    (launched : controller.launched? happening = some ⟨.ticket ticket, stage⟩) :
    happening = .receive ∧ ∃ command, controller.commands.head? = some command ∧
      command.task? = some ⟨.ticket ticket, stage⟩ ∧ command.ticket? = some ticket := by
  obtain ⟨_, same⟩ | ⟨_, _, same⟩ | ⟨taken, command, first, asks⟩ := launched_cases launched
  · cases same
  · cases same
  · refine ⟨taken, command, first, asks, ?_⟩
    cases command <;> cases asks <;> rfl

/-- The tidings with which a task ends are those of the command that it was launched for. -/
theorem Tracked.served {ticket : Nat} {tidings : Tidings}
    (tracked : Tracked surroundings begun happened position task) (own : task.origin = .ticket ticket)
    (stepped :
      (task.stage.step surroundings (begun.run surroundings happened).world).2 = .done tidings) :
    Served surroundings begun (happened ++ [.advance position]) ticket tidings := by
  obtain ⟨early, launch, late, stage, rfl, launched, _, came⟩ := tracked.turn
  rw [own] at launched
  obtain ⟨rfl, command, first, asks, ticketed⟩ := command_of_launched launched
  refine ⟨early, late ++ [.advance position], command, ?_, first, ticketed, .work asks ?_⟩
  · rw [List.append_assoc, List.cons_append]
  · exact came.trans stepped

/-- A good answer is to the command that is taken or from the task that ends. -/
theorem replied_ok {ticket : Nat} {tidings : Tidings}
    (replied : (ticket, .ok tidings) ∈ controller.replies surroundings happening) :
    (happening = .receive ∧ controller.commands.head? = some (.getStats ticket) ∧
      tidings = .overview controller.world.agent.overview) ∨
    ∃ position task, happening = .advance position ∧ controller.tasks[position]? = some task ∧
      task.origin = .ticket ticket ∧
      (task.stage.step surroundings controller.world).2 = .done tidings := by
  cases happening with
  | sweepTick | delayTick => cases replied
  | queue command =>
      simp only [replies] at replied
      split at replied
      · cases replied
      · obtain ⟨_, _, same⟩ := List.mem_map.mp replied
        cases same
  | receive =>
      simp only [replies] at replied
      split at replied
      · next queued =>
          cases List.mem_singleton.mp replied
          exact .inl ⟨rfl, congrArg List.head? queued, rfl⟩
      · obtain ⟨_, _, same⟩ := List.mem_map.mp replied
        cases same
      · cases replied
  | advance position =>
      simp only [replies] at replied
      split at replied
      · next ended =>
          cases List.mem_singleton.mp replied
          obtain ⟨task, found, rest⟩ := Option.bind_eq_some_iff.mp ended
          split at rest
          · next stepped =>
              obtain ⟨own, rfl⟩ := Prod.mk.inj (Option.some.inj rest)
              exact .inr ⟨position, task, rfl, found, own, stepped⟩
          · cases rest
      · cases replied

theorem served_run (idle : begun.tasks = []) (silent : begun.answers = []) (happened : List Happening)
    {ticket : Nat} {tidings : Tidings}
    (answered : (ticket, .ok tidings) ∈ (begun.run surroundings happened).answers) :
    Served surroundings begun happened ticket tidings := by
  induction happened using List.reverseRecOn with
  | nil =>
      rw [run, List.foldl_nil, silent] at answered
      cases answered
  | append_singleton happened happening ih =>
      rw [run_concat, answers_step, List.mem_append] at answered
      rcases answered with before | replied
      · exact (ih before).concat happening
      · obtain ⟨rfl, first, rfl⟩ | ⟨position, task, rfl, found, own, stepped⟩ := replied_ok replied
        · exact ⟨happened, [], .getStats ticket, rfl, first, rfl, .overview ticket⟩
        · exact (allTracked_run idle happened position task found).served own stepped

/-- The rounds of a task keep to settings that it found at its own turns. -/
theorem Tracked.keepsToSnapshots (tracked : Tracked surroundings begun happened position task) :
    ∃ early launch late stage,
      happened = early ++ launch :: late ∧
      (begun.run surroundings early).launched? launch = some ⟨task.origin, stage⟩ ∧
      task.stage.KeepsToSnapshots
        ((begun.run surroundings early).turnsSince surroundings launch late) := by
  obtain ⟨early, launch, late, stage, rfl, launched, _, came⟩ := tracked
  exact ⟨early, launch, late, stage, rfl, launched,
    Progress.keepsToSnapshots_through (keepsToSnapshots_of_launched launched) came⟩

end Controller

end CheckRounds
