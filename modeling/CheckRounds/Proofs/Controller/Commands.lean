import CheckRounds.Proofs.Controller.Histories

namespace CheckRounds

/-! What the loop makes of the commands that are queued.

It takes them in the order in which they were queued, up to the first that stops it, and obeys
each when it takes it.  So the settings are at any time those that the commands taken so far have
set, and what the loop answers to a command belongs to this command.  After it has stopped there
are only faults for answers.
-/

variable {surroundings : Surroundings}

namespace Command

/-- The policy that a command sets. -/
def policy? : Command → Option WorkPolicy
  | .usePolicy policy => some policy
  | _ => none

/-- The collation mode that a command sets. -/
def mode? : Command → Option CollationMode
  | .useCollation mode => some mode
  | _ => none

/-- Tidings of the kind that a command asks for; those of a dispatch are for its own delay. -/
def AsksFor : Command → Tidings → Prop
  | .refreshNow _, .refreshed _ => True
  | .dispatchNow _ delay, .dispatched reports => ∀ report ∈ reports, report.delay = delay
  | .getStats _, .overview _ => True
  | _, _ => False

end Command

/-- The settings after some commands: what the last command that set it has set, or else what it
was before. -/
def RoundSettings.after (settings : RoundSettings) (commands : List Command) : RoundSettings :=
  { settings with
    policy := (commands.filterMap Command.policy?).getLast?.getD settings.policy
    collation := (commands.filterMap Command.mode?).getLast?.getD settings.collation }

theorem RoundSettings.after_append (settings : RoundSettings) (first second : List Command) :
    settings.after (first ++ second) = (settings.after first).after second := by
  simp only [after, List.filterMap_append, List.getLast?_append, Option.getD_or]

/-- The command that a happening queues, if it queues one. -/
def Happening.queued? : Happening → Option Command
  | .queue command => some command
  | .sweepTick | .delayTick _ | .receive | .advance _ => none

/-- The commands that are queued, in order, whether the loop runs or not. -/
def queuedIn (happenings : List Happening) : List Command := happenings.filterMap Happening.queued?

namespace Controller

variable {controller begun : Controller} {happened : List Happening} {queued taken : List Command}

/-- The command that the loop takes, if it takes one. -/
def taken? (controller : Controller) : Happening → Option Command
  | .receive => controller.commands.head?
  | .queue _ | .sweepTick | .delayTick _ | .advance _ => none

/-- The commands that the loop takes, in order. -/
def takenIn (surroundings : Surroundings) (controller : Controller) : List Happening → List Command
  | [] => []
  | happening :: rest =>
      (controller.taken? happening).toList ++
        takenIn surroundings (controller.step surroundings happening) rest

theorem takenIn_concat (controller : Controller) (happenings : List Happening) (happening : Happening) :
    controller.takenIn surroundings (happenings ++ [happening]) =
      controller.takenIn surroundings happenings ++
        ((controller.run surroundings happenings).taken? happening).toList := by
  induction happenings generalizing controller with
  | nil => exact List.append_nil _
  | cons earlier rest ih =>
      rw [List.cons_append, takenIn, ih, takenIn, List.append_assoc]
      rfl

theorem queuedIn_concat (happenings : List Happening) (happening : Happening) :
    queuedIn (happenings ++ [happening]) = queuedIn happenings ++ happening.queued?.toList := by
  rw [queuedIn, List.filterMap_append]
  cases happening <;> rfl

/-- The ticket of an answer that is a fault. -/
def refusedTicket? : Nat × Except CommandFault Tidings → Option Nat
  | (ticket, .error _) => some ticket
  | (_, .ok _) => none

def refused (controller : Controller) : List Nat := controller.answers.filterMap refusedTicket?

/-! ### Order -/

/-- While the loop runs, the commands that were queued are those that were taken and those that
wait.  After it has stopped, those up to the first that stops it were taken, and all behind this
one were refused, in order. -/
structure InOrder (queued taken : List Command) (controller : Controller) : Prop where
  running : controller.running = true →
    .shutdown ∉ taken ∧ queued = taken ++ controller.commands ∧ controller.refused = []
  stopped : controller.running = false →
    ∃ ahead behind, .shutdown ∉ ahead ∧ queued = ahead ++ .shutdown :: behind ∧
      taken = ahead ++ [.shutdown] ∧ controller.commands = [] ∧
      controller.refused = behind.filterMap Command.ticket?

theorem refused_step (surroundings : Surroundings) (controller : Controller) (happening : Happening) :
    (controller.step surroundings happening).refused =
      controller.refused ++ (controller.replies surroundings happening).filterMap refusedTicket? := by
  rw [refused, answers_step, List.filterMap_append]
  rfl

theorem filterMap_refusedTicket?_map (tickets : List Nat) (fault : CommandFault) :
    (tickets.map fun ticket => (ticket, .error fault)).filterMap refusedTicket? = tickets := by
  rw [List.filterMap_map]
  exact List.filterMap_some

/-- Only a command that is queued or taken changes what waits and whether the loop runs. -/
theorem InOrder.step_of_other (inOrder : InOrder queued taken controller) {happening : Happening}
    (noneQueued : happening.queued? = none) (noneTaken : controller.taken? happening = none)
    (running : (controller.step surroundings happening).running = controller.running)
    (commands : (controller.step surroundings happening).commands = controller.commands)
    (silent : (controller.replies surroundings happening).filterMap refusedTicket? = []) :
    InOrder (queued ++ happening.queued?.toList) (taken ++ (controller.taken? happening).toList)
      (controller.step surroundings happening) := by
  have refused := refused_step surroundings controller happening
  rw [silent, List.append_nil] at refused
  rw [noneQueued, noneTaken, Option.toList_none, List.append_nil, List.append_nil]
  constructor
  · rw [running, commands, refused]; exact inOrder.running
  · rw [running, commands, refused]; exact inOrder.stopped

theorem inOrder_of_running (runs : controller.running = true) (goesOn : .shutdown ∉ taken)
    (order : queued = taken ++ controller.commands) (unrefused : controller.refused = []) :
    InOrder queued taken controller where
  running _ := ⟨goesOn, order, unrefused⟩
  stopped stops := by cases runs.symm.trans stops

theorem inOrder_of_stopped {ahead : List Command} (behind : List Command)
    (stops : controller.running = false) (notAhead : .shutdown ∉ ahead)
    (order : queued = ahead ++ .shutdown :: behind) (tookAll : taken = ahead ++ [.shutdown])
    (none : controller.commands = [])
    (refused : controller.refused = behind.filterMap Command.ticket?) :
    InOrder queued taken controller where
  running runs := by cases stops.symm.trans runs
  stopped _ := ⟨ahead, behind, notAhead, order, tookAll, none, refused⟩

theorem InOrder.queue (inOrder : InOrder queued taken controller) (command : Command) :
    InOrder (queued ++ [command]) taken (controller.step surroundings (.queue command)) := by
  have refused := refused_step surroundings controller (.queue command)
  cases runs : controller.running with
  | true =>
      obtain ⟨goesOn, order, unrefused⟩ := inOrder.running runs
      have same : controller.step surroundings (.queue command) =
          { controller with commands := controller.commands ++ [command] } := by
        rw [step, Controller.queue, if_pos runs]
      rw [same]
      refine inOrder_of_running runs goesOn ?_ unrefused
      rw [order, List.append_assoc]
  | false =>
      obtain ⟨ahead, behind, notAhead, order, tookAll, none, refusedBehind⟩ := inOrder.stopped runs
      have frame : (controller.step surroundings (.queue command)).running = controller.running ∧
          (controller.step surroundings (.queue command)).commands = controller.commands := by
        rw [step, Controller.queue, if_neg (by simp [runs])]
        split <;> exact ⟨rfl, rfl⟩
      refine inOrder_of_stopped (behind ++ [command]) (frame.1.trans runs) notAhead ?_ tookAll
        (frame.2.trans none) ?_
      · rw [order, List.append_assoc, List.cons_append]
      · rw [refused, replies, if_neg (by simp [runs]), filterMap_refusedTicket?_map, refusedBehind,
          List.filterMap_append, List.filterMap_cons, List.filterMap_nil]
        cases command.ticket? <;> rfl

/-- A command other than the one that stops the loop leaves the queue behind it alone. -/
theorem obey_of_ne_shutdown {command : Command} (goesOn : command ≠ .shutdown)
    (controller : Controller) :
    (controller.obey command).running = controller.running ∧
      (controller.obey command).commands = controller.commands := by
  cases command with
  | shutdown => exact absurd rfl goesOn
  | refreshNow | dispatchNow | usePolicy | useCollation | getStats => exact ⟨rfl, rfl⟩

/-- Nothing waits for a loop that has stopped. -/
theorem InOrder.running_of_waiting (inOrder : InOrder queued taken controller) {command : Command}
    {rest : List Command} (waiting : controller.commands = command :: rest) :
    controller.running = true := by
  cases runs : controller.running with
  | true => rfl
  | false =>
      obtain ⟨_, _, _, _, _, none, _⟩ := inOrder.stopped runs
      cases waiting.symm.trans none

theorem InOrder.receive (inOrder : InOrder queued taken controller) :
    InOrder queued (taken ++ (controller.taken? .receive).toList)
      (controller.step surroundings .receive) := by
  cases waiting : controller.commands with
  | nil =>
      have same : controller.step surroundings .receive = controller := by
        rw [step, Controller.receive, waiting]
      rw [same, taken?, waiting]
      simpa using inOrder
  | cons command rest =>
      have runs := inOrder.running_of_waiting waiting
      obtain ⟨goesOn, order, unrefused⟩ := inOrder.running runs
      have obeyed : controller.step surroundings .receive =
          { controller with commands := rest }.obey command := by
        rw [step, Controller.receive, waiting]
      have order : queued = taken ++ command :: rest := waiting ▸ order
      have refused := refused_step surroundings controller .receive
      rw [unrefused, List.nil_append, replies, waiting] at refused
      rw [taken?, waiting, List.head?_cons, Option.toList_some]
      by_cases stops : command = .shutdown
      · subst stops
        rw [filterMap_refusedTicket?_map] at refused
        rw [obeyed] at refused ⊢
        rw [obey, stop_eq] at refused ⊢
        exact inOrder_of_stopped rest rfl goesOn order rfl rfl refused
      · obtain ⟨stillRuns, leaves⟩ := obey_of_ne_shutdown stops { controller with commands := rest }
        have silent : (controller.step surroundings .receive).refused = [] := by
          rw [refused]
          cases command with
          | shutdown => exact absurd rfl stops
          | refreshNow | dispatchNow | usePolicy | useCollation | getStats => rfl
        rw [obeyed] at silent ⊢
        refine inOrder_of_running (stillRuns.trans runs) ?_ ?_ silent
        · rw [List.mem_append, List.mem_singleton]
          exact fun shut => shut.elim goesOn (stops ·.symm)
        · rw [leaves, order, List.append_assoc]
          rfl

theorem running_advance (position : Nat) :
    (controller.advance surroundings position).running = controller.running := by
  obtain ⟨_, same⟩ | ⟨task, _, ⟨_, _, went⟩ | ⟨_, _, ended⟩⟩ :=
    advance_cases surroundings controller position
  · rw [same]
  · rw [went]
  · rw [ended]
    cases task.origin <;> rfl

theorem InOrder.step (inOrder : InOrder queued taken controller) (happening : Happening) :
    InOrder (queued ++ happening.queued?.toList) (taken ++ (controller.taken? happening).toList)
      (controller.step surroundings happening) := by
  cases happening with
  | queue command =>
      rw [taken?, Option.toList_none, List.append_nil]
      exact inOrder.queue command
  | receive =>
      rw [Happening.queued?, Option.toList_none, List.append_nil]
      exact inOrder.receive
  | sweepTick =>
      refine inOrder.step_of_other rfl rfl ?_ ?_ rfl <;>
        · simp only [Controller.step, Controller.sweepTick]
          split <;> rfl
  | delayTick delay =>
      refine inOrder.step_of_other rfl rfl ?_ ?_ rfl <;>
        · simp only [Controller.step, Controller.delayTick]
          split <;> rfl
  | advance position =>
      refine inOrder.step_of_other rfl rfl (running_advance position) (commands_advance surroundings) ?_
      rw [replies]
      split <;> rfl

theorem inOrder_run (surroundings : Surroundings) (world : World) (happenings : List Happening) :
    InOrder (queuedIn happenings) (takenIn surroundings { world } happenings)
      (run surroundings { world } happenings) := by
  induction happenings using List.reverseRecOn with
  | nil =>
      refine ⟨fun _ => ⟨List.not_mem_nil, rfl, rfl⟩, fun stopped => ?_⟩
      cases stopped
  | append_singleton happenings happening ih =>
      rw [queuedIn_concat, takenIn_concat, run_concat]
      exact ih.step happening

/-! ### Settings -/

/-- Only a command that is taken changes settings. -/
theorem settings_step (controller : Controller) (happening : Happening) :
    (controller.step surroundings happening).world.agent.settings =
      controller.world.agent.settings.after (controller.taken? happening).toList := by
  cases happening with
  | queue command =>
      simp only [step, Controller.queue]
      split
      · rfl
      · split <;> rfl
  | sweepTick =>
      simp only [step, Controller.sweepTick]
      split <;> rfl
  | delayTick delay =>
      simp only [step, Controller.delayTick]
      split <;> rfl
  | receive =>
      simp only [step, Controller.receive, taken?]
      cases controller.commands with
      | nil => rfl
      | cons command rest =>
          cases command with
          | shutdown =>
              simp only [obey, stop_eq]
              rfl
          | refreshNow | dispatchNow | usePolicy | useCollation | getStats => rfl
  | advance position =>
      rw [step]
      obtain ⟨_, same⟩ | ⟨task, _, ⟨_, _, went⟩ | ⟨_, _, ended⟩⟩ :=
        advance_cases surroundings controller position
      · rw [same]
        rfl
      · rw [went]
        exact Stage.settings_step task.stage controller.world
      · rw [ended]
        cases task.origin <;> exact Stage.settings_step task.stage controller.world

theorem settings_run (surroundings : Surroundings) (world : World) (happenings : List Happening) :
    (run surroundings { world } happenings).world.agent.settings =
      world.agent.settings.after (takenIn surroundings { world } happenings) := by
  induction happenings using List.reverseRecOn with
  | nil => rfl
  | append_singleton happenings happening ih =>
      rw [run_concat, settings_step, ih, takenIn_concat, RoundSettings.after_append]

/-! ### Tickets -/

/-- The answers under a ticket, the tasks under way for it and the commands that wait with it. -/
def held (controller : Controller) (ticket : Nat) : Nat :=
  controller.answers.countP (·.1 = ticket) + controller.tasks.countP (·.origin = .ticket ticket) +
    controller.commands.countP (·.ticket? = some ticket)

theorem countP_fst (answers : List (Nat × Except CommandFault Tidings)) (ticket : Nat) :
    answers.countP (·.1 = ticket) = (answers.map Prod.fst).count ticket := by
  rw [List.count, List.countP_map]
  rfl

theorem count_tickets (commands : List Command) (ticket : Nat) :
    (commands.filterMap Command.ticket?).count ticket = commands.countP (·.ticket? = some ticket) := by
  rw [List.count, List.countP_filterMap]
  refine List.countP_congr fun command _ => ?_
  cases command.ticket? <;> simp

theorem held_answer (controller : Controller) (number ticket : Nat)
    (reply : Except CommandFault Tidings) :
    (controller.answer number reply).held ticket =
      controller.held ticket + if number = ticket then 1 else 0 := by
  simp only [held, answer, List.countP_append, List.countP_singleton, decide_eq_true_eq]
  omega

theorem held_launch (controller : Controller) (origin : Origin) (stage : Stage) (ticket : Nat) :
    (controller.launch origin stage).held ticket =
      controller.held ticket + if origin = .ticket ticket then 1 else 0 := by
  simp only [held, launch, List.countP_append, List.countP_singleton, decide_eq_true_eq]
  omega

theorem held_stop (controller : Controller) (ticket : Nat) :
    controller.stop.held ticket = controller.held ticket := by
  have refused (reply : Except CommandFault Tidings) :
      ((controller.commands.filterMap Command.ticket?).map (·, reply)).countP (·.1 = ticket) =
        controller.commands.countP (·.ticket? = some ticket) := by
    rw [countP_fst, List.map_map, ← count_tickets]
    exact congrArg (List.count ticket) (List.map_id _)
  simp only [held, stop_eq, List.countP_append, refused, List.countP_nil]
  omega

theorem held_queue (controller : Controller) (command : Command) (ticket : Nat) :
    (controller.queue command).held ticket =
      controller.held ticket + if command.ticket? = some ticket then 1 else 0 := by
  unfold Controller.queue
  split
  · simp only [held, List.countP_append, List.countP_singleton, decide_eq_true_eq]
    omega
  · split
    · next number own => simp only [held_answer, own, Option.some.injEq]
    · next none => rw [none, if_neg nofun, Nat.add_zero]

theorem held_obey (controller : Controller) (command : Command) (ticket : Nat) :
    (controller.obey command).held ticket =
      controller.held ticket + if command.ticket? = some ticket then 1 else 0 := by
  cases command with
  | refreshNow number =>
      simp only [obey, held_launch, Origin.ticket.injEq, Command.ticket?, Option.some.injEq]
  | dispatchNow number delay =>
      simp only [obey, held_launch, Origin.ticket.injEq, Command.ticket?, Option.some.injEq]
  | getStats number => simp only [obey, held_answer, Command.ticket?, Option.some.injEq]
  | usePolicy policy => rfl
  | useCollation mode => rfl
  | shutdown => exact held_stop controller ticket

theorem held_receive (controller : Controller) (ticket : Nat) :
    controller.receive.held ticket = controller.held ticket := by
  unfold Controller.receive
  cases waiting : controller.commands with
  | nil => rfl
  | cons command rest =>
      dsimp only
      rw [held_obey]
      simp only [held, waiting, List.countP_cons, decide_eq_true_eq]
      omega

theorem held_advance (controller : Controller) (position ticket : Nat) :
    (controller.advance surroundings position).held ticket = controller.held ticket := by
  obtain ⟨_, same⟩ | ⟨task, found, ⟨stage, _, went⟩ | ⟨tidings, _, ended⟩⟩ :=
    advance_cases surroundings controller position
  · rw [same]
  · rw [went]
    obtain ⟨inside, rfl⟩ := List.getElem?_eq_some_iff.mp found
    have after := List.set_perm_cons_eraseIdx inside ({ controller.tasks[position] with stage } : Task)
    simp only [held, after.countP_eq, countP_of_found found, List.countP_cons]
  · rw [ended]
    simp only [held, countP_of_found found]
    cases task.origin with
    | sweepTimer => rfl
    | delayTimer => rfl
    | ticket number =>
        simp only [conclude, answer, List.countP_append, List.countP_singleton, Origin.ticket.injEq]
        omega

/-- No happening takes a ticket away or adds one, but that a command is queued with it. -/
theorem held_step (controller : Controller) (happening : Happening) (ticket : Nat) :
    (controller.step surroundings happening).held ticket =
      controller.held ticket + happening.queued?.toList.countP (·.ticket? = some ticket) := by
  cases happening with
  | queue command =>
      rw [step, held_queue, Happening.queued?, Option.toList_some, List.countP_singleton]
      simp only [decide_eq_true_eq]
  | sweepTick =>
      rw [step, Controller.sweepTick]
      split
      · rw [held_launch]; rfl
      · rfl
  | delayTick delay =>
      rw [step, Controller.delayTick]
      split
      · rw [held_launch]; rfl
      · rfl
  | receive => exact held_receive controller ticket
  | advance position => exact held_advance controller position ticket

theorem held_run (surroundings : Surroundings) (world : World) (happenings : List Happening)
    (ticket : Nat) :
    (run surroundings { world } happenings).held ticket =
      (queuedIn happenings).countP (·.ticket? = some ticket) := by
  induction happenings using List.reverseRecOn with
  | nil => rfl
  | append_singleton happenings happening ih =>
      rw [run_concat, held_step, ih, queuedIn_concat, List.countP_append]

/-! ### Answers -/

theorem CameTo.asksFor {late : List Happening} {command : Command} {tidings : Tidings}
    (came : controller.CameTo surroundings late command tidings) : command.AsksFor tidings := by
  cases came with
  | overview ticket => trivial
  | work asked ended =>
      cases command with
      | refreshNow ticket =>
          cases asked
          have sweeps : (controller.progressOf surroundings .receive .sweep late).Sweeps :=
            Progress.sweeps_through surroundings _
          rw [ended] at sweeps
          cases tidings with
          | refreshed summary => trivial
          | dispatched | overview => cases sweeps
      | dispatchNow ticket delay =>
          cases asked
          have dispatches : (controller.progressOf surroundings .receive (.dispatch delay)
              late).DispatchesAt delay := Progress.dispatchesAt_through surroundings delay _
          rw [ended] at dispatches
          cases tidings with
          | dispatched reports => exact dispatches
          | refreshed | overview => cases dispatches
      | usePolicy | useCollation | getStats | shutdown => cases asked

theorem CameTo.eq_overview {late : List Happening} {command : Command} {overview : Overview}
    (came : controller.CameTo surroundings late command (.overview overview)) :
    (∃ ticket, command = .getStats ticket) ∧ overview = controller.world.agent.overview := by
  have asksFor := came.asksFor
  cases came with
  | overview ticket => exact ⟨⟨ticket, rfl⟩, rfl⟩
  | work asked ended =>
      cases command with
      | getStats ticket => cases asked
      | refreshNow | dispatchNow | usePolicy | useCollation | shutdown => cases asksFor

/-- A command that is taken was queued behind those that were taken before, none of which stops
the loop. -/
theorem place_of_taken {world : World} {early : List Happening} {command : Command}
    (taken : (run surroundings { world } early).commands.head? = some command) (late : List Happening) :
    .shutdown ∉ takenIn surroundings { world } early ∧
      ∃ behind, queuedIn (early ++ .receive :: late) =
        takenIn surroundings { world } early ++ command :: behind := by
  obtain ⟨rest, waiting⟩ := List.head?_eq_some_iff.mp taken
  have inOrder := inOrder_run surroundings world early
  obtain ⟨goesOn, order, _⟩ := inOrder.running (inOrder.running_of_waiting waiting)
  refine ⟨goesOn, rest ++ queuedIn late, ?_⟩
  have later : queuedIn (.receive :: late) = queuedIn late := rfl
  rw [queuedIn, List.filterMap_append, ← queuedIn, ← queuedIn, later, order, waiting, List.append_assoc]
  rfl

theorem nodup_answers {world : World} {happenings : List Happening}
    (apart : ((queuedIn happenings).filterMap Command.ticket?).Nodup) :
    ((run surroundings { world } happenings).answers.map Prod.fst).Nodup := by
  rw [List.nodup_iff_count_le_one] at apart ⊢
  intro ticket
  have once := apart ticket
  have held := held_run surroundings world happenings ticket
  rw [count_tickets] at once
  rw [Controller.held] at held
  rw [← countP_fst]
  omega

/-- What a task finds at a turn are the settings of the commands taken before it. -/
theorem settings_of_turn {world moment : World} {early late : List Happening} {launch : Happening}
    (inside : moment ∈ (run surroundings { world } early).turnsSince surroundings launch late) :
    ∃ between, between <+: late ∧ moment.agent.settings =
      world.agent.settings.after (takenIn surroundings { world } (early ++ launch :: between)) := by
  obtain ⟨between, before, rfl⟩ := moment_of_turn _ _ late inside
  refine ⟨between, before, ?_⟩
  rw [← settings_run, run_append]
  rfl

/-- For all that may happen to the loop: commands are taken in the order in which they were
queued, up to the first that stops it, and those behind this one are refused.  Settings are what
the commands that were taken have set.  No command is answered twice, and each good answer is what
its own command came to, which was queued ahead of any that stops the loop; an overview shows the
settings of the commands queued ahead of it.  Every round under way has its settings from one turn
of its task, and they are what the commands taken before that turn have set. -/
theorem obeys_in_order (surroundings : Surroundings) (world : World) (happenings : List Happening) :
    let begun : Controller := { world }
    let after := begun.run surroundings happenings
    let queued := queuedIn happenings
    let taken := begun.takenIn surroundings
    InOrder queued (taken happenings) after ∧
    after.world.agent.settings = world.agent.settings.after (taken happenings) ∧
    (∀ ticket, after.held ticket = queued.countP (·.ticket? = some ticket)) ∧
    ((queued.filterMap Command.ticket?).Nodup → (after.answers.map Prod.fst).Nodup) ∧
    (∀ ticket tidings, (ticket, .ok tidings) ∈ after.answers →
      ∃ early late command behind,
        happenings = early ++ .receive :: late ∧
        .shutdown ∉ taken early ∧ queued = taken early ++ command :: behind ∧
        command.ticket? = some ticket ∧ command.AsksFor tidings ∧
        (begun.run surroundings early).CameTo surroundings late command tidings) ∧
    (∀ ticket overview, (ticket, .ok (.overview overview)) ∈ after.answers →
      ∃ ahead behind, .shutdown ∉ ahead ∧ queued = ahead ++ .getStats ticket :: behind ∧
        overview.policy = (world.agent.settings.after ahead).policy ∧
        overview.collation = (world.agent.settings.after ahead).collation) ∧
    ∀ task ∈ after.tasks, ∃ early launch late stage,
      happenings = early ++ launch :: late ∧
      (begun.run surroundings early).launched? launch = some ⟨task.origin, stage⟩ ∧
      let turns := (begun.run surroundings early).turnsSince surroundings launch late
      task.stage.KeepsToSnapshots turns ∧
      ∀ moment ∈ turns, ∃ between, between <+: late ∧
        moment.agent.settings = world.agent.settings.after (taken (early ++ launch :: between)) := by
  dsimp only
  refine ⟨inOrder_run surroundings world happenings, settings_run surroundings world happenings,
    held_run surroundings world happenings, nodup_answers, ?_, ?_, ?_⟩
  · intro ticket tidings answered
    obtain ⟨early, late, command, rfl, first, own, came⟩ := served_run rfl rfl happenings answered
    obtain ⟨goesOn, behind, order⟩ := place_of_taken first late
    exact ⟨early, late, command, behind, rfl, goesOn, order, own, came.asksFor, came⟩
  · intro ticket overview answered
    obtain ⟨early, late, command, rfl, first, own, came⟩ := served_run rfl rfl happenings answered
    obtain ⟨goesOn, behind, order⟩ := place_of_taken first late
    obtain ⟨⟨number, rfl⟩, rfl⟩ := came.eq_overview
    cases own
    refine ⟨_, behind, goesOn, order, ?_, ?_⟩
    · exact congrArg (·.policy) (settings_run surroundings world early)
    · exact congrArg (·.collation) (settings_run surroundings world early)
  · intro task inside
    obtain ⟨position, found⟩ := List.mem_iff_getElem?.mp inside
    obtain ⟨early, launch, late, stage, same, launched, keeps⟩ :=
      (allTracked_run rfl happenings position task found).keepsToSnapshots
    exact ⟨early, launch, late, stage, same, launched, keeps, fun _ => settings_of_turn⟩

/-- The policy is changed after a round was opened and before its work is divided: the round is
divided by the policy under which it was opened, and an overview shows the new one.  A command
behind the one that stops the loop is refused, and one that comes later too. -/
theorem obeys_in_order_between_stages :
    let ordered := ((Agent.empty {}).perform
      (.registerServer { address := "a", hosts := [{ name := "h" }] })).perform
        (.applyOrders 0 [{ key := "k", delay := 60 }, { key := "l", delay := 60 }] default)
    let surroundings : Surroundings :=
      { execute := fun _ _ => { outcome := .crash }
        peer := fun _ => .listening { answer := fun _ => { reply := none } }
        tracing := false
        newFile := fun _ _ => .error .noDirectory }
    let happenings : List Happening :=
      [.queue (.dispatchNow 0 60), .queue (.usePolicy .check), .queue (.getStats 1), .queue .shutdown,
        .queue (.refreshNow 2), .receive, .advance 0, .advance 0, .receive, .advance 0, .advance 0,
        .receive, .receive, .queue (.getStats 3)]
    let begun : Controller := { world := { agent := ordered, clock := default } }
    let after := begun.run surroundings happenings
    let queued := queuedIn happenings
    let overview := (ordered.usePolicy .check).overview
    ((queued.filterMap Command.ticket?).Nodup ∧ (after.answers.map Prod.fst).Nodup) ∧
      after.refused = [2, 3] ∧
      ((1, .ok (.overview overview)) ∈ after.answers ∧
        ∃ ahead behind, .shutdown ∉ ahead ∧ queued = ahead ++ .getStats 1 :: behind ∧
          overview.policy = (ordered.settings.after ahead).policy ∧
          overview.collation = (ordered.settings.after ahead).collation) ∧
      after.world.agent.settings.policy = .check ∧
      after.tasks.map (fun task => task.stage.divided.map fun round =>
        (round.settings.policy, round.unitCount)) = [[(.host, 1)]] := by
  intro ordered surroundings happenings begun after queued overview
  obtain ⟨_, _, _, once, _, shown, _⟩ := obeys_in_order surroundings begun.world happenings
  have apart : (queued.filterMap Command.ticket?).Nodup := by decide
  have answered : (1, .ok (.overview overview)) ∈ after.answers := by decide +kernel
  refine ⟨⟨apart, once apart⟩, ?_, ⟨answered, shown 1 overview answered⟩, ?_, ?_⟩ <;> decide +kernel

end Controller

end CheckRounds
