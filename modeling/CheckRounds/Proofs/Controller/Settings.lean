import CheckRounds.Controller
import CheckRounds.Proofs.Refresh
import CheckRounds.Proofs.Round.Crew

namespace CheckRounds

/-! Work leaves the settings alone, whatever happens to the agent meanwhile, and a round leaves
its own alone.  Only the commands of the loop change settings. -/

open Collation (Stream)

variable {surroundings : Surroundings}

namespace Agent

variable {agent : Agent} {ref : HostRef} {now : Instant}

theorem kept_settings (settings : RoundSettings) : Kept fun agent => agent.settings = settings where
  setHost _ _ same := same
  setScheduler _ same := same
  forgetHost _ _ same := same
  forgetServer _ same := same

theorem settings_keepValue (key value : String) :
    (agent.keepValue ref key value now).settings = agent.settings := by
  unfold keepValue
  split <;> rfl

theorem settings_wantsRefresh : (agent.wantsRefresh ref now).2.settings = agent.settings := by
  unfold wantsRefresh
  split <;> rfl

theorem settings_toRefresh (refs : List HostRef) :
    (agent.toRefresh now refs).2.settings = agent.settings := by
  induction refs generalizing agent with
  | nil => rfl
  | cons ref rest ih => exact ih.trans settings_wantsRefresh

theorem settings_dueOn (servers : List ServerRef) :
    (agent.dueOn now servers).2.settings = agent.settings := by
  induction servers generalizing agent with
  | nil => rfl
  | cons server rest ih => exact ih.trans (settings_toRefresh _)

end Agent

/-! ### Exchanges -/

namespace World

variable {world : World}

theorem settings_interveneAll (interventions : List Intervention) :
    (world.interveneAll interventions).agent.settings = world.agent.settings :=
  interveneAll_keeps (Agent.kept_settings _) interventions rfl

theorem settings_afterRequest (server host : String) :
    (world.afterRequest surroundings server host).agent.settings = world.agent.settings :=
  settings_interveneAll _

theorem settings_settle (host : HostRef) (outcome : Except Fault (List Order)) :
    (world.settle host outcome).2.agent.settings = world.agent.settings := by
  unfold settle
  cases outcome with
  | ok orders => exact (Agent.kept_settings world.agent.settings).applyOrders orders world.clock rfl
  | error fault => exact (Agent.kept_settings world.agent.settings).noteFault fault world.clock rfl

theorem settings_refresh (server : ServerRef) (host : HostRef) (timeout : Duration) :
    (world.refresh surroundings server host timeout).2.agent.settings = world.agent.settings := by
  have fetched : (world.fetchOrders surroundings (world.agent.serverId server)
      (world.agent.hostName host) timeout).2.agent.settings = world.agent.settings := by
    rw [snd_fetchOrders]
    exact settings_afterRequest _ _
  exact (settings_settle host _).trans fetched

theorem settings_send (server : String) (stream : Stream) (timeout : Duration) :
    (world.send surroundings server stream timeout).2.1.agent.settings = world.agent.settings := by
  unfold send
  split
  · exact settings_interveneAll _
  · exact settings_interveneAll _

theorem settings_submit (server : ServerRef) (stream : Stream) (timeout : Duration) :
    (world.submit surroundings server stream timeout).2.1.agent.settings = world.agent.settings :=
  settings_send _ stream timeout

end World

/-! ### Units of work -/

namespace Worker

variable {property : Collecting → Prop}

/-- What no step of a unit breaks holds when the unit ends. -/
theorem Reaches.keeps {before after : Worker × Collecting} (reaches : Reaches surroundings before after)
    (kept : ∀ (delay : Nat) (step : Step) (collecting : Collecting), property collecting →
      property (step.perform surroundings delay collecting).2)
    (holds : property before.2) : property after.2 := by
  obtain ⟨count, rfl⟩ := reaches
  induction count generalizing before with
  | zero => exact holds
  | succ count ih =>
      rw [Function.iterate_succ_apply]
      exact ih (advance_keeps surroundings kept before holds)

end Worker

namespace Collecting

/-- The settings of the agent and the mode of a stream. -/
def setting (collecting : Collecting) : RoundSettings × CollationMode :=
  (collecting.world.agent.settings, collecting.stream.mode)

theorem setting_collect (collecting : Collecting) (record : Record) :
    (collecting.collect record).2.setting = collecting.setting := by
  have same := (collecting.stream.appendRecord_alone ⟨record.writeSeparated.toArray⟩).1
  unfold collect setting
  split <;> next appended => rw [appended] at same; rw [same]

theorem setting_perform (delay : Nat) (step : Worker.Step) (collecting : Collecting) :
    (step.perform surroundings delay collecting).2.setting = collecting.setting := by
  cases step with
  | findHosts server => rfl
  | findChecks ref => rfl
  | findCheck ref key => rfl
  | execute ref host check =>
      have waited := collecting.world.settings_interveneAll (surroundings.execute host check).meanwhile
      unfold Worker.Step.perform setting
      dsimp only
      split
      · rw [waited]
      · exact congrArg (·, collecting.stream.mode) ((Agent.settings_keepValue _ _).trans waited)
      · rw [waited]
  | collect record =>
      have same := setting_collect collecting record
      rw [Worker.Step.perform]
      generalize collecting.collect record = collected at same ⊢
      obtain ⟨result, after⟩ := collected
      cases result with
      | ok _ => exact same
      | error stop => exact same

theorem setting_runUnit (collecting : Collecting) (work : UnitOfWork) :
    (collecting.runUnit surroundings work).2.setting = collecting.setting :=
  (Worker.reaches_runUnit surroundings work collecting).keeps
    (fun delay step before same => (setting_perform delay step before).trans same) rfl

end Collecting

/-! ### Rounds -/

namespace Round

/-- What a round is opened for and under, which work on it leaves alone. -/
def terms (round : Round) : ServerRef × Nat × RoundSettings × CollationMode × Nat :=
  (round.server, round.delay, round.settings, round.stream.mode, round.unitCount)

theorem terms_count (round : Round) (outcome : Except Stop Tally) :
    (round.count outcome).terms = round.terms := by
  unfold count
  split <;> rfl

theorem terms_perform (surroundings : Surroundings) (world : World) (round : Round)
    (work : UnitOfWork) :
    (round.perform surroundings world work).1.agent.settings = world.agent.settings ∧
      (round.perform surroundings world work).2.terms = round.terms := by
  have same : (Collecting.runUnit surroundings ⟨world, round.stream⟩ work).2.setting =
      (world.agent.settings, round.stream.mode) := Collecting.setting_runUnit _ work
  obtain ⟨sameSettings, sameMode⟩ := Prod.mk.inj same
  refine ⟨sameSettings, (terms_count _ _).trans ?_⟩
  exact congrArg (fun mode => (round.server, round.delay, round.settings, mode, round.unitCount))
    sameMode

theorem settings_finish (world : World) (round : Round) :
    (round.finish surroundings world).world.agent.settings = world.agent.settings := by
  unfold finish
  split
  · rfl
  · split
    · rfl
    · split
      · rfl
      · next stream _ =>
          have submitted : (world.submit surroundings round.server stream
              world.agent.timeout).2.1.agent.settings = world.agent.settings :=
            World.settings_submit _ _ _
          split <;> next same => rw [same] at submitted; exact submitted

/-- A round that some units of were done. -/
structure Follows (before after : Round) : Prop where
  terms : after.terms = before.terms
  remaining : after.remaining <:+ before.remaining

theorem Follows.refl (round : Round) : round.Follows round := ⟨rfl, List.suffix_rfl⟩

end Round

/-! ### Stages -/

namespace Stage

theorem follows_performNext {world : World} {rounds : List Round} {next : World × List Round}
    (performed : performNext surroundings world rounds = some next) :
    next.1.agent.settings = world.agent.settings ∧
      ∀ after ∈ next.2, ∃ before ∈ rounds, before.Follows after := by
  induction rounds generalizing next with
  | nil => simp [performNext] at performed
  | cons round rest ih =>
      cases left : round.remaining with
      | nil =>
          simp only [performNext, left, Option.map_eq_some_iff] at performed
          obtain ⟨later, found, rfl⟩ := performed
          obtain ⟨settings, follows⟩ := ih found
          refine ⟨settings, List.forall_mem_cons.mpr ⟨?_, fun after inside => ?_⟩⟩
          · exact ⟨round, List.mem_cons_self, .refl round⟩
          · obtain ⟨before, among, follow⟩ := follows after inside
            exact ⟨before, List.mem_cons_of_mem round among, follow⟩
      | cons work others =>
          simp only [performNext, left, Option.some.injEq] at performed
          obtain ⟨settings, terms⟩ : _ ∧ _ :=
            Round.terms_perform surroundings world { round with remaining := others } work
          subst performed
          refine ⟨settings, List.forall_mem_cons.mpr ⟨⟨round, List.mem_cons_self, terms, ?_⟩, ?_⟩⟩
          · rw [remaining_perform, left]
            exact List.suffix_cons work others
          · exact fun after inside => ⟨after, List.mem_cons_of_mem round inside, .refl after⟩

theorem settings_step (stage : Stage) (world : World) :
    (stage.step surroundings world).1.agent.settings = world.agent.settings := by
  unfold step
  split
  case h_1 => exact Agent.settings_dueOn _
  case h_2 => rfl
  case h_3 => exact World.settings_refresh _ _ _
  case h_4 => rfl
  case h_5 => rfl
  case h_6 =>
    split
    · next begun =>
        obtain ⟨directory, rfl⟩ := (Round.begins_of_begin begun).changes
        rfl
    · rfl
  case h_7 => rfl
  case h_8 =>
    split
    · next performed => exact (follows_performNext performed).1
    · split
      · rfl
      · exact Round.settings_finish world _

end Stage

end CheckRounds
