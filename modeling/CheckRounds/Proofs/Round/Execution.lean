import CheckRounds.Proofs.Collation.Streams
import CheckRounds.Proofs.Round.Due
import Mathlib.Data.List.Forall2

namespace CheckRounds

/-! What executing checks leaves behind.

A check whose execution has no side effects leaves one record.  Of the agent nothing
changes but the value of that check, so what is looked up afterwards is what was there in
the beginning, unless the same check is looked up again.
-/

open Collation (Stream)
open Agent (place)

/-! ### Outcomes -/

namespace Surroundings

/-- Executing a check takes time at most, and comes to an end. -/
structure Harmless (surroundings : Surroundings) : Prop where
  ends : ∀ host check, (surroundings.execute host check).outcome ≠ .crash
  idle : ∀ host check, ∀ intervention ∈ (surroundings.execute host check).meanwhile,
    ∃ now, intervention = .setClock now

variable (surroundings : Surroundings)

def fails (host : String) (check : Check) : Bool :=
  match (surroundings.execute host check).outcome with
  | .failure _ => true
  | _ => false

/-- The value of a check, or the causes why there is none. -/
def result (host : String) (check : Check) : String :=
  match (surroundings.execute host check).outcome with
  | .value value => value
  | .failure causes => ": ".intercalate causes
  | .crash => ""

def recordOf (host : String) (check : Check) (clock : Int) : Record :=
  { host
    key := check.key
    value := surroundings.result host check
    failed := surroundings.fails host check
    clock }

/-- There is one record of each check, in the same order, and no other record. -/
def Tells (agent : Agent) (items : List (HostRef × Check)) (records : List Record) : Prop :=
  List.Forall₂
    (fun item record => ∃ clock, record = surroundings.recordOf (agent.hostName item.1) item.2 clock)
    items records

/-- How many checks there are, and how many of them fail. -/
def tallyOf (agent : Agent) (items : List (HostRef × Check)) : Tally :=
  ⟨items.length, items.countP fun item => surroundings.fails (agent.hostName item.1) item.2⟩

theorem tallyOf_append (agent : Agent) (first second : List (HostRef × Check)) :
    surroundings.tallyOf agent (first ++ second) =
      (surroundings.tallyOf agent first).add (surroundings.tallyOf agent second) := by
  simp [tallyOf, Tally.add]

theorem tallyOf_singleton (agent : Agent) (item : HostRef × Check) :
    surroundings.tallyOf agent [item] =
      .one !surroundings.fails (agent.hostName item.1) item.2 := by
  rw [tallyOf, List.countP_singleton, Tally.one]
  cases surroundings.fails (agent.hostName item.1) item.2 <;> rfl

theorem tallyOf_cons (agent : Agent) (item : HostRef × Check) (rest : List (HostRef × Check)) :
    surroundings.tallyOf agent (item :: rest) =
      (Tally.one !surroundings.fails (agent.hostName item.1) item.2).add
        (surroundings.tallyOf agent rest) := by
  rw [← tallyOf_singleton, ← tallyOf_append]
  rfl

variable {surroundings} {agent : Agent} {items : List (HostRef × Check)} {records : List Record}

theorem Tells.concat (tells : surroundings.Tells agent items records) (item : HostRef × Check)
    (clock : Int) : surroundings.Tells agent (items ++ [item])
      (records ++ [surroundings.recordOf (agent.hostName item.1) item.2 clock]) :=
  List.rel_append tells (.cons ⟨clock, rfl⟩ .nil)

end Surroundings

/-! ### Worlds -/

namespace World

/-- A world after some checks were executed: what they do not change is as it was. -/
structure Executed (start : World) (done : List (HostRef × Check)) (now : World) : Prop where
  scheduler : now.agent.scheduler = start.agent.scheduler
  servers : now.agent.servers = start.agent.servers
  timeout : now.agent.timeout = start.agent.timeout
  contacts : now.contacts = start.contacts
  hostName : ∀ ref, now.agent.hostName ref = start.agent.hostName ref
  bucketOf : ∀ ref, now.agent.bucketOf ref = start.agent.bucketOf ref
  check? : ∀ ref key, (ref, key) ∉ done.map place →
    now.agent.check? ref key = start.agent.check? ref key

variable {start now : World} {done : List (HostRef × Check)} {ref : HostRef} {owner : ServerRef}
  {delay : Nat}

theorem executed_refl (start : World) : start.Executed [] start :=
  ⟨rfl, rfl, rfl, rfl, fun _ => rfl, fun _ => rfl, fun _ _ _ => rfl⟩

theorem Executed.setClock (executed : start.Executed done now) (clock : Instant) :
    start.Executed done { now with clock } :=
  ⟨executed.scheduler, executed.servers, executed.timeout, executed.contacts, executed.hostName,
    executed.bucketOf, executed.check?⟩

theorem Executed.interveneAll (executed : start.Executed done now)
    {interventions : List Intervention}
    (idle : ∀ intervention ∈ interventions, ∃ clock, intervention = .setClock clock) :
    start.Executed done (now.interveneAll interventions) := by
  induction interventions generalizing now with
  | nil => exact executed
  | cons intervention rest ih =>
      obtain ⟨clock, rfl⟩ := idle intervention List.mem_cons_self
      exact ih (executed.setClock clock) fun other inside => idle other (List.mem_cons_of_mem _ inside)

end World

namespace Agent

variable {agent : Agent} {ref other : HostRef} {key : String}

theorem getElem?_keepValue (key value : String) (now : Instant) :
    (agent.keepValue ref key value now).stations[other]? =
      if ref = other then
        agent.stations[other]?.map fun station =>
          { station with host := station.host.keepValue key value now }
      else agent.stations[other]? := by
  unfold keepValue
  cases found : agent.stations[ref]? with
  | none =>
      rw [host?, found]
      dsimp only [Option.map_none]
      split
      · next same => rw [← same, found]; rfl
      · rfl
  | some station =>
      rw [host?, found]
      dsimp only [Option.map_some]
      rw [getElem?_setHost]
      split
      · next same => rw [← same, found]; rfl
      · rfl

theorem keepValue_eq (agent : Agent) (ref : HostRef) (key value : String) (now : Instant) :
    ∃ stations, agent.keepValue ref key value now = { agent with stations } := by
  unfold keepValue
  split
  · exact ⟨agent.stations, rfl⟩
  · exact ⟨_, rfl⟩

theorem hostName_keepValue (key value : String) (now : Instant) :
    (agent.keepValue ref key value now).hostName other = agent.hostName other := by
  rw [hostName, host, host?, getElem?_keepValue]
  split
  · rw [hostName, host, host?]
    cases agent.stations[other]? <;> rfl
  · rfl

theorem bucketOf_keepValue (key value : String) (now : Instant) :
    (agent.keepValue ref key value now).bucketOf other = agent.bucketOf other := by
  unfold keepValue
  split
  · rfl
  · exact bucketOf_setHost

theorem check?_keepValue {other : HostRef} {otherKey : String} (value : String) (now : Instant)
    (different : (other, otherKey) ≠ (ref, key)) :
    (agent.keepValue ref key value now).check? other otherKey = agent.check? other otherKey := by
  rw [check?, host?, getElem?_keepValue]
  split
  · next same =>
      subst same
      have otherThanKey : otherKey ≠ key := fun same => different (same ▸ rfl)
      rw [check?, host?]
      cases agent.stations[ref]? with
      | none => rfl
      | some station => exact Host.get?_keepValue.trans (if_neg otherThanKey)
  · rfl

theorem check?_keepValue_self (value : String) (now : Instant) :
    (agent.keepValue ref key value now).check? ref key =
      (agent.check? ref key).map fun check => check.record value now := by
  rw [check?, host?, getElem?_keepValue, if_pos rfl, check?, host?]
  cases agent.stations[ref]? with
  | none => rfl
  | some station => exact Host.get?_keepValue.trans (if_pos rfl)

end Agent

namespace World.Executed

variable {start now : World} {done : List (HostRef × Check)} {ref : HostRef} {owner : ServerRef}
  {delay : Nat}

theorem append (executed : start.Executed done now) (more : List (HostRef × Check)) :
    start.Executed (done ++ more) now :=
  { executed with
    check? := by
      intro ref key apart
      rw [List.map_append, List.mem_append, not_or] at apart
      exact executed.check? ref key apart.1 }

theorem keepValue (executed : start.Executed done now) (item : HostRef × Check) (value : String)
    (clock : Instant) : start.Executed (done ++ [item])
      (now.mapAgent fun agent => agent.keepValue item.1 item.2.key value clock) := by
  obtain ⟨_, same⟩ := now.agent.keepValue_eq item.1 item.2.key value clock
  constructor
  case scheduler => exact (congrArg Agent.scheduler same).trans executed.scheduler
  case servers => exact (congrArg Agent.servers same).trans executed.servers
  case timeout => exact (congrArg Agent.timeout same).trans executed.timeout
  case contacts => exact executed.contacts
  case hostName =>
    intro ref
    exact (Agent.hostName_keepValue item.2.key value clock).trans (executed.hostName ref)
  case bucketOf =>
    intro ref
    exact (Agent.bucketOf_keepValue item.2.key value clock).trans (executed.bucketOf ref)
  case check? =>
    intro ref key apart
    rw [List.map_append, List.mem_append, not_or] at apart
    have different : (ref, key) ≠ (item.1, item.2.key) := fun same => apart.2 (by simp [same, place])
    exact (Agent.check?_keepValue value clock different).trans (executed.check? ref key apart.1)

/-! ### Looking up again -/

theorem dueHosts_eq (executed : start.Executed done now) :
    now.agent.dueHosts owner delay = start.agent.dueHosts owner delay := by
  have server? : now.agent.server? = start.agent.server? := by
    funext ref
    rw [Agent.server?, executed.servers, Agent.server?]
  have hostNamed? : now.agent.hostNamed? owner = start.agent.hostNamed? owner := by
    funext name
    rw [Agent.hostNamed?, server?, Agent.hostNamed?]
  rw [Agent.dueHosts, Agent.serverBucketOf, server?, executed.scheduler, hostNamed?]
  rfl

theorem dueChecks_eq (executed : start.Executed done now) (sound : start.agent.Sound)
    (fresh : ∀ item ∈ start.agent.dueItems delay ref, place item ∉ done.map place) :
    now.agent.dueChecks ref delay = start.agent.dueChecks ref delay := by
  rw [Agent.dueChecks_eq_filterMap, Agent.dueChecks_eq_filterMap, executed.bucketOf]
  refine List.filterMap_congr ?_
  intro key held
  obtain ⟨check, found, sameKey⟩ := sound.exists_check?_of_held held
  have due : check ∈ start.agent.dueChecks ref delay := by
    rw [Agent.dueChecks_eq_filterMap, List.mem_filterMap]
    exact ⟨key, held, found⟩
  exact executed.check? ref key (sameKey ▸ fresh (ref, check) (List.mem_map_of_mem due))

end World.Executed

/-! ### Collecting -/

namespace Collecting

variable {surroundings : Surroundings} {start : World} {earlier done : List (HostRef × Check)}
  {now : Collecting} {ref : HostRef} {delay : Nat}

/-- Some checks were executed, the last ones of them into a stream that collects nothing
else. -/
structure Progress (surroundings : Surroundings) (start : World) (earlier done : List (HostRef × Check))
    (now : Collecting) : Prop where
  executed : start.Executed (earlier ++ done) now.world
  collected : ∃ records, surroundings.Tells start.agent done records ∧ now.stream.Collects records

theorem Progress.collect (progress : Progress surroundings start earlier done now)
    (item : HostRef × Check) {world : World}
    (executed : start.Executed (earlier ++ done ++ [item]) world) (clock : Int) :
    ∃ after, Collecting.collect ⟨world, now.stream⟩
        (surroundings.recordOf (start.agent.hostName item.1) item.2 clock) = (.ok (), after) ∧
      Progress surroundings start earlier (done ++ [item]) after := by
  obtain ⟨records, tells, collects⟩ := progress.collected
  obtain ⟨stream, appended, collectsMore⟩ :=
    collects.appendRecord (surroundings.recordOf (start.agent.hostName item.1) item.2 clock)
  refine ⟨⟨world, stream⟩, ?_, ?_, _, tells.concat item clock, collectsMore⟩
  · rw [Collecting.collect, appended]
  · rwa [List.append_assoc] at executed

theorem Progress.execute (progress : Progress surroundings start earlier done now)
    (harmless : surroundings.Harmless) (item : HostRef × Check) :
    ∃ after, now.execute surroundings item.1 (start.agent.hostName item.1) item.2 =
        (.ok !surroundings.fails (start.agent.hostName item.1) item.2, after) ∧
      Progress surroundings start earlier (done ++ [item]) after := by
  have ends := harmless.ends (start.agent.hostName item.1) item.2
  have idle := harmless.idle (start.agent.hostName item.1) item.2
  have executed := progress.executed.interveneAll idle
  unfold Collecting.execute
  dsimp only
  generalize now.world.interveneAll
    (surroundings.execute (start.agent.hostName item.1) item.2).meanwhile = world at executed ⊢
  cases outcome : (surroundings.execute (start.agent.hostName item.1) item.2).outcome with
  | crash => exact absurd outcome ends
  | value value =>
      have fails : surroundings.fails (start.agent.hostName item.1) item.2 = false := by
        rw [Surroundings.fails, outcome]
      have result : surroundings.result (start.agent.hostName item.1) item.2 = value := by
        rw [Surroundings.result, outcome]
      obtain ⟨after, collected, progress⟩ :=
        progress.collect item (executed.keepValue item value world.clock) world.clock.seconds
      refine ⟨after, ?_, progress⟩
      rw [Surroundings.recordOf, result, fails] at collected
      dsimp only
      rw [collected, fails]
      rfl
  | failure causes =>
      have fails : surroundings.fails (start.agent.hostName item.1) item.2 = true := by
        rw [Surroundings.fails, outcome]
      have result : surroundings.result (start.agent.hostName item.1) item.2 =
          ": ".intercalate causes := by
        rw [Surroundings.result, outcome]
      obtain ⟨after, collected, progress⟩ :=
        progress.collect item (executed.append [item]) world.clock.seconds
      refine ⟨after, ?_, progress⟩
      rw [Surroundings.recordOf, result, fails] at collected
      dsimp only
      rw [collected, fails]
      rfl

theorem Progress.executeEach (progress : Progress surroundings start earlier done now)
    (harmless : surroundings.Harmless) (ref : HostRef) (checks : List Check) :
    ∃ after, now.executeEach surroundings ref (start.agent.hostName ref) checks =
        (.ok (surroundings.tallyOf start.agent (checks.map fun check => (ref, check))), after) ∧
      Progress surroundings start earlier (done ++ checks.map fun check => (ref, check)) after := by
  induction checks generalizing done now with
  | nil =>
      rw [List.map_nil, List.append_nil]
      exact ⟨now, rfl, progress⟩
  | cons check rest ih =>
      obtain ⟨middle, first, progress⟩ := progress.execute harmless (ref, check)
      obtain ⟨after, others, progress⟩ := ih progress
      refine ⟨after, ?_, ?_⟩
      · rw [Collecting.executeEach, first]
        dsimp only
        rw [others, List.map_cons, Surroundings.tallyOf_cons]
      · rwa [List.append_assoc, List.singleton_append] at progress

/-- The checks that are due on a host now are those that were due at the start. -/
theorem Progress.executeDue (progress : Progress surroundings start earlier done now)
    (harmless : surroundings.Harmless) (sound : start.agent.Sound)
    (fresh : ∀ item ∈ start.agent.dueItems delay ref, place item ∉ (earlier ++ done).map place) :
    ∃ after, now.executeDue surroundings ref (some delay) =
        (.ok (surroundings.tallyOf start.agent (start.agent.dueItems delay ref)), after) ∧
      Progress surroundings start earlier (done ++ start.agent.dueItems delay ref) after := by
  unfold Collecting.executeDue
  dsimp only
  rw [progress.executed.hostName, progress.executed.dueChecks_eq sound fresh]
  exact progress.executeEach harmless ref (start.agent.dueChecks ref delay)

theorem Progress.executeKeyed (progress : Progress surroundings start earlier done now)
    (harmless : surroundings.Harmless) {item : HostRef × Check}
    (found : start.agent.check? item.1 item.2.key = some item.2)
    (fresh : place item ∉ (earlier ++ done).map place) :
    ∃ after, now.executeKeyed surroundings item.1 item.2.key =
        (.ok (some !surroundings.fails (start.agent.hostName item.1) item.2), after) ∧
      Progress surroundings start earlier (done ++ [item]) after := by
  have foundNow : now.world.agent.check? item.1 item.2.key = some item.2 :=
    (progress.executed.check? item.1 item.2.key fresh).trans found
  obtain ⟨after, executed, progressAfter⟩ := progress.execute harmless item
  refine ⟨after, ?_, progressAfter⟩
  rw [Agent.check?] at foundNow
  rw [Collecting.executeKeyed, foundNow, progress.executed.hostName]
  dsimp only
  rw [executed]

end Collecting

end CheckRounds
