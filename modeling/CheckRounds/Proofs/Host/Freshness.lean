import CheckRounds.Proofs.Host.Listing

namespace CheckRounds

/-! How current a host says that its marching orders are.

Being asked can mark a host as stale, so what is stored depends on who has asked and when.
What is answered does not: the latest attempt to refresh the host settles it, together with
the time of the question.
-/

namespace Host

/-! ### Attempts and questions -/

/-- What is done to a host about its refreshes. -/
inductive Call
  | applyOrders (orders : List Order) (now : Instant)
  | noteFault (fault : Fault) (now : Instant)
  | askState (now : Instant)
  | askRefresh (now : Instant)

inductive Answer
  | state (state : HostState)
  | due (due : Bool)
deriving DecidableEq

/-- An attempt to refresh a host that has ended, with the fault of one that failed. -/
structure Attempt where
  time : Instant
  fault : Option Fault

namespace Call

def time : Call → Instant
  | .applyOrders _ now | .noteFault _ now | .askState now | .askRefresh now => now

def attempt? : Call → Option Attempt
  | .applyOrders _ now => some ⟨now, none⟩
  | .noteFault fault now => some ⟨now, some fault⟩
  | .askState _ | .askRefresh _ => none

/-- No call comes with an earlier time than one before it. -/
def InOrder (calls : List Call) : Prop :=
  calls.Pairwise fun first second => first.time.nanos ≤ second.time.nanos

def latestAttempt? (calls : List Call) : Option Attempt := (calls.filterMap attempt?).getLast?

end Call

def perform (host : Host) : Call → Host
  | .applyOrders orders now => (host.reconcile orders now).host
  | .noteFault fault now => host.noteFault fault now
  | .askState now => (host.stateAt now).2
  | .askRefresh now => (host.wantsRefresh now).2

def performAll (host : Host) (calls : List Call) : Host := calls.foldl perform host

/-- What a host answers; only questions are answered. -/
def answer? (host : Host) : Call → Option Answer
  | .applyOrders .. | .noteFault .. => none
  | .askState now => some (.state (host.stateAt now).1)
  | .askRefresh now => some (.due (host.wantsRefresh now).1)

/-- The state at a time and whether a refresh is due, by the latest attempt alone. -/
def outlook (period : Nat) (latest : Option Attempt) (now : Instant) : HostState × Bool :=
  match latest with
  | none => (.init, true)
  | some ⟨since, none⟩ =>
      if since.secondsUntil now < period then (.active, false) else (.stale, true)
  | some ⟨since, some (.unknownHost _)⟩ => (.unknown, decide (period ≤ since.secondsUntil now))
  | some ⟨_, some _⟩ => (.refreshFailed, true)

def Call.answerBy? (period : Nat) (latest : Option Attempt) : Call → Option Answer
  | .applyOrders .. | .noteFault .. => none
  | .askState now => some (.state (outlook period latest now).1)
  | .askRefresh now => some (.due (outlook period latest now).2)

/-! ### What a host remembers -/

/-- What is stored of the latest attempt.  A host may have been marked as stale by a question
up to now, but only if its period was over by then. -/
def Remembers (host : Host) (latest : Option Attempt) (now : Instant) : Prop :=
  match latest with
  | none => host.refresh.state = .init
  | some ⟨since, none⟩ => host.refresh.lastRefresh = some since ∧
      (host.refresh.state = .active ∨
        host.refresh.state = .stale ∧ host.refreshPeriod ≤ since.secondsUntil now)
  | some ⟨since, some fault⟩ =>
      host.refresh.state = .afterFault fault ∧ host.refresh.lastAttempt = some since

variable {host : Host} {latest : Option Attempt} {before now : Instant}

theorem stateAt_of_ne_active (inactive : host.refresh.state ≠ .active) :
    host.stateAt now = (host.refresh.state, host) := by
  rw [stateAt, if_neg fun stale => inactive stale.1]

theorem stateAt_of_active {since : Instant} (active : host.refresh.state = .active)
    (lastRefresh : host.refresh.lastRefresh = some since) (now : Instant) : host.stateAt now =
      if since.secondsUntil now < host.refreshPeriod then (.active, host)
      else (.stale, { host with refresh := { host.refresh with state := .stale } }) := by
  rw [stateAt, lastRefresh]
  by_cases current : since.secondsUntil now < host.refreshPeriod
  · have notOver : ¬host.refreshPeriod ≤ since.secondsUntil now := Nat.not_le_of_lt current
    simp [active, periodOver, current, notOver]
  · simp [active, periodOver, current, Nat.le_of_not_lt current]

theorem wantsRefresh_of_stateAt {state : HostState} {after : Host}
    (asked : host.stateAt now = (state, after)) : host.wantsRefresh now =
      (if state = .unknown then after.periodOver after.refresh.lastAttempt now
        else state.wantsOrders || after.periodOver after.refresh.lastRefresh now, after) := by
  rw [wantsRefresh, asked]
  dsimp only
  split <;> rfl

/-- Questions are answered by the latest attempt, and it is still remembered afterwards. -/
theorem Remembers.ask (remembers : host.Remembers latest before)
    (later : before.nanos ≤ now.nanos) :
    ∃ after, host.stateAt now = ((outlook host.refreshPeriod latest now).1, after) ∧
      host.wantsRefresh now = ((outlook host.refreshPeriod latest now).2, after) ∧
      after.Remembers latest now := by
  match latest with
  | none =>
      have initial : host.refresh.state = .init := remembers
      have asked : host.stateAt now = (.init, host) := by
        rw [stateAt_of_ne_active (by simp [initial]), initial]
      refine ⟨host, asked, ?_, remembers⟩
      rw [wantsRefresh_of_stateAt asked]
      rfl
  | some ⟨since, none⟩ =>
      obtain ⟨lastRefresh, active | ⟨stale, elapsed⟩⟩ := remembers
      · have asked := stateAt_of_active active lastRefresh now
        by_cases current : since.secondsUntil now < host.refreshPeriod
        · rw [if_pos current] at asked
          refine ⟨host, ?_, ?_, ⟨lastRefresh, .inl active⟩⟩
          · rw [asked, outlook, if_pos current]
          · have running : ¬host.refreshPeriod ≤ since.secondsUntil now := Nat.not_le_of_lt current
            rw [wantsRefresh_of_stateAt asked, lastRefresh, outlook, if_pos current]
            simp [HostState.wantsOrders, periodOver, running]
        · rw [if_neg current] at asked
          let marked : Host := { host with refresh := { host.refresh with state := .stale } }
          refine ⟨marked, ?_, ?_, ⟨lastRefresh, .inr ⟨rfl, Nat.le_of_not_lt current⟩⟩⟩
          · rw [asked, outlook, if_neg current]
          · rw [wantsRefresh_of_stateAt asked, outlook, if_neg current]
            rfl
      · have overNow : host.refreshPeriod ≤ since.secondsUntil now :=
          Nat.le_trans elapsed (Instant.secondsUntil_mono later)
        have asked : host.stateAt now = (.stale, host) := by
          rw [stateAt_of_ne_active (by simp [stale]), stale]
        refine ⟨host, ?_, ?_, ⟨lastRefresh, .inr ⟨stale, overNow⟩⟩⟩
        · rw [asked, outlook, if_neg (Nat.not_lt_of_le overNow)]
        · rw [wantsRefresh_of_stateAt asked, outlook, if_neg (Nat.not_lt_of_le overNow)]
          rfl
  | some ⟨since, some fault⟩ =>
      obtain ⟨state, lastAttempt⟩ := remembers
      have asked : host.stateAt now = (.afterFault fault, host) := by
        have inactive : HostState.afterFault fault ≠ .active := by cases fault <;> simp [HostState.afterFault]
        rw [stateAt_of_ne_active (state ▸ inactive), state]
      refine ⟨host, ?_, ?_, ⟨state, lastAttempt⟩⟩
      · rw [asked]
        cases fault <;> rfl
      · rw [wantsRefresh_of_stateAt asked, lastAttempt]
        cases fault <;> rfl

/-! ### Calls in a row -/

/-- A host that has not been withdrawn, with what it remembers. -/
structure Follows (host : Host) (period : Nat) (latest : Option Attempt) (now : Instant) : Prop where
  remembers : host.Remembers latest now
  refreshPeriod : host.refreshPeriod = period
  present : host.withdrawn = false

variable {period : Nat} {call : Call}

theorem Follows.stateAt (follows : host.Follows period latest before)
    (later : before.nanos ≤ now.nanos) : (host.stateAt now).2.Follows period latest now := by
  obtain ⟨after, asked, _, remembers⟩ := follows.remembers.ask later
  obtain ⟨refresh, same⟩ := host.stateAt_eq now
  have remembersNow : (host.stateAt now).2.Remembers latest now := by rwa [asked]
  rw [same] at remembersNow ⊢
  exact ⟨remembersNow, follows.refreshPeriod, follows.present⟩

theorem Follows.perform (follows : host.Follows period latest before)
    (later : before.nanos ≤ call.time.nanos) :
    (host.perform call).Follows period (call.attempt?.or latest) call.time := by
  cases call with
  | applyOrders orders now =>
      have applied : (host.perform (.applyOrders orders now)).refreshPeriod = host.refreshPeriod ∧
          (host.perform (.applyOrders orders now)).Remembers (some ⟨now, none⟩) now := by
        rw [Host.perform, reconcile, if_neg (by simp [follows.present])]
        exact ⟨rfl, rfl, .inl rfl⟩
      exact ⟨applied.2, applied.1.trans follows.refreshPeriod,
        withdrawn_reconcile.trans follows.present⟩
  | noteFault fault now => exact ⟨⟨rfl, rfl⟩, follows.refreshPeriod, follows.present⟩
  | askState now => exact follows.stateAt later
  | askRefresh now =>
      rw [Host.perform, wantsRefresh_snd]
      exact follows.stateAt later

theorem latestAttempt?_cons (call : Call) (rest : List Call) :
    Call.latestAttempt? (call :: rest) = (Call.latestAttempt? rest).or call.attempt? := by
  unfold Call.latestAttempt?
  cases attempted : call.attempt? with
  | none => rw [List.filterMap_cons_none attempted, Option.or_none]
  | some attempt =>
      rw [List.filterMap_cons_some attempted, List.getLast?_cons]
      cases (rest.filterMap Call.attempt?).getLast? <;> rfl

theorem Follows.performAll {start : Instant} {calls : List Call} {ask : Call}
    (follows : host.Follows period latest start) (inOrder : Call.InOrder (calls ++ [ask]))
    (begun : ∀ call ∈ calls ++ [ask], start.nanos ≤ call.time.nanos) :
    ∃ last, last.nanos ≤ ask.time.nanos ∧
      (host.performAll calls).Follows period ((Call.latestAttempt? calls).or latest) last := by
  induction calls generalizing host latest start with
  | nil => exact ⟨start, begun ask (by simp), follows⟩
  | cons call rest ih =>
      obtain ⟨ordered, inOrderRest⟩ := List.pairwise_cons.mp inOrder
      have followsNext := follows.perform (begun call (by simp))
      obtain ⟨last, early, followsLast⟩ := ih followsNext inOrderRest ordered
      refine ⟨last, early, ?_⟩
      rwa [latestAttempt?_cons, Option.or_assoc]

theorem Follows.answer?_eq (follows : host.Follows period latest before)
    (later : before.nanos ≤ call.time.nanos) : host.answer? call = call.answerBy? period latest := by
  cases call with
  | applyOrders orders now => rfl
  | noteFault fault now => rfl
  | askState now =>
      have laterNow : before.nanos ≤ now.nanos := later
      obtain ⟨after, asked, _, _⟩ := follows.remembers.ask laterNow
      rw [answer?, Call.answerBy?, asked, follows.refreshPeriod]
  | askRefresh now =>
      have laterNow : before.nanos ≤ now.nanos := later
      obtain ⟨after, _, asked, _⟩ := follows.remembers.ask laterNow
      rw [answer?, Call.answerBy?, asked, follows.refreshPeriod]

theorem follows_new (name : String) (period : Nat) (now : Instant) :
    Host.Follows { name, refreshPeriod := period } period none now := ⟨rfl, rfl, rfl⟩

theorem answer?_performAll (name : String) (period : Nat) {calls : List Call} {ask : Call}
    (inOrder : Call.InOrder (calls ++ [ask])) :
    (performAll { name, refreshPeriod := period } calls).answer? ask =
      ask.answerBy? period (Call.latestAttempt? calls) := by
  cases calls with
  | nil => exact (follows_new name period ask.time).answer?_eq (Int.le_refl _)
  | cons first rest =>
      -- a host that was never refreshed has nothing that gets old, so it may begin at any time
      have begun : ∀ call ∈ first :: rest ++ [ask], first.time.nanos ≤ call.time.nanos := by
        intro call inside
        rcases List.mem_cons.mp inside with rfl | later
        · exact Int.le_refl _
        · exact (List.pairwise_cons.mp inOrder).1 call later
      obtain ⟨last, early, follows⟩ :=
        (follows_new name period first.time).performAll inOrder begun
      rw [Option.or_none] at follows
      exact follows.answer?_eq early

/-- Whatever is done to a host in whatever order, every answer is settled by the latest attempt
to refresh it.  Calls in which the same attempts are made get the same answer, whatever else
was asked between these. -/
theorem answer_by_latestAttempt (name : String) (period : Nat) (calls : List Call) (ask : Call)
    (inOrder : Call.InOrder (calls ++ [ask])) :
    (performAll { name, refreshPeriod := period } calls).answer? ask =
        ask.answerBy? period (Call.latestAttempt? calls) ∧
      ∀ others : List Call, Call.InOrder (others ++ [ask]) →
        others.filterMap Call.attempt? = calls.filterMap Call.attempt? →
        (performAll { name, refreshPeriod := period } others).answer? ask =
          (performAll { name, refreshPeriod := period } calls).answer? ask := by
  have answered := answer?_performAll name period inOrder
  refine ⟨answered, ?_⟩
  intro others othersInOrder sameAttempts
  have sameLatest : Call.latestAttempt? others = Call.latestAttempt? calls :=
    congrArg List.getLast? sameAttempts
  rw [answer?_performAll name period othersInOrder, answered, sameLatest]

/-- The question at the end of the period marks the host as stale, and a later one is answered
as if it had not been asked. -/
theorem answer_by_latestAttempt_when_marked :
    let orders := Call.applyOrders [] (.ofMillis 0)
    let question := Call.askRefresh (.ofMillis 120000)
    let later := Call.askState (.ofMillis 120999)
    let host : Host := { name := "h", refreshPeriod := 120 }
    (host.performAll [orders]).refresh.state = .active ∧
      (host.performAll [orders, question]).refresh.state = .stale ∧
      (host.performAll [orders, question]).answer? later = some (.state .stale) ∧
      (host.performAll [orders]).answer? later = some (.state .stale) := by
  intro orders question later host
  obtain ⟨answered, same⟩ := answer_by_latestAttempt "h" 120 [orders, question] later (by
    simp [Call.InOrder, orders, question, later, Call.time, Instant.ofMillis])
  have stale : later.answerBy? 120 (Call.latestAttempt? [orders, question]) =
      some (.state .stale) := by decide
  refine ⟨by decide, by decide, answered.trans stale, ?_⟩
  rw [same [orders] (by simp [Call.InOrder, orders, later, Call.time, Instant.ofMillis]) rfl]
  exact answered.trans stale

end Host

end CheckRounds
