import CheckRounds.Fault
import CheckRounds.Message.Order
import CheckRounds.Schedule.Bucket
import CheckRounds.Time.Instant

namespace CheckRounds

/-! A monitored host: its checks, and how current its marching orders are.

Marching orders are reconciled with the checks that the host has.  What that means
for the bucket of the host is returned as a list of changes, so that a host can be
reasoned about without the schedule around it.
-/

open Schedule (Change Bucket)

structure Check where
  key : String
  /-- The seconds between two executions. -/
  delay : Nat
  lastValue : Option String := none
  lastCheck : Option Instant := none
  lastLogSize : Nat := 0
  mtime : Nat := 0
deriving DecidableEq, Repr, Inhabited

namespace Check

def ofOrder (order : Order) : Check :=
  { key := order.key, delay := order.delay, lastLogSize := order.lastLogSize, mtime := order.mtime }

/-- The check under new orders; what was collected before stays. -/
def follow (check : Check) (order : Order) : Check :=
  { check with delay := order.delay, lastLogSize := order.lastLogSize, mtime := order.mtime }

def record (check : Check) (value : String) (now : Instant) : Check :=
  { check with lastValue := some value, lastCheck := some now }

end Check

inductive HostState
  | init
  | active
  | refreshFailed
  | unknown
  /-- The marching orders are older than the refresh period. -/
  | stale
deriving DecidableEq, Repr, Inhabited

namespace HostState

def name : HostState → String
  | .init => "INIT"
  | .active => "ACTIVE"
  | .refreshFailed => "MO_FAILED"
  | .unknown => "NO_HOST_DEF"
  | .stale => "STALE"

def debugText : HostState → String
  | .init => "Init"
  | .active => "Active"
  | .refreshFailed => "MoFailed"
  | .unknown => "NoHostDef"
  | .stale => "Stale"

def all : List HostState := [.init, .active, .refreshFailed, .unknown, .stale]

/-- Every state but the active one wants new marching orders. -/
def wantsOrders (state : HostState) : Bool := state ≠ .active

/-- The state that a failed refresh leads to. -/
def afterFault : Fault → HostState
  | .unknownHost _ => .unknown
  | _ => .refreshFailed

end HostState

structure Refresh where
  state : HostState := .init
  lastRefresh : Option Instant := none
  lastAttempt : Option Instant := none
  /-- The keys that the last successful refresh dropped. -/
  removed : SortedSet String := .empty
deriving DecidableEq

/-- How many checks a refresh added, moved to another delay, and dropped. -/
structure ReconcileCounts where
  added : Nat := 0
  updated : Nat := 0
  removed : Nat := 0
deriving DecidableEq, Repr, Inhabited

structure Host where
  name : String
  /-- The seconds for which marching orders stay current. -/
  refreshPeriod : Nat
  checks : SortedMap String Check := .empty
  refresh : Refresh := {}
  /-- Set for good when the host is removed; from then on it schedules nothing. -/
  withdrawn : Bool := false
deriving DecidableEq

instance : Inhabited Host := ⟨{ name := "", refreshPeriod := 0 }⟩

namespace Host

/-- Whether a whole refresh period has passed since an instant, or there is none. -/
def periodOver (host : Host) (since : Option Instant) (now : Instant) : Bool :=
  match since with
  | none => true
  | some since => host.refreshPeriod ≤ since.secondsUntil now

/-- The state at an instant.  Being asked turns an active host whose period is over
into a stale one. -/
def stateAt (host : Host) (now : Instant) : HostState × Host :=
  if host.refresh.state = .active ∧ host.refresh.lastRefresh.isSome ∧
      host.periodOver host.refresh.lastRefresh now then
    (.stale, { host with refresh := { host.refresh with state := .stale } })
  else (host.refresh.state, host)

/-- Whether the host should be refreshed.  A host that its server does not know is
asked for again only after a whole period, others that are not active at once. -/
def wantsRefresh (host : Host) (now : Instant) : Bool × Host :=
  let (state, host) := host.stateAt now
  if state = .unknown then (host.periodOver host.refresh.lastAttempt now, host)
  else (state.wantsOrders || host.periodOver host.refresh.lastRefresh now, host)

/-- What has been reconciled so far: the checks, the changes of the bucket in order,
the wanted keys, and the counts. -/
structure Reconciling where
  checks : SortedMap String Check
  changes : List (Change String) := []
  wanted : SortedSet String := .empty
  added : Nat := 0
  updated : Nat := 0

/-- Applies one order; one with a delay of zero is passed over. -/
def Reconciling.take (progress : Reconciling) (order : Order) : Reconciling :=
  if order.delay = 0 then progress
  else
    let wanted := progress.wanted.insert order.key
    match progress.checks.get? order.key with
    | none =>
        { progress with
          checks := progress.checks.insert order.key (.ofOrder order)
          changes := progress.changes ++ [.insert order.delay order.key]
          wanted
          added := progress.added + 1 }
    | some check =>
        let checks := progress.checks.insert order.key (check.follow order)
        if check.delay = order.delay then { progress with checks, wanted }
        else
          { progress with
            checks
            changes := progress.changes ++ Bucket.moveChanges check.delay order.delay order.key
            wanted
            updated := progress.updated + 1 }

/-- What reconciling did: the counts, the changes of the bucket, and the host. -/
structure Reconciled where
  summary : ReconcileCounts
  changes : List (Change String)
  host : Host

/-- Makes the checks those of the orders.  A withdrawn host drops all orders. -/
def reconcile (host : Host) (orders : List Order) (now : Instant) : Reconciled :=
  if host.withdrawn then ⟨{}, [], host⟩
  else
    let progress := orders.foldl Reconciling.take { checks := host.checks }
    let unwanted := progress.checks.toList.filter fun entry => entry.1 ∉ progress.wanted
    let removed := unwanted.map (·.1)
    { summary :=
        { added := progress.added, updated := progress.updated, removed := removed.length }
      changes := progress.changes ++ unwanted.map fun entry => .delete entry.2.delay entry.1
      host :=
        { host with
          checks := removed.foldl SortedMap.erase progress.checks
          refresh :=
            { state := .active
              lastRefresh := some now
              lastAttempt := some now
              removed := .ofList removed } } }

def noteFault (host : Host) (fault : Fault) (now : Instant) : Host :=
  { host with
    refresh := { host.refresh with lastAttempt := some now, state := .afterFault fault } }

/-- Drops every check for good: the changes of the bucket, and the host. -/
def withdraw (host : Host) : List (Change String) × Host :=
  (host.checks.toList.map fun entry => .delete entry.2.delay entry.1,
    { host with checks := .empty, withdrawn := true })

/-- Keeps the latest value of a check; a check that is gone by then stays gone. -/
def keepValue (host : Host) (key value : String) (now : Instant) : Host :=
  { host with checks := host.checks.modify key fun check => check.record value now }

def allChecks (host : Host) : List Check := host.checks.values

/-- The checks that a bucket lists under a delay. -/
def dueChecks (host : Host) (bucket : Bucket String) (delay : Nat) : List Check :=
  (bucket.items delay).toList.filterMap host.checks.get?

def optionText (text : Option String) : String :=
  match text with
  | none => "None"
  | some text => "Some(" ++ text ++ ")"

def debugText (host : Host) : String :=
  let refresh := Text.record "RefreshState"
    [("state", host.refresh.state.debugText),
      ("last_refresh", optionText (host.refresh.lastRefresh.map Instant.calendarText)),
      ("last_attempt", optionText (host.refresh.lastAttempt.map Instant.calendarText)),
      ("removed", Text.listed "\x7b" "\x7d" (host.refresh.removed.toList.map Text.quoted))]
  Text.record "Host"
    [("name", Text.quoted host.name), ("refresh_period", toString host.refreshPeriod),
      ("checks", toString host.checks.size), ("refresh", refresh)]

end Host

end CheckRounds
