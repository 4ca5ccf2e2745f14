import CheckRounds.Agent
import CheckRounds.Collation.Stream

namespace CheckRounds

/-! What the agent says about itself: its statistics, and its parts as diagnostics show
them. -/

structure Overview where
  servers : Nat
  hosts : Nat
  timerDelays : List Nat
  policy : WorkPolicy
  collation : CollationMode
  /-- For every registered server, by id, what was submitted to it. -/
  submissions : List (String × SubmissionTotals)
deriving DecidableEq

namespace Agent

def registeredServers (agent : Agent) : List Server := agent.serverRefs.filterMap agent.server?

def overview (agent : Agent) : Overview :=
  let servers := agent.registeredServers
  { servers := servers.length
    hosts := servers.foldr (fun server count => server.hosts.size + count) 0
    timerDelays := agent.timerDelays
    policy := agent.settings.policy
    collation := agent.settings.collation
    submissions := servers.map fun server => (server.id, server.stats) }

end Agent

def policyText : WorkPolicy → String
  | .server => "Server"
  | .host => "Host"
  | .check => "Check"

def RoundSettings.debugText (settings : RoundSettings) : String :=
  Text.record "Settings"
    [("thread_policy", policyText settings.policy),
      ("collation", Collation.Stream.modeText settings.collation),
      ("collation_dir", Host.optionText (settings.collationDir.map Text.quoted))]

def Server.debugText (server : Server) : String :=
  Text.record "Server"
    [("id", Text.quoted server.id), ("refresh_period", toString server.refreshPeriod),
      ("hosts", Text.listed "[" "]" (server.hosts.keys.map Text.quoted))]

def Agent.debugText (agent : Agent) : String :=
  Text.record "Agent"
    [("servers", Text.listed "[" "]" (agent.registered.keys.map Text.quoted)),
      ("root", agent.scheduler.root.debugText), ("settings", agent.settings.debugText)]

end CheckRounds
