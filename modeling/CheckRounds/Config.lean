import CheckRounds.Fault
import CheckRounds.Text.Blank

namespace CheckRounds

/-! The configuration of an agent: its servers, their hosts, and how rounds are run. -/

/-- How the work of a round is divided into units that run side by side. -/
inductive WorkPolicy
  | server
  | host
  | check
deriving DecidableEq, Repr, Inhabited

/-- Where the results of a round are collected: in memory or in a file, and either in
a plain buffer or in one that is sent without being copied as a whole. -/
inductive CollationMode
  | memory
  | directMemory
  | disk
  | directDisk
deriving DecidableEq, Repr, Inhabited

def WorkPolicy.name : WorkPolicy → String
  | .server => "server"
  | .host => "host"
  | .check => "check"

def WorkPolicy.all : List WorkPolicy := [.server, .host, .check]

def WorkPolicy.ofName? (name : String) : Option WorkPolicy :=
  WorkPolicy.all.find? fun policy => policy.name == name

namespace CollationMode

def ofFeatures (disk direct : Bool) : CollationMode :=
  match disk, direct with
  | false, false => .memory
  | false, true => .directMemory
  | true, false => .disk
  | true, true => .directDisk

def usesFile : CollationMode → Bool
  | .disk | .directDisk => true
  | _ => false

def isDirect : CollationMode → Bool
  | .directMemory | .directDisk => true
  | _ => false

def name : CollationMode → String
  | .memory => "memory"
  | .directMemory => "directmemory"
  | .disk => "disk"
  | .directDisk => "directdisk"

def all : List CollationMode := [.memory, .directMemory, .disk, .directDisk]

def ofName? (name : String) : Option CollationMode := all.find? fun mode => mode.name == name

theorem ofFeatures_usesFile_isDirect (mode : CollationMode) :
    ofFeatures mode.usesFile mode.isDirect = mode := by cases mode <;> rfl

end CollationMode

structure HostConfig where
  name : String
  /-- The seconds between two refreshes, if the host has a period of its own. -/
  refreshPeriod : Option Nat := none
deriving DecidableEq, Repr, Inhabited

def defaultPort : Nat := 10051

structure ServerConfig where
  address : String
  portNumber : Nat := defaultPort
  /-- The refresh period of the hosts that have none of their own. -/
  refreshPeriod : Nat := 120
  hosts : List HostConfig := []
deriving DecidableEq, Repr, Inhabited

structure AgentConfig where
  policy : WorkPolicy := .host
  collation : CollationMode := .memory
  /-- Where files are put that results are collected in. -/
  collationDir : Option String := none
  /-- The seconds between two sweeps for hosts that need a refresh. -/
  refreshSweep : Nat := 10
  /-- The seconds that one exchange with a server may take. -/
  timeout : Nat := 30
deriving DecidableEq, Repr, Inhabited

structure Config where
  agent : AgentConfig := {}
  servers : List ServerConfig
deriving DecidableEq, Repr, Inhabited

namespace HostConfig

def effectivePeriod (host : HostConfig) (inherited : Nat) : Nat :=
  host.refreshPeriod.getD inherited

def validate (host : HostConfig) : Except ConfigFault Unit :=
  if Text.isBlankText host.name then .error .emptyHostName
  else if host.refreshPeriod = some 0 then .error (.zeroHostPeriod host.name)
  else .ok ()

end HostConfig

namespace ServerConfig

def id (server : ServerConfig) : String := server.address ++ ":" ++ toString server.portNumber

/-- Checks hosts in order, each for itself and then against the names before it. -/
def validateHosts (server : String) (seen : List String) : List HostConfig → Except ConfigFault Unit
  | [] => .ok ()
  | host :: rest =>
      match host.validate with
      | .error fault => .error fault
      | .ok () =>
          if host.name ∈ seen then .error (.duplicateHost host.name server)
          else validateHosts server (host.name :: seen) rest

def validate (server : ServerConfig) : Except ConfigFault Unit :=
  if Text.isBlankText server.address then .error .emptyAddress
  else if server.portNumber = 0 then .error (.zeroPort server.address)
  else if server.refreshPeriod = 0 then .error (.zeroServerPeriod server.id)
  else validateHosts server.id [] server.hosts

end ServerConfig

namespace Config

def validateServers (seen : List String) : List ServerConfig → Except ConfigFault Unit
  | [] => .ok ()
  | server :: rest =>
      match server.validate with
      | .error fault => .error fault
      | .ok () =>
          if server.id ∈ seen then .error (.duplicateServer server.id)
          else validateServers (server.id :: seen) rest

def validate (config : Config) : Except ConfigFault Unit :=
  if config.agent.refreshSweep = 0 then .error .zeroSweepPeriod
  else if config.agent.timeout = 0 then .error .zeroTimeout
  else validateServers [] config.servers

end Config

end CheckRounds
