import CheckRounds.Config
import CheckRounds.Json.Tree

namespace CheckRounds

/-! Configurations read from JSON text. -/

open Json (Tree)

def HostConfig.read? (tree : Tree) : Option HostConfig := do
  let fields ← tree.fields? ["name", "refresh_period"] 1
  let name ← Tree.required? Tree.text? fields "name"
  let refreshPeriod ← Tree.defaulted? (Tree.optional? Tree.natural?) none fields "refresh_period"
  return { name, refreshPeriod }

def readPort? (tree : Tree) : Option Nat := tree.natural?.filter (· < 65536)

def ServerConfig.read? (tree : Tree) : Option ServerConfig := do
  let fields ← tree.fields? ["address", "port", "refresh_period", "hosts"] 1
  let address ← Tree.required? Tree.text? fields "address"
  let portNumber ← Tree.defaulted? readPort? defaultPort fields "port"
  let refreshPeriod ← Tree.defaulted? Tree.natural? 120 fields "refresh_period"
  let hosts ← Tree.defaulted? (Tree.list? HostConfig.read?) [] fields "hosts"
  return { address, portNumber, refreshPeriod, hosts }

def WorkPolicy.read? (tree : Tree) : Option WorkPolicy := tree.name?.bind WorkPolicy.ofName?

def CollationMode.read? (tree : Tree) : Option CollationMode :=
  tree.name?.bind CollationMode.ofName?

def AgentConfig.read? (tree : Tree) : Option AgentConfig := do
  let fields ←
    tree.fields? ["thread_policy", "collation", "collation_dir", "refresh_sweep", "timeout"] 3
  let policy ← Tree.defaulted? WorkPolicy.read? .host fields "thread_policy"
  let collation ← Tree.defaulted? CollationMode.read? .memory fields "collation"
  let collationDir ← Tree.defaulted? (Tree.optional? Tree.text?) none fields "collation_dir"
  let refreshSweep ← Tree.defaulted? Tree.natural? 10 fields "refresh_sweep"
  let timeout ← Tree.defaulted? Tree.natural? 30 fields "timeout"
  return { policy, collation, collationDir, refreshSweep, timeout }

namespace Config

def read? (tree : Tree) : Option Config := do
  let fields ← tree.fields? ["agent", "servers"] 2
  let agent ← Tree.defaulted? AgentConfig.read? {} fields "agent"
  let servers ← Tree.required? (Tree.list? ServerConfig.read?) fields "servers"
  return { agent, servers }

inductive LoadFault
  | notText
  | malformed
  | invalid (cause : ConfigFault)
deriving DecidableEq, Repr

/-- Reads the bytes of a configuration file, which must be text throughout. -/
def load (bytes : List UInt8) : Except LoadFault Config :=
  match ofUtf8? bytes with
  | none => .error .notText
  | some _ =>
      match (Tree.parse? bytes).bind read? with
      | none => .error .malformed
      | some config =>
          match config.validate with
          | .error fault => .error (.invalid fault)
          | .ok () => .ok config

def LoadFault.message : LoadFault → String
  | .notText => "stream did not contain valid UTF-8"
  | .malformed => "Invalid configuration file provided"
  | .invalid cause => (Fault.invalidConfig cause).message

end Config

end CheckRounds
