import CheckRounds.Agent.Overview
import CheckRounds.Config.Reader
import CheckRounds.Startup

namespace CheckRounds.CommandLine

/-! The command line: loads a configuration and shows the agent that it describes. -/

open Startup (Arguments LogLevel)

def report (agent : Agent) : List String :=
  agent.debugText :: agent.registeredServers.map Server.debugText

/-- The lines to show, or what is wrong with the configuration. -/
def describe (bytes : List UInt8) : Except String (List String) :=
  match Config.load bytes with
  | .error fault => .error fault.message
  | .ok config =>
      match Agent.create config with
      | .error fault => .error (Fault.invalidConfig fault).message
      | .ok agent => .ok (report agent)

def run (arguments : Arguments) : IO UInt32 := do
  let path := arguments.file.getD (Startup.configPath (← IO.getEnv "AGENT_CONFIG"))
  let tracing := arguments.tracing || Startup.isOn (← IO.getEnv "AGENT_TRACE")
  if Startup.level tracing = LogLevel.trace then IO.eprintln ("reading " ++ path)
  match describe (← IO.FS.readBinFile path).data.toList with
  | .error message =>
      IO.eprintln ("Error: " ++ message)
      return 1
  | .ok lines =>
      lines.forM IO.println
      return 0

end CheckRounds.CommandLine

def main (words : List String) : IO UInt32 :=
  match CheckRounds.Startup.Arguments.parse? words with
  | some arguments => CheckRounds.CommandLine.run arguments
  | none => do
      IO.eprintln CheckRounds.Startup.Arguments.usage
      return 2
