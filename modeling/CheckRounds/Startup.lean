import CheckRounds.Text.Blank

namespace CheckRounds.Startup

/-! What the agent takes from its environment when it starts. -/

def defaultConfigPath : String := "./agent.json"

/-- The path of the configuration file, unless the environment has another one. -/
def configPath (configured : Option String) : String := configured.getD defaultConfigPath

def switchWords : List String := ["1", "true", "yes", "on"]

/-- Whether a switch of the environment is on, in any case and with any blanks around. -/
def isOn (switch : Option String) : Bool :=
  match switch with
  | none => false
  | some word => switchWords.contains (Text.trim word).toLower

inductive LogLevel
  | debug
  | trace
deriving DecidableEq, Repr, Inhabited

/-- Tracing shows payloads and keeps files from being copied piece by piece, so it has to
be asked for. -/
def level (tracing : Bool) : LogLevel := if tracing then .trace else .debug

def LogLevel.name : LogLevel → String
  | .debug => "debug"
  | .trace => "trace"

/-- What a command line asks for. -/
structure Arguments where
  file : Option String := none
  tracing : Bool := false
deriving DecidableEq, Repr, Inhabited

namespace Arguments

/-- Reads `-f FILE`, `-fFILE` and `--trace` in any order; of each at most one is allowed. -/
def parse? : List String → Option Arguments
  | [] => some {}
  | "--trace" :: rest => do
      let later ← parse? rest
      if later.tracing then none else return { later with tracing := true }
  | "-f" :: file :: rest => do
      let later ← parse? rest
      if later.file.isSome then none else return { later with file := some file }
  | word :: rest => do
      let later ← parse? rest
      match word.toList with
      | '-' :: 'f' :: c :: file =>
          if later.file.isSome then none else return { later with file := some (.ofList (c :: file)) }
      | _ => none

def usage : String := "usage: agent [-f FILE] [--trace]"

end Arguments

end CheckRounds.Startup
