import CheckRounds.Text.Blank

namespace CheckRounds

/-! Item keys: a name, and parameters between brackets. -/

structure ItemKey where
  name : String
  parameters : List String
deriving DecidableEq, Repr, Inhabited

namespace ItemKey

/-- Why a key has no value on this machine. -/
inductive KeyFault
  | unterminated (key : String)
  | unsupportedMemory (mode : String)
  | unsupportedKey (key : String)
deriving DecidableEq, Repr

def KeyFault.message : KeyFault → String
  | .unterminated key => "unterminated parameter list in item key '" ++ key ++ "'"
  | .unsupportedMemory mode => "unsupported memory mode '" ++ mode ++ "'"
  | .unsupportedKey key => "unsupported item key '" ++ key ++ "'"

/-- The pieces of a text between commas; there is always at least one. -/
def splitCommas : List Char → List (List Char)
  | [] => [[]]
  | c :: rest =>
      if c = ',' then [] :: splitCommas rest
      else
        match splitCommas rest with
        | [] => [[c]]
        | first :: others => (c :: first) :: others

def parameterList (inside : List Char) : List String :=
  if inside.isEmpty then []
  else (splitCommas inside).map fun piece => String.ofList (Text.trimList piece)

/-- Reads a key.  The name ends at the first opening bracket, and then the key must
end with a closing one. -/
def parse (key : String) : Except KeyFault ItemKey :=
  let name := key.toList.takeWhile (· ≠ '[')
  match key.toList.dropWhile (· ≠ '[') with
  | [] => .ok ⟨key, []⟩
  | _ :: inside =>
      if inside.getLast? = some ']' then
        .ok ⟨String.ofList name, parameterList inside.dropLast⟩
      else .error (.unterminated key)

end ItemKey

inductive SystemQuery
  | ping
  | hostName
  | systemName
  | uptime
  | processorCount
  | processorLoad
  | totalMemory
  | usedMemory
  | availableMemory
deriving DecidableEq, Repr, Inhabited

namespace SystemQuery

structure Machine where
  hostName : String
  systemName : String
  uptime : Nat
  processorCount : Nat
  /-- In hundredths of a percent. -/
  processorLoad : Nat
  totalMemory : Nat
  usedMemory : Nat
  availableMemory : Nat
deriving DecidableEq, Repr, Inhabited

def ofMemoryMode (mode : String) : Except ItemKey.KeyFault SystemQuery :=
  if mode = "total" then .ok .totalMemory
  else if mode = "used" then .ok .usedMemory
  else if mode = "available" then .ok .availableMemory
  else .error (.unsupportedMemory mode)

/-- The question that a key asks.  Memory is the total unless the first parameter
says otherwise; all other parameters are passed over. -/
def ofKey (key : String) : Except ItemKey.KeyFault SystemQuery :=
  match ItemKey.parse key with
  | .error fault => .error fault
  | .ok item =>
      if item.name = "agent.ping" then .ok .ping
      else if item.name = "agent.hostname" then .ok .hostName
      else if item.name = "system.uname" then .ok .systemName
      else if item.name = "system.uptime" then .ok .uptime
      else if item.name = "system.cpu.num" then .ok .processorCount
      else if item.name = "system.cpu.util" then .ok .processorLoad
      else if item.name = "vm.memory.size" then ofMemoryMode (item.parameters.headD "total")
      else .error (.unsupportedKey key)

def answer (machine : Machine) : SystemQuery → String
  | .ping => "1"
  | .hostName => machine.hostName
  | .systemName => machine.systemName
  | .uptime => toString machine.uptime
  | .processorCount => toString machine.processorCount
  | .processorLoad =>
      toString (machine.processorLoad / 100) ++ "." ++
        String.ofList ((toString (100 + machine.processorLoad % 100)).toList.drop 1)
  | .totalMemory => toString machine.totalMemory
  | .usedMemory => toString machine.usedMemory
  | .availableMemory => toString machine.availableMemory

end SystemQuery

end CheckRounds
