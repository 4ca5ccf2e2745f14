import CheckRounds.Text.Quoted
import CheckRounds.Text.Replacement
import CheckRounds.Time.Duration

namespace CheckRounds

/-! What can go wrong while checks are scheduled, collected and submitted.

Every fault is a cause; its wording is in one place, `message`.
-/

inductive IoFault
  | earlyEof
  | connectionRefused
  | networkUnreachable
  | writerFull
  | fileShrank (present announced : Nat)
  | truncateOutOfRange
  | overwriteOutOfRange
  | noDirectory
  | tooManyFiles
  | other (text : String)
deriving DecidableEq, Repr

inductive ProtocolFault
  | badMagic (found : List UInt8)
  | unsupportedVersion (found : UInt8)
  | oversizedPayload (length : Nat)
  | shortFrame (length : Nat)
  | truncatedFrame (announced present : Nat)
  | headerAlreadyWritten
  | headerNeverWritten
  | malformedJson
  | other (text : String)
deriving DecidableEq, Repr

/-- A configuration that no agent can be built from. -/
inductive ConfigFault
  | zeroSweepPeriod
  | zeroTimeout
  | emptyAddress
  | zeroPort (address : String)
  | zeroServerPeriod (server : String)
  | emptyHostName
  | zeroHostPeriod (host : String)
  | duplicateHost (host server : String)
  | duplicateServer (server : String)
  | registeredServer (server : String)
  | registeredHost (host server : String)
  | other (text : String)
deriving DecidableEq, Repr

inductive Fault
  | transport (cause : IoFault)
  | timeout (after : Duration)
  | protocol (cause : ProtocolFault)
  | unknownHost (host : String)
  | rejected (info : String)
  | invalidConfig (cause : ConfigFault)
  | collation (cause : IoFault)
  | streamClosed
deriving DecidableEq, Repr

def IoFault.message : IoFault → String
  | .earlyEof => "early eof"
  | .connectionRefused => "Connection refused (os error 111)"
  | .networkUnreachable => "Network is unreachable (os error 101)"
  | .writerFull => "writer is full"
  | .fileShrank present announced =>
      "collation file shrank to " ++ toString present ++ " of " ++ toString announced ++ " bytes"
  | .truncateOutOfRange => "truncate length out of range"
  | .overwriteOutOfRange => "overwrite out of range"
  | .noDirectory => "No such file or directory (os error 2)"
  | .tooManyFiles => "too many temporary files exist"
  | .other text => text

/-- A byte as two hexadecimal digits behind `0x`. -/
def byteText (byte : UInt8) : String :=
  (if byte < 16 then "0x0" else "0x") ++ Text.hexDigits byte.toNat

def ProtocolFault.message : ProtocolFault → String
  | .badMagic found => "bad frame magic " ++ Text.quoted (Text.decodeReplacing found)
  | .unsupportedVersion found => "unsupported protocol version " ++ byteText found
  | .oversizedPayload length => "payload of " ++ toString length ++ " bytes exceeds limit"
  | .shortFrame length => "frame of " ++ toString length ++ " bytes is shorter than its header"
  | .truncatedFrame announced present =>
      "truncated frame: announced " ++ toString announced ++ " bytes, got " ++ toString present
  | .headerAlreadyWritten => "frame header already written"
  | .headerNeverWritten => "frame header was never written"
  | .malformedJson => "malformed JSON"
  | .other text => text

def ConfigFault.message : ConfigFault → String
  | .zeroSweepPeriod => "refresh_sweep must be at least 1 second"
  | .zeroTimeout => "timeout must be at least 1 second"
  | .emptyAddress => "server address is empty"
  | .zeroPort address => "server " ++ address ++ " has port 0"
  | .zeroServerPeriod server => "server " ++ server ++ " has a zero refresh period"
  | .emptyHostName => "host name is empty"
  | .zeroHostPeriod host => "host '" ++ host ++ "' has a zero refresh period"
  | .duplicateHost host server => "duplicate host '" ++ host ++ "' on server " ++ server
  | .duplicateServer server => "duplicate server " ++ server
  | .registeredServer server => "server " ++ server ++ " already registered"
  | .registeredHost host server => "host '" ++ host ++ "' already registered on " ++ server
  | .other text => text

def Fault.kind : Fault → String
  | .transport _ => "Transport"
  | .timeout _ => "Timeout"
  | .protocol _ => "Protocol"
  | .unknownHost _ => "UnknownHost"
  | .rejected _ => "Rejected"
  | .invalidConfig _ => "InvalidConfig"
  | .collation _ => "Collation"
  | .streamClosed => "StreamClosed"

def Fault.message : Fault → String
  | .transport cause => "transport error: " ++ cause.message
  | .timeout after => "operation timed out after " ++ after.text
  | .protocol cause => "protocol error: " ++ cause.message
  | .unknownHost host => "host '" ++ host ++ "' is unknown to the server"
  | .rejected info => "server rejected request: " ++ info
  | .invalidConfig cause => "invalid configuration: " ++ cause.message
  | .collation cause => "collation error: " ++ cause.message
  | .streamClosed => "collection stream is closed"

/-- Only a bad configuration keeps the agent from going on. -/
def Fault.isFatal : Fault → Bool
  | .invalidConfig _ => true
  | _ => false

end CheckRounds
