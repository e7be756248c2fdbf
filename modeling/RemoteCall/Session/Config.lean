import RemoteCall.Fault
import RemoteCall.Migration.ProtocolVersion
import RemoteCall.Session.Routes
import RemoteCall.Signing.Key

/-!
# Configuration

A client is configured by variables.

| Variable | Default | What it says |
|----------|---------|--------------|
| `SIGCALL_URL` | `http://127.0.0.1:8080` | where the service is |
| `SIGCALL_PROTOCOL` | `dev` | the newest protocol version to offer |
| `SIGCALL_SEED` | a fresh key | the seed of the caller's key |
| `SIGCALL_TIMEOUT_SECS` | `30` | how long to wait for an answer |
| `SIGCALL_PIN_SERVICE_KEY` | `true` | whether only the service's own key may sign answers |

The variables are read in this order, and the first fault is reported.
-/

namespace RemoteCall

/-- Why variables are no configuration. -/
inductive ConfigError where
  | protocol (name : String) (cause : InvalidProtocol)
  | seed (name : String) (cause : KeyError)
  | invalid (name expected value : String)
  deriving DecidableEq, Repr

def ConfigError.message : ConfigError → String
  | .protocol name cause => name ++ " is not a valid protocol version: " ++ cause.message
  | .seed name cause => name ++ " is not a valid signing seed: " ++ cause.message
  | .invalid name expected value =>
    name ++ " must be " ++ expected ++ ", got " ++ Text.Quoted.text value

def ConfigError.kind : ConfigError → String
  | .protocol .. => "Protocol"
  | .seed .. => "Seed"
  | .invalid .. => "Invalid"

instance : Fault ConfigError := ⟨ConfigError.kind, ConfigError.message⟩

/-- How a client is set up. -/
structure ClientConfig where
  /-- Where the service is, without a slash at the end. -/
  url : String
  /-- The newest protocol version that is offered. -/
  protocol : ProtocolVersion
  /-- The caller's key; without one a fresh key is used. -/
  key : Option SigningKey
  /-- How many seconds an answer may take. -/
  timeout : UInt64
  /-- Whether only the service's own key may sign answers. -/
  pin : Bool

namespace ClientConfig

def urlVariable : String := "SIGCALL_URL"

/-- The variable with the newest protocol version. -/
def protocolVariable : String := "SIGCALL_PROTOCOL"

/-- The variable with the seed of the caller's key. -/
def seedVariable : String := "SIGCALL_SEED"

/-- The variable with the time an answer may take. -/
def timeoutVariable : String := "SIGCALL_TIMEOUT_SECS"

/-- The variable that says whether the service's key is pinned. -/
def pinVariable : String := "SIGCALL_PIN_SERVICE_KEY"

def variableNames : List String :=
  [urlVariable, protocolVariable, seedVariable, timeoutVariable, pinVariable]

/-- The service's address that a variable holds. -/
def readUrl : Option String → String
  | none => "http://127.0.0.1:8080"
  | some text => Routes.trimSlashes text

/-- The protocol version that a variable holds. -/
def readProtocol : Option String → Except ConfigError ProtocolVersion
  | none => .ok .dev
  | some text => (ProtocolVersion.ofString text).mapError (.protocol protocolVariable)

/-- The key whose seed a variable holds. -/
def readKey : Option String → Except ConfigError (Option SigningKey)
  | none => .ok none
  | some text =>
    match SigningKey.ofHexSeed text with
    | .ok key => .ok (some key)
    | .error e => .error (.seed seedVariable e)

/-- The number of seconds that a variable holds. -/
def readTimeout : Option String → Except ConfigError UInt64
  | none => .ok 30
  | some text =>
    match Text.Decimal.unsigned? UInt64.size text.toList with
    | some n => .ok (UInt64.ofNat n)
    | none => .error (.invalid timeoutVariable "a whole number of seconds" text)

def readPin : Option String → Except ConfigError Bool
  | none => .ok true
  | some text =>
    if text ∈ ["1", "true", "yes"] then .ok true
    else if text ∈ ["0", "false", "no"] then .ok false
    else .error (.invalid pinVariable "true or false" text)

def ofVariables (lookup : String → Option String) : Except ConfigError ClientConfig := do
  return {
    url := readUrl (lookup urlVariable)
    protocol := ← readProtocol (lookup protocolVariable)
    key := ← readKey (lookup seedVariable)
    timeout := ← readTimeout (lookup timeoutVariable)
    pin := ← readPin (lookup pinVariable) }

end ClientConfig

end RemoteCall
