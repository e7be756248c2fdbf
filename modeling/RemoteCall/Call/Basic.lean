import RemoteCall.Migration.ProtocolVersion
import RemoteCall.Signature.Arguments
import RemoteCall.Value.Wire

/-!
# Calls

A call names the service it is for, the path of the operation and the arguments.
The protocol version that the caller speaks travels among the named arguments.
-/

namespace RemoteCall

open Json (Wire)

/-- The named argument that carries the protocol version. -/
def protocolKeyword : String := "communication_protocol"

/-- One invocation of an operation. -/
structure Call where
  /-- The service that the call is for. -/
  target : Uid
  path : String
  arguments : Arguments
  /-- Whether the service is to wait for the result; if not, it answers with a
  job. -/
  blocking : Bool

namespace Call

/-- A call that waits for its result. -/
def new (target : Uid) (path : String) (arguments : Arguments) : Call :=
  ⟨target, path, arguments, true⟩

/-- The call, waiting for its result or not. -/
def withBlocking (call : Call) (blocking : Bool) : Call := { call with blocking }

def withProtocol (call : Call) (protocol : ProtocolVersion) : Call :=
  let kwargs := call.arguments.kwargs.insert protocolKeyword (.str (toString protocol))
  { call with arguments := { call.arguments with kwargs } }

/-- The protocol version attached to the call. -/
def protocol? (call : Call) : Option ProtocolVersion := do
  let text ← (← call.arguments.kwargs.get? protocolKeyword).asStr?
  (ProtocolVersion.ofString text).toOption

/-- Equality of calls, floats compared as numbers. -/
def same (left right : Call) : Bool :=
  left.target == right.target && left.path == right.path &&
    Value.sameItems left.arguments.args right.arguments.args &&
    Value.sameEntries left.arguments.kwargs.entries right.arguments.kwargs.entries &&
    left.blocking == right.blocking

instance : Wire Call where
  toJson call := .obj [
    ("target", Json.toJson call.target),
    ("path", .str call.path),
    ("args", .arr (Value.itemsToJson call.arguments.args)),
    ("kwargs", .obj (Value.entriesToJson call.arguments.kwargs.entries)),
    ("blocking", .bool call.blocking)]
  ofJson? value := do
    match ← Json.fields? ["target", "path", "args", "kwargs", "blocking"] value with
    | [some target, some path, args, kwargs, blocking] =>
      return {
        target := ← Json.ofJson? target
        path := ← Json.str? path
        arguments := {
          args := ← Json.orElse [] (Json.list? Value.ofJson?) args
          kwargs := ← Json.orElse .empty (Json.map? Value.ofJson?) kwargs }
        blocking := ← Json.orElse true Json.bool? blocking }
    | _ => none

end Call

end RemoteCall
