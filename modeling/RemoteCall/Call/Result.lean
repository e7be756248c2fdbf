import RemoteCall.Value.Wire

/-!
# Results of calls

A service answers a call with a value or with an error of its own.  With a value
it may ask the client to fetch its catalog anew.

The outcome is told by a field `status` beside the other fields.  Since that
field may stand last, a result is taken in as a whole before it is read, and no
part of it may be unreadable.
-/

namespace RemoteCall

open Json (Wire)

/-- A failure that the service reports. -/
structure ErrorDescriptor where
  /-- What kind of failure it is, for programs. -/
  code : String
  /-- What happened, for people. -/
  message : String
  trace : Option String
  deriving DecidableEq, Repr

instance : ToString ErrorDescriptor := ⟨fun e => e.code ++ ": " ++ e.message⟩

namespace ErrorDescriptor

def new (code message : String) : ErrorDescriptor := ⟨code, message, none⟩

def withTrace (e : ErrorDescriptor) (trace : String) : ErrorDescriptor :=
  { e with trace := some trace }

instance : Wire ErrorDescriptor where
  toJson e := .obj (("code", .str e.code) :: ("message", .str e.message) ::
    match e.trace with
    | none => []
    | some trace => [("trace", .str trace)])
  ofJson? value := do
    match ← Json.fields? ["code", "message", "trace"] value with
    | [some code, some message, trace] =>
      return ⟨← Json.str? code, ← Json.str? message, ← Json.optional Json.str? trace⟩
    | _ => none

end ErrorDescriptor

/-- The outcome of a call. -/
inductive CallResult where
  /-- A value; `update` asks the client to fetch its catalog anew. -/
  | ok (value : Value) (update : Bool)
  | err (error : ErrorDescriptor)

namespace CallResult

/-- Whether the client is asked to fetch its catalog anew. -/
def requiresUpdate : CallResult → Bool
  | .ok _ update => update
  | .err _ => false

def toExcept : CallResult → Except ErrorDescriptor Value
  | .ok value _ => .ok value
  | .err error => .error error

def toJson : CallResult → Json
  | .ok value update => .obj [("status", .str "ok"), ("value", Json.toJson value),
      ("require_api_update", .bool update)]
  | .err error => .obj [("status", .str "err"), ("error", Json.toJson error)]

/-- The `status` of a result, and the rest of it. -/
def status? : Json → Option (String × Json)
  | .obj members =>
    match members.filter fun member => member.1 == "status" with
    | [(_, .str status)] => some (status, .obj (members.filter fun member => member.1 != "status"))
    | _ => none
  | .arr (.str status :: rest) => some (status, .arr rest)
  | _ => none

def ofJson? (json : Json) : Option CallResult := do
  if json.isReadable then
    match ← status? json with
    | ("ok", rest) =>
      match ← Json.fields? ["value", "require_api_update"] rest with
      | [some value, update] =>
        return .ok (← Value.ofJsonWithin? (value.depth + 1) true value)
          (← Json.orElse false Json.bool? update)
      | _ => none
    | ("err", rest) =>
      match ← Json.fields? ["error"] rest with
      | [some error] => return .err (← Json.ofJson? error)
      | _ => none
    | _ => none
  else none

instance : Wire CallResult := ⟨toJson, ofJson?⟩

end CallResult

end RemoteCall
