import RemoteCall.Path
import RemoteCall.Signature.Arguments

/-!
# Actions and jobs

A library function is not dispatched to a path of its own.  The call is wrapped
in an action, which travels as a domain object and names the function, its
arguments and the place where the service keeps the result.

A call that does not wait is answered with a job, a domain object as well.
-/

namespace RemoteCall

/-- Whether an action calls a function or a method of an object. -/
inductive ActionType where
  | function
  | method
  deriving DecidableEq, Repr

namespace ActionType

def name : ActionType → String
  | .function => "function"
  | .method => "method"

def ofName? : String → Option ActionType
  | "function" => some .function
  | "method" => some .method
  | _ => none

instance : Json.Wire ActionType where
  toJson type := .str type.name
  ofJson? value := (Json.name? false value).bind ofName?

end ActionType

/-- A requested library operation. -/
structure Action where
  id : Uid
  /-- The module that the operation is in. -/
  path : String
  op : String
  /-- The object whose method is called. -/
  receiver : Option Uid
  arguments : Arguments
  type : ActionType
  /-- Where the service keeps the result. -/
  resultId : Uid

namespace Action

/-- The name of the objects that actions travel as. -/
def objectName : String := "Action"

def objectVersion : UInt32 := 1

/-- A call of the function at a dotted path. -/
def function (id resultId : Uid) (modulePath : String) (arguments : Arguments) : Action where
  id := id
  path := Path.parent modulePath
  op := Path.leaf modulePath
  receiver := none
  arguments := arguments
  type := .function
  resultId := resultId

def fullPath (action : Action) : String :=
  if action.path = "" then action.op else action.path ++ "." ++ action.op

def toObject (action : Action) : ObjectValue where
  name := objectName
  version := objectVersion
  fields := Entries.ofList [
    ("id", .uid action.id),
    ("path", .str action.path),
    ("op", .str action.op),
    ("remote_self", toValue action.receiver),
    ("args", .list action.arguments.args),
    ("kwargs", .map action.arguments.kwargs.entries),
    ("action_type", .str action.type.name),
    ("result_id", .uid action.resultId)]

instance : ToValue Action := ⟨fun action => .object action.toObject⟩

/-- The receiver that a field holds: an identifier or none. -/
def receiver? : Value → Option (Option Uid)
  | .none => some none
  | .uid uid => some (some uid)
  | _ => none

/-- The named arguments that a field holds. -/
def kwargs? : Value → Option (SortedMap String Value)
  | .map entries => some (SortedMap.ofList entries)
  | _ => none

/-- The action that a value is the object of. -/
def ofValue? (value : Value) : Option Action := do
  let object ← value.asObject?
  if object.name = objectName then
    return {
      id := ← (← object.get? "id").asUid?
      path := ← (← object.get? "path").asStr?
      op := ← (← object.get? "op").asStr?
      receiver := ← receiver? (← object.get? "remote_self")
      arguments := {
        args := ← (← object.get? "args").asList?
        kwargs := ← kwargs? (← object.get? "kwargs") }
      type := ← ActionType.ofName? (← (← object.get? "action_type").asStr?)
      resultId := ← (← object.get? "result_id").asUid? }
  else none

end Action

/-- Work that a service is still doing. -/
structure Job where
  id : Uid
  service : Uid
  /-- The path of the call that started the job. -/
  path : String
  deriving DecidableEq

namespace Job

/-- The name of the objects that jobs travel as. -/
def objectName : String := "Job"

def objectVersion : UInt32 := 1

/-- The operation that lists the jobs of a piece of user code. -/
def listPath : String := "job.get_by_user_code_id"

def toObject (job : Job) : ObjectValue where
  name := objectName
  version := objectVersion
  fields := Entries.ofList [
    ("id", .uid job.id), ("service_id", .uid job.service), ("path", .str job.path)]

instance : ToValue Job := ⟨fun job => .object job.toObject⟩

/-- The job that a value is the object of. -/
def ofValue? (value : Value) : Option Job := do
  let object ← value.asObject?
  if object.name = objectName then
    return {
      id := ← (← object.get? "id").asUid?
      service := ← (← object.get? "service_id").asUid?
      path := ← (← object.get? "path").asStr? }
  else none

end Job

end RemoteCall
