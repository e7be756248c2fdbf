import RemoteCall.Call.Action
import RemoteCall.Catalog.Build
import RemoteCall.Session.Notice
import RemoteCall.Signature.Layout

/-!
# Remote functions

A remote function is an endpoint that can be called like a function of the
client's own.  A call goes through these stages:

1. the reserved keyword is taken out of the arguments,
2. the arguments are checked against the signature,
3. they are brought to the session's protocol version,
4. calls of library functions and user code refer to remote objects by pointers,
5. arguments that go with every call are added,
6. the user is warned, and asked where the warning needs confirmation,
7. calls of library functions enter the trace,
8. the call is dispatched,
9. the value that comes back is brought to the newest versions.

Whatever fails before the eighth stage, nothing is sent.
-/

namespace RemoteCall

/-- How the calls of a function travel. -/
inductive FunctionKind where
  /-- Straight to the endpoint's own path. -/
  | service
  /-- As an action. -/
  | lib
  /-- To the path of all user code, with the identifier of the code. -/
  | userCode (id : Uid)
  deriving DecidableEq

/-- What calls need from the session that they are made in, which acts on states
of type `σ`. -/
structure Dispatcher (σ : Type) where
  service : Uid
  protocol : ProtocolVersion
  engine : MigrationEngine
  /-- Two identifiers that were never used. -/
  freshIds : σ → (Uid × Uid) × σ
  /-- Whether the call of the operation at a path may go out, given the warning
  that comes with it. -/
  confirm : String → String → σ → Bool × σ
  notify : Notice → σ → σ
  /-- Append to the trace, if one is being taken. -/
  recordAction : Action → σ → σ
  /-- Sign and send a call, check and open the answer. -/
  dispatch : Call → σ → Except SessionError CallResult × σ
  /-- The service asks the client to fetch its catalog anew. -/
  requestRefresh : σ → σ

/-- An endpoint as it can be called. -/
structure RemoteFunction where
  /-- The path that the function is listed under. -/
  path : String
  endpoint : Endpoint
  kind : FunctionKind

/-- The arguments of a call without the reserved keyword, ready to be sent. -/
structure AdaptedArguments where
  blocking : Bool
  arguments : Arguments

namespace RemoteFunction

/-- The function for an endpoint.  Its signature does not show the receiver,
unless the endpoint binds one, nor the context.  An endpoint that stands for
user code is user code, also when listed among those of the service. -/
def ofEndpoint (path : String) (endpoint : Endpoint) (kind : FunctionKind) :
    RemoteFunction where
  path := path
  endpoint :=
    { endpoint with signature := endpoint.signature.withoutReceiver endpoint.hasSelf }
  kind :=
    match kind, endpoint.userCodeId? with
    | .service, some id => .userCode id
    | _, _ => kind

/-- The signature as callers see it. -/
def signature (function : RemoteFunction) : Signature := function.endpoint.signature

def describe (function : RemoteFunction) : String :=
  function.signature.render function.path

/-- The identifier of the user code that the function calls. -/
def userCodeId? (function : RemoteFunction) : Option Uid :=
  match function.kind with
  | .userCode id => some id
  | _ => none

/-! ## Making the call -/

/-- Whether the caller waits, and the arguments without the keyword that tells. -/
def splitBlocking (arguments : Arguments) : Except SessionError AdaptedArguments :=
  let rest := { arguments with kwargs := arguments.kwargs.erase reservedKeyword }
  match arguments.kwargs.get? reservedKeyword with
  | none => .ok ⟨true, rest⟩
  | some (.bool blocking) => .ok ⟨blocking, rest⟩
  | some other =>
    .error (.validation (.typeMismatch reservedKeyword "bool" other.typeName))

/-- A value that refers to a remote object by a pointer. -/
def toPointer : Value → Value
  | .remote object => .pointer object.id
  | value => value

/-- Arguments that refer to remote objects by pointers. -/
def toPointers (arguments : Arguments) : Arguments where
  args := arguments.args.map toPointer
  kwargs := arguments.kwargs.mapValues fun _ value => toPointer value

/-- Arguments as the function's kind of call takes them. -/
def forKind (kind : FunctionKind) (arguments : Arguments) : Arguments :=
  match kind with
  | .service => arguments
  | .lib | .userCode _ => toPointers arguments

/-- Check the arguments of a call and make them ready to be sent. -/
def adapt (function : RemoteFunction) (protocol : ProtocolVersion) (engine : MigrationEngine)
    (arguments : Arguments) : Except SessionError AdaptedArguments :=
  match splitBlocking arguments with
  | .error e => .error e
  | .ok ⟨blocking, arguments⟩ =>
    match function.signature.validate arguments with
    | .error e => .error (.validation e)
    | .ok arguments =>
      match engine.migrateArguments .downgrade protocol arguments with
      | .error e => .error (.migration e)
      | .ok arguments =>
        let arguments := forKind function.kind arguments
        let kwargs := arguments.kwargs.union function.endpoint.prebound
        .ok ⟨blocking, { arguments with kwargs }⟩

/-- A call about to be sent, and the action it carries if it is one of a library
function. -/
structure Outgoing where
  call : Call
  action : Option Action

/-- The call with the given arguments.  The call of a library function carries an
action, whose identifiers are `ids`. -/
def compose (function : RemoteFunction) (service : Uid) (protocol : ProtocolVersion)
    (ids : Uid × Uid) (adapted : AdaptedArguments) : Outgoing :=
  let finish (call : Call) : Call :=
    (call.withBlocking adapted.blocking).withProtocol protocol
  match function.kind with
  | .lib =>
    let action := Action.function ids.1 ids.2 function.endpoint.modulePath adapted.arguments
    ⟨finish (.new service libDispatchPath ⟨[toValue action], .empty⟩), some action⟩
  | .service | .userCode _ =>
    ⟨finish (.new service function.endpoint.servicePath adapted.arguments), none⟩

/-! ## Carrying it out -/

variable {σ : Type}

/-- Show the warning, if there is one.  The answer tells whether the call may go
out. -/
def confirm (function : RemoteFunction) (host : Dispatcher σ) (s : σ) : Bool × σ :=
  match function.endpoint.warning with
  | none => (true, s)
  | some warning =>
    if !warning.enabled then (true, s)
    else if !warning.confirmation then
      (true, host.notify (.warning function.path warning.message) s)
    else
      match host.confirm function.path warning.message s with
      | (true, s) => (true, s)
      | (false, s) => (false, host.notify (.declined function.path) s)

/-- What becomes of the answer to a call.  A refresh is only asked for when the
value is one that the client can use. -/
def finish (host : Dispatcher σ) (result : CallResult) (s : σ) :
    Except SessionError Value × σ :=
  match result.toExcept with
  | .error e => (.error (.remote e), s)
  | .ok value =>
    match host.engine.migrateValue .upgrade host.protocol value with
    | .error e => (.error (.migration e), s)
    | .ok value => (.ok value, if result.requiresUpdate then host.requestRefresh s else s)

/-- Send a call and take in the answer. -/
def exchange (host : Dispatcher σ) (call : Call) (s : σ) : Except SessionError Value × σ :=
  match host.dispatch call s with
  | (.error e, s) => (.error e, s)
  | (.ok result, s) => finish host result s

def recordAction (host : Dispatcher σ) (action : Option Action) (s : σ) : σ :=
  match action with
  | none => s
  | some action => host.recordAction action s

/-- Send a call if the user lets it go out. -/
def send (function : RemoteFunction) (host : Dispatcher σ) (outgoing : Outgoing) (s : σ) :
    Except SessionError (Option Value) × σ :=
  match function.confirm host s with
  | (false, s) => (.ok none, s)
  | (true, s) =>
    match exchange host outgoing.call (recordAction host outgoing.action s) with
    | (.error e, s) => (.error e, s)
    | (.ok value, s) => (.ok (some value), s)

/-- Call the function in a session, if there is one.  There is no value if the
user declines. -/
def call (function : RemoteFunction) (host : Option (Dispatcher σ)) (arguments : Arguments)
    (s : σ) : Except SessionError (Option Value) × σ :=
  match host with
  | none => (.error .transportUnavailable, s)
  | some host =>
    match function.adapt host.protocol host.engine arguments with
    | .error e => (.error e, s)
    | .ok adapted =>
      let (ids, s) := host.freshIds s
      function.send host (function.compose host.service host.protocol ids adapted) s

/-- The named argument that tells which user code the jobs are asked for. -/
def jobsKeyword : String := "user_code_id"

/-- The call that asks for the jobs of user code. -/
def jobsCall (service : Uid) (protocol : ProtocolVersion) (id : Uid) : Call :=
  (Call.new service Job.listPath ⟨[], SortedMap.empty.insert jobsKeyword (.uid id)⟩).withProtocol
    protocol

/-- The jobs that were started from this function, which has to be user code. -/
def jobs (function : RemoteFunction) (host : Option (Dispatcher σ)) (s : σ) :
    Except SessionError Value × σ :=
  match function.userCodeId? with
  | none => (.error (.notUserCode function.path), s)
  | some id =>
    match host with
    | none => (.error .transportUnavailable, s)
    | some host => exchange host (jobsCall host.service host.protocol id) s

end RemoteFunction

end RemoteCall
