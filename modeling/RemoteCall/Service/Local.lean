import RemoteCall.Call.Action
import RemoteCall.Catalog.Build
import RemoteCall.Catalog.Roster
import RemoteCall.Session.Transport
import RemoteCall.Value.IdSource

/-!
# Services in process

A service that runs in the same program as its clients.  It tells the identity
and the catalogs that it is made of, and answers calls by handlers.  It can also
be made to cheat or to fail, to see what its clients make of that.
-/

namespace RemoteCall

/-- What a service does with a call. -/
inductive Handler where
  /-- Answer with the first positional argument. -/
  | echo
  | value (value : Value)
  /-- Answer with the sum of all whole numbers among the positional arguments. -/
  | sum
  /-- Answer with the named argument. -/
  | keyword (name : String)
  /-- Answer with the positional arguments. -/
  | arguments
  /-- Answer with the path of the action that the call carries. -/
  | action
  | fail (error : ErrorDescriptor)
  /-- Give a caller a role. -/
  | grant (caller : VerifyKey) (role : Role)
  /-- Answer with these bytes, whatever they are. -/
  | raw (payload : List UInt8)

/-- How a service signs its answers. -/
inductive ReplyMode where
  | honest
  /-- The payload is exchanged after signing. -/
  | tampered
  /-- Another key signs, under its own name. -/
  | impersonated
  /-- Another key claims to have signed. -/
  | claimed
  /-- The signature lacks its last byte. -/
  | shortSignature
  deriving DecidableEq, Repr

/-- A service in process. -/
structure LocalService where
  key : SigningKey
  info : ServiceInfo
  supported : List ProtocolVersion
  roster : Roster
  engine : MigrationEngine
  /-- Handlers by path, each with whether its answer asks for a refresh. -/
  handlers : SortedMap String (Handler × Bool)
  mode : ReplyMode
  online : Bool
  /-- What the next request fails with. -/
  failNext : Option TransportError
  /-- A catalog that every caller gets. -/
  served : Option Catalog
  /-- How many catalogs were fetched. -/
  fetches : Nat
  /-- The calls received, the latest last. -/
  received : List (VerifyKey × Call)
  ids : IdSource

namespace LocalService

/-- A service that knows nobody and offers nothing. -/
def new (key : SigningKey) (info : ServiceInfo) (engine : MigrationEngine) : LocalService where
  key := key
  info := info
  supported := engine.data.supported
  roster := .empty
  engine := engine
  handlers := .empty
  mode := .honest
  online := true
  failNext := none
  served := none
  fetches := 0
  received := []
  ids := default

/-- The key of the stranger that a cheating service signs with. -/
def stranger : SigningKey := .ofSeed (List.replicate 32 0xee)

def handle (handler : Handler) (update : Bool) (call : Call) : CallResult :=
  match handler with
  | .echo => .ok (call.arguments.args.head?.getD .none) update
  | .value v => .ok v update
  | .sum => .ok (.int ((call.arguments.args.filterMap Value.asInt?).foldl (· + ·) 0)) update
  | .keyword name => .ok ((call.arguments.kwargs.get? name).getD .none) update
  | .arguments => .ok (.list call.arguments.args) update
  | .action =>
    match call.arguments.args.head?.bind Action.ofValue? with
    | some a => .ok (.str a.fullPath) update
    | none => .err (.new "invalid_parameter" "expected an action")
  | .fail e => .err e
  | .grant _ _ | .raw _ => .ok .none update

/-- The answer with the given payload, signed as the service signs. -/
def signReply (service : LocalService) (payload : List UInt8) : Envelope CallResult :=
  let honest : Envelope CallResult := .signBytes service.key payload
  match service.mode with
  | .honest => honest
  | .tampered =>
    let forged := (Codec.encode (CallResult.ok (.str "forged") false)).toOption.getD []
    .ofParts honest.signer honest.signature forged
  | .impersonated => .signBytes stranger payload
  | .claimed => .ofParts stranger.verifyKey honest.signature payload
  | .shortSignature => .ofParts honest.signer honest.signature.dropLast payload

theorem obtainable_signReply {service : LocalService} {payload : List UInt8} :
    (service.signReply payload).Obtainable := by
  rw [signReply]
  split <;> exact .ofParts _ _ _

def reply (service : LocalService) (result : CallResult) :
    Except TransportError (Envelope CallResult) :=
  match Codec.encode result with
  | .ok payload => .ok (service.signReply payload)
  | .error e => .error (.malformed e.message)

theorem obtainable_of_reply {service : LocalService} {result : CallResult}
    {envelope : Envelope CallResult} (h : service.reply result = .ok envelope) :
    envelope.Obtainable := by
  rw [reply] at h
  split at h
  · cases h
    exact obtainable_signReply
  · cases h

/-- Receive and answer a call that came in an envelope of the given signer. -/
def answer (service : LocalService) (signer : VerifyKey) (call : Call) :
    Except TransportError (Envelope CallResult) × LocalService :=
  let service := { service with received := service.received ++ [(signer, call)] }
  match service.handlers.get? call.path with
  | none =>
    (service.reply (.err (.new "unknown_endpoint" ("no handler for `" ++ call.path ++ "`"))),
      service)
  | some (.raw payload, _) => (.ok (.signBytes service.key payload), service)
  | some (.grant caller role, update) =>
    let service := { service with roster := service.roster.grant caller role }
    (service.reply (handle (.grant caller role) update call), service)
  | some (handler, update) => (service.reply (handle handler update call), service)

theorem obtainable_of_answer {service : LocalService} {signer : VerifyKey} {call : Call}
    {envelope : Envelope CallResult} (h : (service.answer signer call).1 = .ok envelope) :
    envelope.Obtainable := by
  rw [answer] at h
  split at h <;> dsimp only at h
  · exact obtainable_of_reply h
  · cases h
    exact .ofParts _ _ _
  · exact obtainable_of_reply h
  · exact obtainable_of_reply h

/-- Fail as the next request is to fail, or as one to a service that is not
there. -/
def gate (service : LocalService) : Except TransportError Unit × LocalService :=
  match service.failNext with
  | some e => (.error e, { service with failNext := none })
  | none =>
    if service.online then (.ok (), service)
    else (.error (.unavailable "connection refused"), service)

def receive (service : LocalService) (envelope : Envelope Call) :
    Except TransportError (Envelope CallResult) × LocalService :=
  match service.gate with
  | (.error e, service) => (.error e, service)
  | (.ok (), service) =>
    match envelope.openPayload with
    | (.ok call, _) => service.answer envelope.signer call
    | (.error e, _) =>
      (service.reply (.err (.new "invalid_signature" e.message)), service)

theorem obtainable_of_receive {service : LocalService} {call : Envelope Call}
    {envelope : Envelope CallResult} (h : (service.receive call).1 = .ok envelope) :
    envelope.Obtainable := by
  rw [receive] at h
  split at h
  · cases h
  · split at h
    · exact obtainable_of_answer h
    · dsimp only at h
      exact obtainable_of_reply h

def identify (service : LocalService) :
    Except TransportError IdentityMetadata × LocalService :=
  match service.gate with
  | (.error e, service) => (.error e, service)
  | (.ok (), service) =>
    (.ok {
      identity := ⟨service.info.id, service.info.name, service.key.verifyKey⟩
      protocol := service.info.protocol
      supported := service.supported }, service)

/-- The catalog of a caller at a protocol version. -/
def buildCatalog (service : LocalService) (caller : VerifyKey) (protocol : ProtocolVersion) :
    Except CatalogError Catalog × LocalService :=
  let ids place := service.ids.idAt (service.ids.drawn + place)
  let catalog :=
    Catalog.build service.roster.authority service.info caller protocol service.engine ids
  let count := match catalog with
    | .ok catalog => catalog.size
    | .error _ => 0
  (catalog, { service with ids := service.ids.advance count })

def fetchCatalog (service : LocalService) (caller : VerifyKey) (protocol : ProtocolVersion) :
    Except TransportError Catalog × LocalService :=
  match service.gate with
  | (.error e, service) => (.error e, service)
  | (.ok (), service) =>
    let service := { service with fetches := service.fetches + 1 }
    match service.served with
    | some catalog => (.ok catalog, service)
    | none =>
      match service.buildCatalog caller protocol with
      | (.ok catalog, service) => (.ok catalog, service)
      | (.error e, service) => (.error (.status 403 e.message), service)

end LocalService

/-- Services in process, by name. -/
abbrev Network := List (String × LocalService)

namespace Network

/-- The service of the given name; if there is none, one that is not there. -/
def service (network : Network) (name : String) : LocalService :=
  (network.lookup name).getD
    { LocalService.new LocalService.stranger ⟨default, name, .dev, true⟩ .empty with
      online := false }

/-- Put a service in the place of the one of its name. -/
def update (network : Network) (name : String) (service : LocalService) : Network :=
  network.map fun entry => if entry.1 = name then (name, service) else entry

/-- Let the service of the given name do something. -/
def ask {α : Type} (network : Network) (name : String)
    (act : LocalService → α × LocalService) : α × Network :=
  match act (network.service name) with
  | (answer, service) => (answer, network.update name service)

/-- The way to the service of the given name. -/
def transport (name : String) : Transport Network where
  send envelope network := network.ask name (·.receive envelope)
  identity _ network := network.ask name (·.identify)
  catalog caller protocol network := network.ask name (·.fetchCatalog caller protocol)
  obtainable_of_send := LocalService.obtainable_of_receive

end Network

end RemoteCall
