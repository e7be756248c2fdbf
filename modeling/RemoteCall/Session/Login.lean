import RemoteCall.Session.Basic

/-!
# Logging in

A client asks the service who it is, agrees with it on the newest protocol
version that both speak, and fetches the caller's catalog.  A session is only
made with a catalog that belongs to that service and can be used.
-/

namespace RemoteCall

/-- What a session is to be made of. -/
structure Login (ω : Type) where
  transport : Transport ω
  key : SigningKey
  engine : MigrationEngine
  prompter : Prompter ω
  /-- The newest protocol version that is offered. -/
  newest : ProtocolVersion
  /-- Whether only answers signed by the service's own key are taken. -/
  pin : Bool

namespace Login

variable {ω : Type}

/-- A login of a caller who knows no types, agrees to nothing, speaks every
version and pins the service's key. -/
def new (transport : Transport ω) (key : SigningKey) : Login ω where
  transport := transport
  key := key
  engine := .empty
  prompter := .declineAll
  newest := .dev
  pin := true

/-- The protocol versions that are offered, ascending. -/
def offered (login : Login ω) : List ProtocolVersion :=
  login.engine.data.supported.filter fun version => version.atMost login.newest

/-- The session with a service that told `metadata`, at a protocol version and
with a catalog got elsewhere. -/
def build (login : Login ω) (metadata : IdentityMetadata) (protocol : ProtocolVersion)
    (catalog : Catalog) (ids : IdSource) :
    Except SessionError (Session ω × SessionState ω) :=
  match metadata.identity.checkCatalog catalog with
  | .error e => .error e
  | .ok () =>
    .ok ({
      service := metadata.identity
      key := login.key
      protocol := protocol
      transport := login.transport
      engine := login.engine
      prompter := login.prompter
      pinned := if login.pin then some metadata.identity.verifyKey else none
    }, .new catalog ids)

def run (login : Login ω) (ids : IdSource) (world : ω) :
    Except SessionError (Session ω × SessionState ω) × ω :=
  let caller := login.key.verifyKey
  match login.transport.identity caller world with
  | (.error e, world) => (.error (.ofTransport e), world)
  | (.ok metadata, world) =>
    match metadata.negotiate login.offered with
    | none => (.error .noCommonProtocol, world)
    | some protocol =>
      match login.transport.catalog caller protocol world with
      | (.error e, world) => (.error (.ofTransport e), world)
      | (.ok catalog, world) => (login.build metadata protocol catalog ids, world)

end Login

end RemoteCall
