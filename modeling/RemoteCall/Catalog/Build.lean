import RemoteCall.Catalog.Authority
import RemoteCall.Migration.Engine

/-!
# Building catalogs

The catalog for a caller lists the operations that the caller's role may see,
then the library functions, then the caller's own code.  Signatures are
downgraded when the session speaks an older protocol than the service.

| What | Where calls are sent | Key |
|------|----------------------|-----|
| an operation at `p` | `p` | `p` |
| a library function at `m` | `action.execute` | `m` |
| user code called `f` | `code.call` | `code.call_f` |
-/

namespace RemoteCall

/-- The path that calls of all library functions are sent to. -/
def libDispatchPath : String := "action.execute"

/-- The service that a catalog is built for. -/
structure ServiceInfo where
  id : Uid
  name : String
  /-- The protocol version that the service's own signatures are written for. -/
  protocol : ProtocolVersion
  /-- Whether warnings are shown at all. -/
  enableWarnings : Bool

namespace Catalog

/-- Endpoints under their keys that still lack identifiers. -/
abbrev Drafts := List (String × (Uid → Endpoint))

/-- The versions to downgrade signatures to, if that is needed. -/
def versionsFor (service : ServiceInfo) (negotiated : ProtocolVersion)
    (engine : MigrationEngine) : Except CatalogError (Option ObjectVersions) :=
  if service.protocol.needsDowngrade negotiated then
    match engine.objectVersions negotiated with
    | .error e => .error (.migration e)
    | .ok versions => .ok (some versions)
  else .ok none

/-- The signature of the endpoint with the given key as the caller will see it,
if key and signature can be used. -/
def adapt (engine : MigrationEngine) (versions : Option ObjectVersions) (key : String)
    (signature : Signature) : Except CatalogError Signature :=
  match checkPath key with
  | .error e => .error e
  | .ok () =>
    match checkSignature key signature with
    | .error e => .error e
    | .ok () =>
      match versions with
      | none => .ok signature
      | some versions => (engine.downgradeSignature versions signature).mapError .migration

/-- Make drafts of some things in order; `draft` gives the key and the signature
of a thing, and its endpoint from the adapted signature. -/
def draftAll {α : Type} (adapt : String → Signature → Except CatalogError Signature)
    (draft : α → String × Signature × (Signature → Uid → Endpoint)) :
    List α → Except CatalogError Drafts
  | [] => .ok []
  | a :: rest =>
    let (key, signature, endpoint) := draft a
    match adapt key signature with
    | .error e => .error e
    | .ok signature =>
      match draftAll adapt draft rest with
      | .error e => .error e
      | .ok drafts => .ok ((key, endpoint signature) :: drafts)

/-- The endpoint of an operation of the service. -/
def serviceDraft (context : WarningContext) (entry : String × ServiceConfig) :
    String × Signature × (Signature → Uid → Endpoint) :=
  let config := entry.2
  (entry.1, config.signature, fun signature id =>
    { Endpoint.new id entry.1 signature with
      name := config.publicName
      doc := config.doc
      warning := config.warning.map fun warning => warning.render context })

def libDraft (entry : String × LibConfig) :
    String × Signature × (Signature → Uid → Endpoint) :=
  let config := entry.2
  (entry.1, config.signature, fun signature id =>
    { Endpoint.new id libDispatchPath signature with
      modulePath := entry.1
      name := config.publicName
      doc := config.doc })

/-- The key of the endpoint of user code. -/
def userCodeKey (code : UserCode) : String := Endpoint.userCodePath ++ "_" ++ code.name

def userCodeDraft (code : UserCode) : String × Signature × (Signature → Uid → Endpoint) :=
  (userCodeKey code, code.signature, fun signature id =>
    Endpoint.withPrebound
      { Endpoint.new id Endpoint.userCodePath signature with
        name := code.name
        doc := some ("User code function " ++ code.name) }
      Endpoint.userCodeKeyword (.uid code.id))

/-- The endpoints of a caller with the given role: those of the service, of the
libraries and of the caller's own code. -/
def drafts (authority : Authority) (service : ServiceInfo) (caller : VerifyKey) (role : Role)
    (adapt : String → Signature → Except CatalogError Signature) :
    Except CatalogError (Drafts × Drafts × Drafts) := do
  let context := ⟨role, service.name, service.enableWarnings⟩
  let configs ← (authority.services role).mapError CatalogError.authority
  let offered := configs.entries.filter fun entry => !entry.2.isFromLib
  let services ← draftAll adapt (serviceDraft context) offered
  let configs ← (authority.libs caller).mapError CatalogError.authority
  let libs ← draftAll adapt libDraft configs.entries
  let code ← (authority.userCode caller).mapError CatalogError.authority
  let userCode ← draftAll adapt userCodeDraft code
  return (services, libs, userCode)

/-- Give drafts their identifiers, the first that of place `start`. -/
def finish (ids : Nat → Uid) (start : Nat) : Drafts → List (String × Endpoint)
  | [] => []
  | (key, endpoint) :: rest => (key, endpoint (ids start)) :: finish ids (start + 1) rest

/-- The catalog that `caller` may see at the `negotiated` protocol version;
`ids` gives the identifiers of the endpoints. -/
def build (authority : Authority) (service : ServiceInfo) (caller : VerifyKey)
    (negotiated : ProtocolVersion) (engine : MigrationEngine) (ids : Nat → Uid) :
    Except CatalogError Catalog := do
  let role ← (authority.roleOf caller).mapError CatalogError.authority
  let versions ← versionsFor service negotiated engine
  let (services, libs, userCode) ←
    drafts authority service caller role (adapt engine versions)
  let endpoints := finish ids 0 (services ++ userCode)
  let libEndpoints := finish ids endpoints.length libs
  return {
    service := service.id
    serviceName := service.name
    protocol := negotiated
    role := role
    endpoints := SortedMap.ofList endpoints
    libEndpoints := SortedMap.ofList libEndpoints }

end Catalog

end RemoteCall
