import RemoteCall.Catalog.Role
import RemoteCall.Migration.ProtocolVersion
import RemoteCall.Path
import RemoteCall.Signature.Basic
import RemoteCall.Value.Wire

/-!
# Endpoints and catalogs

An endpoint is an operation as a caller sees it: where calls of it are sent,
under which path and name it is listed, and how it is called.  A catalog holds
all endpoints that one caller may use on one service at one protocol version.
-/

namespace RemoteCall

open Json (Wire)

/-- What a caller is told before an endpoint is called. -/
structure EndpointWarning where
  message : String
  /-- Whether the caller has to agree before the call is sent. -/
  confirmation : Bool
  /-- A warning that is switched off is never shown. -/
  enabled : Bool
  deriving DecidableEq, Repr

/-- One operation that a service offers to a caller. -/
structure Endpoint where
  id : Uid
  /-- The path that calls are sent to. -/
  servicePath : String
  /-- The path that the endpoint is listed under. -/
  modulePath : String
  /-- The name it is listed by, in the place of the path's last segment. -/
  name : String
  description : String
  doc : Option String
  signature : Signature
  /-- Whether the endpoint binds a receiver. -/
  hasSelf : Bool
  /-- Named arguments that go with every call. -/
  prebound : SortedMap String Value
  warning : Option EndpointWarning

namespace Endpoint

/-- An endpoint that is listed where its calls are sent. -/
def new (id : Uid) (path : String) (signature : Signature) : Endpoint where
  id := id
  servicePath := path
  modulePath := path
  name := Path.leaf path
  description := ""
  doc := none
  signature := signature
  hasSelf := false
  prebound := .empty
  warning := none

/-- The endpoint with a named argument that goes with every call. -/
def withPrebound (endpoint : Endpoint) (name : String) (value : Value) : Endpoint :=
  { endpoint with prebound := endpoint.prebound.insert name value }

/-- The path of the namespace that the endpoint is listed in. -/
def space (endpoint : Endpoint) : String := Path.parent endpoint.modulePath

/-- The path that calls of user code are sent to. -/
def userCodePath : String := "code.call"

/-- The named argument that carries the identifier of user code. -/
def userCodeKeyword : String := "uid"

/-- The identifier of the user code that the endpoint stands for. -/
def userCodeId? (endpoint : Endpoint) : Option Uid :=
  if endpoint.servicePath = userCodePath then
    (endpoint.prebound.get? userCodeKeyword).bind Value.asUid?
  else none

end Endpoint

/-- All that a caller may use on a service. -/
structure Catalog where
  service : Uid
  serviceName : String
  protocol : ProtocolVersion
  role : Role
  endpoints : SortedMap String Endpoint
  /-- Library functions, whose calls are sent as actions. -/
  libEndpoints : SortedMap String Endpoint

namespace Catalog

instance : Inhabited Catalog := ⟨⟨default, "", .dev, .none, .empty, .empty⟩⟩

def size (catalog : Catalog) : Nat := catalog.endpoints.size + catalog.libEndpoints.size

end Catalog

/-! ## Wire form -/

instance : Wire EndpointWarning where
  toJson warning := .obj [("message", .str warning.message),
    ("confirmation", .bool warning.confirmation), ("enabled", .bool warning.enabled)]
  ofJson? value := do
    match ← Json.fields? ["message", "confirmation", "enabled"] value with
    | [some message, confirmation, enabled] =>
      return ⟨← Json.str? message, ← Json.orElse false Json.bool? confirmation,
        ← Json.orElse true Json.bool? enabled⟩
    | _ => none

namespace Endpoint

/-- A member that is left out when there is nothing to tell. -/
def member {α : Type} [Wire α] (name : String) : Option α → List (String × Json)
  | none => []
  | some a => [(name, Json.toJson a)]

/-- The members of an endpoint's tree after its identifier. -/
def membersAfterId (endpoint : Endpoint) : List (String × Json) :=
  [("service_path", .str endpoint.servicePath),
    ("module_path", .str endpoint.modulePath),
    ("name", .str endpoint.name),
    ("description", .str endpoint.description)] ++
  endpoint.doc.toList.map (fun doc => ("doc_string", Json.str doc)) ++
  [("signature", Json.toJson endpoint.signature),
    ("has_self", .bool endpoint.hasSelf)] ++
  (if endpoint.prebound.isEmpty then []
    else [("prebound", .obj (Value.entriesToJson endpoint.prebound.entries))]) ++
  member "warning" endpoint.warning

instance : Wire Endpoint where
  toJson endpoint := .obj (("id", Json.toJson endpoint.id) :: endpoint.membersAfterId)
  ofJson? value := do
    let names := ["id", "service_path", "module_path", "name", "description", "doc_string",
      "signature", "has_self", "prebound", "warning"]
    match ← Json.fields? names value with
    | [some id, some servicePath, some modulePath, some name, description, doc,
        some signature, hasSelf, prebound, warning] =>
      return {
        id := ← Json.ofJson? id
        servicePath := ← Json.str? servicePath
        modulePath := ← Json.str? modulePath
        name := ← Json.str? name
        description := ← Json.orElse "" Json.str? description
        doc := ← Json.optional Json.str? doc
        signature := ← Json.ofJson? signature
        hasSelf := ← Json.orElse false Json.bool? hasSelf
        prebound := ← Json.orElse .empty (Json.map? Value.ofJson?) prebound
        warning := ← Json.optional Json.ofJson? warning }
    | _ => none

end Endpoint

namespace Catalog

/-- The tree of endpoints under their keys. -/
def endpointsToJson (endpoints : SortedMap String Endpoint) : Json :=
  .obj (endpoints.entries.map fun entry => (entry.1, Json.toJson entry.2))

instance : Wire Catalog where
  toJson catalog := .obj [
    ("service_id", Json.toJson catalog.service),
    ("service_name", .str catalog.serviceName),
    ("protocol", Json.toJson catalog.protocol),
    ("role", Json.toJson catalog.role),
    ("endpoints", endpointsToJson catalog.endpoints),
    ("lib_endpoints", endpointsToJson catalog.libEndpoints)]
  ofJson? value := do
    let names := ["service_id", "service_name", "protocol", "role", "endpoints",
      "lib_endpoints"]
    match ← Json.fields? names value with
    | [some service, some serviceName, some protocol, some role, endpoints, libEndpoints] =>
      return {
        service := ← Json.ofJson? service
        serviceName := ← Json.str? serviceName
        protocol := ← Json.ofJson? protocol
        role := ← Json.ofJson? role
        endpoints := ← Json.orElse .empty (Json.map? Json.ofJson?) endpoints
        libEndpoints := ← Json.orElse .empty (Json.map? Json.ofJson?) libEndpoints }
    | _ => none

end Catalog

end RemoteCall
