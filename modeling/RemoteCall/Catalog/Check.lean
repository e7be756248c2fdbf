import RemoteCall.Catalog.Endpoint
import RemoteCall.Fault
import RemoteCall.Migration.Conversion

/-!
# Checking catalogs

Before a catalog is used its paths have to be dotted paths, and no signature in
it may declare the reserved keyword or a name twice.  The first endpoint at
fault is reported, service endpoints before library functions.
-/

namespace RemoteCall

/-- Why a service cannot tell what a caller may see. -/
inductive AuthorityError where
  | unknownCaller (caller : String)
  | unavailable (message : String)
  deriving DecidableEq, Repr

def AuthorityError.message : AuthorityError → String
  | .unknownCaller caller => "no role is known for caller " ++ caller
  | .unavailable message => "authority unavailable: " ++ message

def AuthorityError.kind : AuthorityError → String
  | .unknownCaller _ => "UnknownCaller"
  | .unavailable _ => "Unavailable"

instance : Fault AuthorityError := ⟨AuthorityError.kind, AuthorityError.message⟩

/-- Why a catalog cannot be made or used. -/
inductive CatalogError where
  | invalidPath (cause : InvalidPath)
  | reservedKeyword (path : String)
  | duplicateParameter (path name : String)
  | authority (cause : AuthorityError)
  | migration (cause : MigrationError)
  deriving DecidableEq, Repr

namespace CatalogError

def message : CatalogError → String
  | .invalidPath cause => cause.message
  | .reservedKeyword path =>
    "endpoint `" ++ path ++ "` declares the reserved keyword `blocking`"
  | .duplicateParameter path name =>
    "endpoint `" ++ path ++ "` declares parameter `" ++ name ++ "` more than once"
  | .authority cause => cause.message
  | .migration cause => cause.message

def kind : CatalogError → String
  | .invalidPath _ => "InvalidPath"
  | .reservedKeyword _ => "ReservedKeywordConflict"
  | .duplicateParameter .. => "DuplicateParameter"
  | .authority cause => "Authority." ++ cause.kind
  | .migration cause => "Migration." ++ cause.kind

instance : Fault CatalogError := ⟨kind, message⟩

/-- The fault of the signature of the endpoint at `path`. -/
def ofSignature (path : String) : SignatureError → CatalogError
  | .reservedKeyword _ => .reservedKeyword path
  | .duplicateParameter name => .duplicateParameter path name

end CatalogError

namespace Catalog

def checkPath (path : String) : Except CatalogError Unit :=
  (Path.check path).mapError .invalidPath

/-- Refuse a signature that cannot be used at `path`. -/
def checkSignature (path : String) (signature : Signature) : Except CatalogError Unit :=
  signature.check.mapError (CatalogError.ofSignature path)

/-- Refuse an endpoint that cannot be used. -/
def checkEndpoint (key : String) (endpoint : Endpoint) : Except CatalogError Unit :=
  match checkPath endpoint.servicePath with
  | .error e => .error e
  | .ok () =>
    match checkPath endpoint.modulePath with
    | .error e => .error e
    | .ok () => checkSignature key endpoint.signature

/-- Refuse the first endpoint that cannot be used. -/
def checkEndpoints : List (String × Endpoint) → Except CatalogError Unit
  | [] => .ok ()
  | (key, endpoint) :: rest =>
    match checkEndpoint key endpoint with
    | .error e => .error e
    | .ok () => checkEndpoints rest

/-- Refuse a catalog that cannot be used. -/
def check (catalog : Catalog) : Except CatalogError Unit :=
  match checkEndpoints catalog.endpoints.entries with
  | .error e => .error e
  | .ok () => checkEndpoints catalog.libEndpoints.entries

end Catalog

end RemoteCall
