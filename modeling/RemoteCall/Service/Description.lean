import RemoteCall.Migration.Description
import RemoteCall.Service.Local

/-!
# Services described by JSON

A service in process can be written down as a JSON tree: who it is (`id`,
`name`, `seed`, `protocol`, `supported`), what its objects are (`engine`), whom
it knows (`roles`), what it offers (`services`, `libs`, `user_code`) and how it
answers (`handlers`).  Callers have names in the tree; `callers` tells their
keys.
-/

namespace RemoteCall

/-- The keys of callers, by name. -/
abbrev CallerKeys := String → Option VerifyKey

/-- The key of the caller whom a member names. -/
def CallerKeys.keyAt (callers : CallerKeys) (tree : Json) (name : String) :
    Described VerifyKey := do
  match callers (← tree.textAt name) with
  | some key => return key
  | none => throw .malformed

/-- The protocol version that a tree names. -/
def ProtocolVersion.ofDescription (tree : Json) : Described ProtocolVersion := do
  (ofString (← tree.textIn)).mapError .protocol

/-- The signature that a member tells; no parameters if there is none. -/
def Signature.ofDescription (tree : Json) : Described Signature :=
  if tree.tells "signature" then (tree.part "signature").described else .ok ⟨[], none⟩

def WarningTemplate.ofDescription (tree : Json) : Described (Option WarningTemplate) := do
  if tree.tells "warning" then
    let warning := tree.part "warning"
    return some ⟨← warning.textAt "template", warning.flagAt "confirmation" false⟩
  else return none

namespace Roster

def addDescribed (roster : Roster) (path : String) (tree : Json) : Described Roster := do
  let least ← if tree.tells "min_role" then (tree.part "min_role").described else pure .guest
  return roster.addService path least {
    publicName := ← tree.textAt "public_name"
    doc := Json.str? (tree.part "doc")
    signature := ← Signature.ofDescription tree
    warning := ← WarningTemplate.ofDescription tree
    isFromLib := tree.flagAt "from_lib" false }

def addDescribedLib (roster : Roster) (path : String) (tree : Json) : Described Roster := do
  return roster.addLib path {
    publicName := ← tree.textAt "public_name"
    doc := Json.str? (tree.part "doc")
    signature := ← Signature.ofDescription tree }

def addDescribedCode (callers : CallerKeys) (roster : Roster) (tree : Json) :
    Described Roster := do
  return roster.addUserCode (← callers.keyAt tree "owner") {
    id := ← (tree.part "id").described
    name := ← tree.textAt "func_name"
    signature := ← Signature.ofDescription tree }

/-- Give the named caller the described role. -/
def grantDescribed (callers : CallerKeys) (roster : Roster) (name : String) (role : Json) :
    Described Roster := do
  match callers name with
  | some key => return roster.grant key (← role.described)
  | none => throw .malformed

def ofDescription (callers : CallerKeys) (tree : Json) : Described Roster := do
  let roster ← (tree.part "roles").members.foldlM
    (fun roster entry => grantDescribed callers roster entry.1 entry.2) Roster.empty
  let roster ← (tree.part "services").members.foldlM
    (fun roster entry => roster.addDescribed entry.1 entry.2) roster
  let roster ← (tree.part "libs").members.foldlM
    (fun roster entry => roster.addDescribedLib entry.1 entry.2) roster
  (tree.part "user_code").items.foldlM (addDescribedCode callers) roster

end Roster

/-- The described handler, with whether its answer asks for a refresh. -/
def Handler.ofDescription (callers : CallerKeys) (tree : Json) : Described (Handler × Bool) := do
  let handler ←
    if tree.tells "raw" then pure (.raw (← tree.textAt "raw").toUTF8.toList)
    else
      match ← tree.textAt "kind" with
      | "echo" => pure .echo
      | "value" => Handler.value <$> (tree.part "value").described
      | "sum" => pure .sum
      | "kwarg" => Handler.keyword <$> tree.textAt "name"
      | "args" => pure .arguments
      | "action" => pure .action
      | "fail" =>
        let trace := Json.str? (tree.part "trace")
        pure (.fail ⟨← tree.textAt "code", ← tree.textAt "message", trace⟩)
      | "grant" => Handler.grant <$> callers.keyAt tree "caller" <*> (tree.part "role").described
      | _ => throw .malformed
  return (handler, tree.flagAt "update" false)

def ReplyMode.ofName? : String → Option ReplyMode
  | "honest" => some .honest
  | "tampered" => some .tampered
  | "impersonated" => some .impersonated
  | "claimed" => some .claimed
  | "short_signature" => some .shortSignature
  | _ => none

/-- The error that a request is described to fail with. -/
def TransportError.ofDescription (tree : Json) : Described TransportError := do
  let message ← tree.textAt "message"
  match ← tree.textAt "error" with
  | "unavailable" => return .unavailable message
  | "status" =>
    let code ← (tree.part "status").wordIn
    if code.toNat < UInt16.size then return .status code.toUInt16 message else throw .malformed
  | "decode" => return .malformed message
  | _ => throw .malformed

namespace LocalService

def ofDescription (callers : CallerKeys) (tree : Json) : Described LocalService := do
  let key ← (SigningKey.ofHexSeed (← tree.textAt "seed")).mapError .key
  let engine ← MigrationEngine.ofDescription (tree.part "engine")
  let supported ←
    if tree.tells "supported" then
      (tree.part "supported").items.mapM ProtocolVersion.ofDescription
    else pure engine.data.supported
  let handlers ← (tree.part "handlers").members.mapM fun member => do
    return (member.1, ← Handler.ofDescription callers member.2)
  let info := {
    id := ← (tree.part "id").described
    name := ← tree.textAt "name"
    protocol := ← ProtocolVersion.ofDescription (tree.part "protocol")
    enableWarnings := tree.flagAt "enable_warnings" true }
  return { LocalService.new key info engine with
    supported := supported
    roster := ← Roster.ofDescription callers tree
    handlers := SortedMap.ofList handlers }

/-- Who the service is, told without asking it. -/
def metadata (service : LocalService) : IdentityMetadata where
  identity := ⟨service.info.id, service.info.name, service.key.verifyKey⟩
  protocol := service.info.protocol
  supported := service.supported

end LocalService

end RemoteCall
