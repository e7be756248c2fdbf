import RemoteCall.Migration.ProtocolVersion
import RemoteCall.Signing.Key
import RemoteCall.Value.Uid

/-!
# Identities of services

A service tells who it is, which key it signs its answers with and which
protocol versions it speaks.  Client and service then use the newest version
that both speak.
-/

namespace RemoteCall

/-- Who a service is. -/
structure ServiceIdentity where
  id : Uid
  name : String
  /-- The key that answers are signed with. -/
  verifyKey : VerifyKey
  deriving DecidableEq

/-- What a service tells about itself. -/
structure IdentityMetadata where
  identity : ServiceIdentity
  /-- The version that the service's own signatures are written for. -/
  protocol : ProtocolVersion
  supported : List ProtocolVersion

namespace IdentityMetadata

/-- The newest version that the service and a client speaking `ours` have in
common. -/
def negotiate (metadata : IdentityMetadata) (ours : List ProtocolVersion) :
    Option ProtocolVersion :=
  ProtocolVersion.newest? (metadata.supported.filter fun version => ours.contains version)

instance : Json.Wire IdentityMetadata where
  toJson metadata := .obj [
    ("id", Json.toJson metadata.identity.id),
    ("name", .str metadata.identity.name),
    ("verify_key", Json.toJson metadata.identity.verifyKey),
    ("protocol_version", Json.toJson metadata.protocol),
    ("supported_protocols", .arr (metadata.supported.map Json.toJson))]
  ofJson? value := do
    let names := ["id", "name", "verify_key", "protocol_version", "supported_protocols"]
    match ← Json.fields? names value with
    | [some id, some name, some verifyKey, some protocol, supported] =>
      return {
        identity := {
          id := ← Json.ofJson? id
          name := ← Json.str? name
          verifyKey := ← Json.ofJson? verifyKey }
        protocol := ← Json.ofJson? protocol
        supported := ← Json.orElse [] (Json.list? Json.ofJson?) supported }
    | _ => none

end IdentityMetadata

end RemoteCall
