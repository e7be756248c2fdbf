import RemoteCall.Migration.ProtocolVersion
import RemoteCall.Signing.Key
import RemoteCall.Text.Percent

/-!
# Routes of a service

Where a service that speaks HTTP is asked for what.
-/

namespace RemoteCall

namespace Routes

/-- An address without slashes at its end. -/
def trimSlashes (url : String) : String :=
  String.ofList (url.toList.reverse.dropWhile (· == '/')).reverse

def call (base : String) : String := base ++ "/api/v2/api_call"

/-- Where the service tells who it is. -/
def metadata (base : String) : String := base ++ "/api/v2/metadata"

def catalog (base : String) (caller : VerifyKey) (protocol : ProtocolVersion) : String :=
  base ++ "/api/v2/api?verify_key=" ++ Text.Percent.encode (toString caller) ++
    "&communication_protocol=" ++ Text.Percent.encode (toString protocol)

end Routes

end RemoteCall
