import RemoteCall.Catalog.Check
import RemoteCall.Signing.Key
import RemoteCall.Text.Replace

/-!
# Who may see what

A service asks an authority which role a caller has, which operations that role
may see, which library functions the caller may see, and which user code is the
caller's own.
-/

namespace RemoteCall

/-- What is known of the one who is about to see a warning. -/
structure WarningContext where
  role : Role
  serviceName : String
  /-- Whether the service shows warnings at all. -/
  enabled : Bool

/-- The text of a warning, with places for the role and the service's name. -/
structure WarningTemplate where
  template : String
  confirmation : Bool
  deriving DecidableEq, Repr

namespace WarningTemplate

def rolePlace : String := "\x7brole\x7d"

def servicePlace : String := "\x7bservice\x7d"

def render (warning : WarningTemplate) (context : WarningContext) : EndpointWarning where
  message :=
    Text.Replace.replace servicePlace context.serviceName
      (Text.Replace.replace rolePlace (toString context.role) warning.template)
  confirmation := warning.confirmation
  enabled := context.enabled

end WarningTemplate

/-- How an operation of the service is offered. -/
structure ServiceConfig where
  publicName : String
  doc : Option String
  signature : Signature
  warning : Option WarningTemplate
  /-- Whether the operation is offered as a library function instead. -/
  isFromLib : Bool

/-- How a library function is offered. -/
structure LibConfig where
  publicName : String
  doc : Option String
  signature : Signature

/-- A piece of code that a caller handed in and may call. -/
structure UserCode where
  id : Uid
  name : String
  signature : Signature

/-- What decides which operations a caller may see. -/
structure Authority where
  roleOf : VerifyKey → Except AuthorityError Role
  /-- The operations that a role may see, by path. -/
  services : Role → Except AuthorityError (SortedMap String ServiceConfig)
  /-- The library functions that a caller may see, by path. -/
  libs : VerifyKey → Except AuthorityError (SortedMap String LibConfig)
  /-- The code that a caller handed in, in order. -/
  userCode : VerifyKey → Except AuthorityError (List UserCode)

end RemoteCall
