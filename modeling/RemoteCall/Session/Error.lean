import RemoteCall.Catalog.Check
import RemoteCall.Fault
import RemoteCall.Session.Transport
import RemoteCall.Signature.Arguments

/-!
# Why a session cannot do what it is asked

Every failure of a call, of a look-up among the operations and of a login is a
value of one type.
-/

namespace RemoteCall

/-- What a path may lead to. -/
inductive MemberKind where
  | callable
  | space
  deriving DecidableEq, Repr

def MemberKind.name : MemberKind → String
  | .callable => "callable"
  | .space => "namespace"

/-- Why a session, or a tree of operations, cannot do what it is asked. -/
inductive SessionError where
  /-- The arguments do not fit the signature; nothing was sent. -/
  | validation (cause : ValidationError)
  /-- There is no such operation, or the caller may not see it. -/
  | unknownMember (path name : String)
  /-- An answer is not signed, or not by the service. -/
  | invalidSignature
  | catalog (cause : CatalogError)
  | wrongMemberKind (path : String) (expected : MemberKind)
  | migration (cause : MigrationError)
  | transportUnavailable
  | transport (cause : TransportError)
  /-- The service carried the call out and reports a failure. -/
  | remote (error : ErrorDescriptor)
  | codec (cause : CodecError)
  | notIndexable (path : String)
  | indexOutOfRange (path : String) (index size : Nat)
  | notUserCode (path : String)
  | identityMismatch (expected actual : Uid)
  | noCommonProtocol
  | unexpectedReply (message : String)

namespace SessionError

def message : SessionError → String
  | .validation cause => cause.message
  | .unknownMember path name =>
    "`" ++ path ++ "` has no member `" ++ name ++
      "`; it does not exist or you are not permitted to use it"
  | .invalidSignature => "reply signature verification failed"
  | .catalog cause => cause.message
  | .wrongMemberKind path expected => "`" ++ path ++ "` is not a " ++ expected.name
  | .migration cause => cause.message
  | .transportUnavailable => "no active connection to the service"
  | .transport cause => cause.message
  | .remote error => "remote error: " ++ toString error
  | .codec cause => cause.message
  | .notIndexable path => "`" ++ path ++ "` can't be indexed; it has no `get_all` operation"
  | .indexOutOfRange path index size =>
    "index " ++ toString index ++ " is out of range for `" ++ path ++ "` (" ++
      toString size ++ " items)"
  | .notUserCode path => "`" ++ path ++ "` is not a user-code function"
  | .identityMismatch expected actual =>
    "catalog belongs to service " ++ toString actual ++ ", expected " ++ toString expected
  | .noCommonProtocol =>
    "the service speaks none of the protocol versions this client supports"
  | .unexpectedReply message => "unexpected reply: " ++ message

def kind : SessionError → String
  | .validation cause => "Validation." ++ cause.kind
  | .unknownMember .. => "UnknownMember"
  | .invalidSignature => "InvalidSignature"
  | .catalog cause => cause.kind
  | .wrongMemberKind .. => "WrongMemberKind"
  | .migration cause => "Migration." ++ cause.kind
  | .transportUnavailable => "TransportUnavailable"
  | .transport cause => "Transport." ++ cause.kind
  | .remote _ => "Remote"
  | .codec cause => "Codec." ++ cause.kind
  | .notIndexable _ => "NotIndexable"
  | .indexOutOfRange .. => "IndexOutOfRange"
  | .notUserCode _ => "NotUserCode"
  | .identityMismatch .. => "IdentityMismatch"
  | .noCommonProtocol => "NoCommonProtocol"
  | .unexpectedReply _ => "UnexpectedReply"

instance : Fault SessionError := ⟨kind, message⟩

/-- What a failed transport means for a session. -/
def ofTransport : TransportError → SessionError
  | .unavailable _ => .transportUnavailable
  | cause => .transport cause

/-- What an envelope that cannot be made or opened means for a session. -/
def ofEnvelope : EnvelopeError → SessionError
  | .invalidSignature => .invalidSignature
  | .codec cause => .codec cause

end SessionError

end RemoteCall
