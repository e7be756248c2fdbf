import RemoteCall.Session.Error

/-!
# Notices

Things that happen on the way and that the user should learn of, though nothing
fails because of them or the failure is reported elsewhere.
-/

namespace RemoteCall

/-- Why an operation is missing from a tree of operations. -/
inductive Collision where
  /-- A namespace of the same path hides it. -/
  | shadowed (path dropped : String)
  /-- Another operation has its place. -/
  | taken (path dropped : String)
  deriving DecidableEq, Repr

/-- The module path of the operation that is missing. -/
def Collision.dropped : Collision → String
  | .shadowed _ path => path
  | .taken _ path => path

/-- Something that the user should learn of. -/
inductive Notice where
  | collision (collision : Collision)
  /-- The warning of the operation at `path`, which needs no confirmation. -/
  | warning (path message : String)
  | declined (path : String)
  | foreignSigner (path : String) (signer expected : VerifyKey)
  | rejected (path : String) (error : EnvelopeError)
  | refreshFailed (error : SessionError)

namespace Notice

def message : Notice → String
  | .collision (.shadowed ..) => "callable shadowed by namespace"
  | .collision (.taken ..) => "callable name already taken"
  | .warning _ text => text
  | .declined _ => "call declined"
  | .foreignSigner .. => "reply not signed by the service key"
  | .rejected .. => "reply rejected"
  | .refreshFailed _ => "catalog refresh failed"

/-- What it happened to, in named texts. -/
def details : Notice → List (String × String)
  | .collision (.shadowed path dropped) => [("path", path), ("dropped", dropped)]
  | .collision (.taken path dropped) => [("path", path), ("dropped", dropped)]
  | .warning path _ => [("path", path)]
  | .declined path => [("path", path)]
  | .foreignSigner path signer expected =>
    [("path", path), ("signer", toString signer), ("expected", toString expected)]
  | .rejected path error => [("path", path), ("error", error.message)]
  | .refreshFailed error => [("error", error.message)]

end Notice

end RemoteCall
