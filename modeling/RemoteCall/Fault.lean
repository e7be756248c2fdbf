/-!
# Faults

Everything that can go wrong has a kind, for programs, and a message, for
people.
-/

namespace RemoteCall

/-- Errors with a kind and a message. -/
class Fault (ε : Type) where
  /-- The name of the kind of error. -/
  kind : ε → String
  /-- What happened. -/
  message : ε → String

end RemoteCall
