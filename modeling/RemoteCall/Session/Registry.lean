import RemoteCall.Session.Basic

/-!
# Registries of sessions

A registry knows the live sessions of a program.  There is at most one for a
caller at a service, so two callers never share a session.  Sessions are told
apart by their keys and numbered in the order in which they came.
-/

namespace RemoteCall

/-- Which caller talks to which service. -/
structure SessionKey where
  service : Uid
  caller : VerifyKey
  deriving DecidableEq

/-- The bytes of a session's key, by which a registry is ordered. -/
def SessionKey.bytes (key : SessionKey) : List UInt8 := key.service.bytes ++ key.caller.bytes

/-- Things that stand for a session. -/
class IsSession (α : Type) where
  key : α → SessionKey

instance {ω : Type} : IsSession (Session ω) := ⟨fun session => ⟨session.service.id, session.caller⟩⟩

/-- A session with its number in the order of registration. -/
structure Registered (α : Type) where
  number : UInt64
  session : α

/-- The live sessions. -/
structure SessionRegistry (α : Type) where
  table : SortedMap (List UInt8) (Registered α)
  /-- The number of the latest registration. -/
  latest : UInt64

namespace SessionRegistry

variable {α : Type} [IsSession α]

omit [IsSession α] in
def empty : SessionRegistry α := ⟨.empty, 0⟩

/-- Add a session.  The answer is the one that it replaces. -/
def register (registry : SessionRegistry α) (session : α) : Option α × SessionRegistry α :=
  let key := (IsSession.key session).bytes
  let number := registry.latest + 1
  ((registry.table.get? key).map (·.session),
    ⟨registry.table.insert key ⟨number, session⟩, number⟩)

omit [IsSession α] in
/-- The session of a caller at a service. -/
def get? (registry : SessionRegistry α) (key : SessionKey) : Option α :=
  (registry.table.get? key.bytes).map (·.session)

/-- Whether a registered session is one at the given service. -/
def isAt (service : Uid) (registered : Registered α) : Bool :=
  (IsSession.key registered.session).service == service

omit [IsSession α] in
/-- The one of two sessions that came later, if there are any. -/
def later : Option (Registered α) → Registered α → Option (Registered α)
  | none, next => some next
  | some best, next => if best.number ≤ next.number then some next else some best

/-- The latest session at a service, whoever the caller. -/
def recent? (registry : SessionRegistry α) (service : Uid) : Option α :=
  ((registry.table.values.filter (isAt service)).foldl later none).map (·.session)

omit [IsSession α] in
/-- All sessions, in the order in which they came. -/
def all (registry : SessionRegistry α) : List α :=
  (registry.table.values.mergeSort fun left right => left.number ≤ right.number).map
    (·.session)

omit [IsSession α] in
/-- Forget the session of a caller at a service.  The answer is that session. -/
def invalidate (registry : SessionRegistry α) (key : SessionKey) :
    Option α × SessionRegistry α :=
  (registry.get? key, { registry with table := registry.table.erase key.bytes })

/-- Forget all sessions at a service.  The answer is how many there were. -/
def removeService (registry : SessionRegistry α) (service : Uid) : Nat × SessionRegistry α :=
  let table := registry.table.filter fun _ registered => !isAt service registered
  (registry.table.size - table.size, { registry with table })

omit [IsSession α] in
def size (registry : SessionRegistry α) : Nat := registry.table.size

omit [IsSession α] in
def isEmpty (registry : SessionRegistry α) : Bool := registry.table.isEmpty

end SessionRegistry

end RemoteCall
