import RemoteCall.Call.Basic
import RemoteCall.Call.Result
import RemoteCall.Catalog.Endpoint
import RemoteCall.Catalog.Identity
import RemoteCall.Fault
import RemoteCall.Signing.Envelope

/-!
# Transports and prompters

A session reaches the world outside through two doors.  A transport carries
signed calls to the service and fetches what the service tells; a prompter asks
the user.  Both act on a world of some type `ω`, about which a session knows
nothing else.
-/

namespace RemoteCall

/-- Why nothing usable came back from a service. -/
inductive TransportError where
  /-- No connection could be made. -/
  | unavailable (message : String)
  | status (code : UInt16) (body : String)
  | malformed (message : String)
  deriving DecidableEq, Repr

def TransportError.message : TransportError → String
  | .unavailable text => "service unavailable: " ++ text
  | .status code body => "service answered HTTP " ++ toString code ++ ": " ++ body
  | .malformed text => "malformed reply: " ++ text

def TransportError.kind : TransportError → String
  | .unavailable _ => "Unavailable"
  | .status .. => "Status"
  | .malformed _ => "Decode"

instance : Fault TransportError := ⟨TransportError.kind, TransportError.message⟩

/-- The way to a service. -/
structure Transport (ω : Type) where
  /-- Hand over a signed call and wait for the signed answer. -/
  send : Envelope Call → ω → Except TransportError (Envelope CallResult) × ω
  /-- Ask the service who it is. -/
  identity : VerifyKey → ω → Except TransportError IdentityMetadata × ω
  /-- Fetch what the caller may use at a protocol version. -/
  catalog : VerifyKey → ProtocolVersion → ω → Except TransportError Catalog × ω
  /-- An answer can be any envelope that can be come by, with any signer, signature and
  payload.  It may have been opened before it is handed over, but then with the protocol's
  own codec: a transport that opens its answers with another one is left out, since what
  is kept from opening would be what that codec made of the payload. -/
  obtainable_of_send : ∀ {envelope : Envelope Call} {world : ω} {reply : Envelope CallResult},
    (send envelope world).1 = .ok reply → reply.Obtainable

/-- The transport of a service that cannot be reached. -/
def Transport.unreachable (ω : Type) (message : String) : Transport ω where
  send _ world := (.error (.unavailable message), world)
  identity _ world := (.error (.unavailable message), world)
  catalog _ _ world := (.error (.unavailable message), world)
  obtainable_of_send h := nomatch h

/-- The same way out of a world that holds the one that the transport acts on. -/
def Transport.within {ω ω' : Type} (get : ω' → ω) (set : ω → ω' → ω')
    (transport : Transport ω) : Transport ω' where
  send envelope world :=
    match transport.send envelope (get world) with
    | (answer, part) => (answer, set part world)
  identity caller world :=
    match transport.identity caller (get world) with
    | (answer, part) => (answer, set part world)
  catalog caller protocol world :=
    match transport.catalog caller protocol (get world) with
    | (answer, part) => (answer, set part world)
  obtainable_of_send := transport.obtainable_of_send

/-- The one who agrees to calls that need confirmation. -/
structure Prompter (ω : Type) where
  /-- Whether the call of the operation at a path may go out, given the warning
  that comes with it. -/
  confirm : String → String → ω → Bool × ω

namespace Prompter

/-- Agrees to nothing, so that nothing that needs confirmation runs unattended. -/
def declineAll {ω : Type} : Prompter ω := ⟨fun _ _ world => (false, world)⟩

/-- Agrees to everything. -/
def approveAll {ω : Type} : Prompter ω := ⟨fun _ _ world => (true, world)⟩

end Prompter

end RemoteCall
