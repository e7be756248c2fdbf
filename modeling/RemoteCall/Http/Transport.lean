import RemoteCall.Http.Message
import RemoteCall.Session.Routes
import RemoteCall.Session.Transport

/-!
# Services behind HTTP

A service that speaks HTTP takes in and tells JSON texts at its routes.  An
answer whose status is no success is an error with the body as its text; an
answer that cannot be decoded is malformed; everything else that goes wrong
makes the service unavailable.
-/

namespace RemoteCall.Http

open Json (Wire)

/-- How requests are exchanged for answers, or for what went wrong. -/
abbrev Exchange (ω : Type) := Request → ω → Except String Response × ω

def decode {α : Type} [Wire α] : Except String Response → Except TransportError α
  | .error text => .error (.unavailable text)
  | .ok response =>
    if response.isSuccess then
      match (Json.parse? response.body).bind Json.ofJson? with
      | some value => .ok value
      | none => .error (.malformed "error decoding response body")
    else .error (.status response.status response.text)

/-- Exchange a request and take in the answer. -/
def Exchange.run {ω α : Type} [Wire α] (exchange : Exchange ω) (method : Method) (url : String)
    (world : ω) : Except TransportError α × ω :=
  match exchange ⟨method, url⟩ world with
  | (answer, world) => (decode answer, world)

theorem obtainable_of_run {ω : Type} {exchange : Exchange ω} {method : Method} {url : String}
    {world : ω} {reply : Envelope CallResult}
    (h : (exchange.run method url world).1 = .ok reply) : reply.Obtainable := by
  simp only [Exchange.run, decode] at h
  split at h
  · cases h
  · split at h
    · split at h
      · rename_i response _ value read
        cases h
        obtain ⟨json, -, read⟩ := Option.bind_eq_some_iff.mp read
        exact Envelope.obtainable_of_ofJson? read
      · cases h
    · cases h

def encode {α : Type} [Wire α] (value : α) : List UInt8 :=
  (String.ofList (Json.render (Json.toJson value))).toUTF8.toList

/-- The transport of the service at an address. -/
def transport {ω : Type} (exchange : Exchange ω) (url : String) : Transport ω :=
  let base := Routes.trimSlashes url
  { send envelope := exchange.run (.post (encode envelope)) (Routes.call base)
    identity _ := exchange.run .get (Routes.metadata base)
    catalog caller protocol := exchange.run .get (Routes.catalog base caller protocol)
    obtainable_of_send := obtainable_of_run }

end RemoteCall.Http
