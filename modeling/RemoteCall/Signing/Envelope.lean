import RemoteCall.Codec
import RemoteCall.Fault
import RemoteCall.Signing.Key

/-!
# Signed envelopes

An envelope holds the bytes of a payload, a signature and the key that is said
to have signed.  The signature covers those very bytes.  Opening an envelope
checks the signature, then decodes the payload, and keeps what it decoded for
the next time; what is kept never goes over the wire and is not copied.  Every
opening decodes with the one codec of the protocol.
-/

namespace RemoteCall

/-- Why an envelope cannot be made or opened. -/
inductive EnvelopeError where
  | invalidSignature
  | codec (cause : CodecError)
  deriving DecidableEq

def EnvelopeError.message : EnvelopeError → String
  | .invalidSignature => "envelope signature verification failed"
  | .codec cause => cause.message

def EnvelopeError.kind : EnvelopeError → String
  | .invalidSignature => "InvalidSignature"
  | .codec cause => "Codec." ++ cause.kind

instance : Fault EnvelopeError := ⟨EnvelopeError.kind, EnvelopeError.message⟩

/-- A signed payload of type `α`. -/
structure Envelope (α : Type) where
  signer : VerifyKey
  signature : List UInt8
  payload : List UInt8
  /-- What the payload was decoded to when the envelope was opened. -/
  opened : Option α

namespace Envelope

variable {α : Type}

/-- An envelope of the given parts, not yet opened.  Nothing is checked. -/
def ofParts (signer : VerifyKey) (signature payload : List UInt8) : Envelope α :=
  ⟨signer, signature, payload, none⟩

def signBytes (key : SigningKey) (payload : List UInt8) : Envelope α :=
  ofParts key.verifyKey (key.sign payload) payload

/-- Encode and sign a payload. -/
def sign [Json.Wire α] (key : SigningKey) (payload : α) : Except EnvelopeError (Envelope α) :=
  match Codec.encode payload with
  | .error cause => .error (.codec cause)
  | .ok bytes => .ok (signBytes key bytes)

/-- Whether the signature is one of the payload under the signer's key. -/
def verify (envelope : Envelope α) : Bool :=
  envelope.signer.verify envelope.payload envelope.signature

/-- Check and decode the payload, unless that was done before.  The second part
of the answer is the envelope with what was decoded kept in it. -/
def openPayload [Json.Wire α] (envelope : Envelope α) :
    Except EnvelopeError α × Envelope α :=
  match envelope.opened with
  | some value => (.ok value, envelope)
  | none =>
    if envelope.verify then
      match Codec.decode envelope.payload with
      | .ok value => (.ok value, { envelope with opened := some value })
      | .error cause => (.error (.codec cause), envelope)
    else (.error .invalidSignature, envelope)

/-- A copy, which has to be opened anew. -/
def copy (envelope : Envelope α) : Envelope α :=
  ofParts envelope.signer envelope.signature envelope.payload

/-- Envelopes that can be come by.  Signing, and reading from the wire, put them
together of parts; what is kept from opening is never set by hand.  They are opened
with the protocol's own codec only: an envelope is left out that was opened with
another codec and handed on with what that one made of the payload. -/
inductive Obtainable [Json.Wire α] : Envelope α → Prop where
  | ofParts (signer : VerifyKey) (signature payload : List UInt8) :
    Obtainable (.ofParts signer signature payload)
  | opened {envelope : Envelope α} : Obtainable envelope → Obtainable envelope.openPayload.2
  | copied {envelope : Envelope α} : Obtainable envelope → Obtainable envelope.copy

def describe (envelope : Envelope α) : String :=
  "SignedEnvelope \x7b signer: " ++ envelope.signer.describe ++
    ", signature_len: " ++ toString envelope.signature.length ++
    ", payload_len: " ++ toString envelope.payload.length ++
    ", decoded: " ++ toString envelope.opened.isSome ++ " \x7d"

/-- The text of a signature: the letter `z` and base 58. -/
def signatureText (signature : List UInt8) : String :=
  String.ofList ('z' :: Text.Base58.encode signature)

def signatureOfText? (text : String) : Option (List UInt8) :=
  match text.toList with
  | 'z' :: data => (Text.Base58.decode data).toOption
  | _ => none

instance : Json.Wire (Envelope α) where
  toJson envelope := .obj [
    ("credentials", Json.toJson envelope.signer),
    ("signature", .str (signatureText envelope.signature)),
    ("serialized_message", .str (String.ofList (Text.Hex.encode envelope.payload)))]
  ofJson? value := do
    match ← Json.fields? ["credentials", "signature", "serialized_message"] value with
    | [some signer, some signature, some payload] =>
      let signature ← signatureOfText? (← Json.str? signature)
      let payload ← (Text.Hex.decode (← Json.str? payload).toList).toOption
      return ofParts (← Json.ofJson? signer) signature payload
    | _ => none

theorem obtainable_of_ofJson? [Json.Wire α] {json : Json} {envelope : Envelope α}
    (h : Json.ofJson? json = some envelope) : envelope.Obtainable := by
  simp only [Json.ofJson?, Option.bind_eq_bind, Option.bind_eq_some_iff] at h
  obtain ⟨parts, -, h⟩ := h
  split at h
  · simp only [Option.bind_eq_some_iff, Option.pure_def, Option.some.injEq] at h
    obtain ⟨_, -, signature, -, _, -, payload, -, signer, -, rfl⟩ := h
    exact .ofParts signer signature payload
  · cases h

end Envelope

end RemoteCall
