import RemoteCall.Fault
import RemoteCall.Json.Parser
import RemoteCall.Json.Printer
import RemoteCall.Json.Reader

/-!
# From values to bytes

What is signed and sent is the canonical JSON text of a value, so equal values
have equal bytes.  Floats that JSON has no form for are refused; nothing else
is.
-/

namespace RemoteCall

/-- Why a value has no bytes, or bytes have no value. -/
inductive CodecError where
  | nonFinite (x : Binary64)
  | undecodable
  deriving DecidableEq

def CodecError.message : CodecError → String
  | .nonFinite x => "encoding failed: float " ++ x.nameOfNonFinite ++ " has no JSON form"
  | .undecodable => "decoding failed"

def CodecError.kind : CodecError → String
  | .nonFinite _ => "Encode"
  | .undecodable => "Decode"

instance : Fault CodecError := ⟨CodecError.kind, CodecError.message⟩

namespace Codec

def encodeJson (json : Json) : Except CodecError (List UInt8) :=
  match json.nonFinite? with
  | some x => .error (.nonFinite x)
  | none => .ok (String.ofList json.canonicalText).toUTF8.toList

def encode {α : Type} [Json.Wire α] (value : α) : Except CodecError (List UInt8) :=
  encodeJson (Json.toJson value)

def decode {α : Type} [Json.Wire α] (bytes : List UInt8) : Except CodecError α :=
  match (Json.parse? bytes).bind Json.ofJson? with
  | some value => .ok value
  | none => .error .undecodable

end Codec

end RemoteCall
