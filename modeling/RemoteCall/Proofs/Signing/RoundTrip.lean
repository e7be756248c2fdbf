import RemoteCall.Proofs.Catalog.RoundTrip
import RemoteCall.Proofs.Signing.Envelope

/-!
# Envelopes read back

An envelope is written as three texts: the key and the signature in base 58, the payload
in hexadecimal digits.  Each of them tells its bytes, however many zeros they begin with,
so the envelope that is read has the parts of the one that was written.  What was kept
from opening is not written, and is not there when the envelope is read.
-/

namespace RemoteCall.Envelope

open Json (Plain ReadAs Reordered)

variable {α : Type}

theorem signatureOfText?_signatureText (signature : List UInt8) :
    signatureOfText? (signatureText signature) = some signature := by
  have hchars : (signatureText signature).toList = 'z' :: Text.Base58.encode signature :=
    String.toList_ofList
  simp only [signatureOfText?, hchars, Text.Base58.decode_encode]
  rfl

theorem plain_toJson (envelope : Envelope α) : Plain (Json.toJson envelope) :=
  Json.plain_obj (by simp) (by simp [envelope.signer.plain_toJson])

/-- However long its parts are, an envelope is never too deep to be read. -/
theorem depth_toJson (envelope : Envelope α) : (Json.toJson envelope).depth = 1 := rfl

/-- An envelope that was opened is written as one that was not. -/
theorem readAs_toJson (envelope : Envelope α) :
    ReadAs Json.ofJson? (Json.toJson envelope) envelope.copy := by
  have hpayload : Text.Hex.decode (String.ofList (Text.Hex.encode envelope.payload)).toList =
      .ok envelope.payload := by
    rw [String.toList_ofList, Text.Hex.decode_encode]
  change ReadAs (fun tree => (Json.fields? _ tree).bind _) (.obj _) envelope.copy
  refine Json.readAs_of_fields? (by simp) rfl ?_
  rintro _ (_ | ⟨⟨hsigner⟩, _ | ⟨⟨hsignature⟩, _ | ⟨⟨hserialized⟩, ⟨⟩⟩⟩⟩)
  simp only [Json.readAs_str? _ _ hsignature, signatureOfText?_signatureText,
    Json.readAs_str? _ _ hserialized, hpayload, envelope.signer.readAs_toJson _ hsigner,
    Except.toOption, Option.bind_eq_bind, Option.bind_some, Option.pure_def]
  rfl

/-- The bytes are read as an envelope of the same parts, which keeps nothing and is
verified or refused as before. -/
def ReadFrom (envelope : Envelope α) (bytes : List UInt8) : Prop :=
  ∃ back : Envelope α, Codec.decode bytes = .ok back ∧ SameParts envelope back ∧
    back.opened = none ∧ back.verify = envelope.verify

theorem readFrom_of_decode {envelope : Envelope α} {bytes : List UInt8}
    (hdecode : Codec.decode bytes = .ok envelope.copy) : envelope.ReadFrom bytes :=
  ⟨envelope.copy, hdecode, sameParts_copy envelope, rfl, (sameParts_copy envelope).verify_eq⟩

/-- Every envelope is read back from its texts, in whatever order its members stand, and
from the bytes that are sent. -/
theorem readFrom_render (envelope : Envelope α) :
    (∀ tree, Reordered (Json.toJson envelope) tree →
      envelope.ReadFrom (String.ofList (Json.render tree)).toUTF8.toList) ∧
    ∃ bytes, Codec.encode envelope = .ok bytes ∧ envelope.ReadFrom bytes := by
  have hsurvives : SurvivesWire envelope.copy :=
    survivesWire_of_readAs envelope.copy.plain_toJson envelope.copy.readAs_toJson
      (envelope.copy.depth_toJson ▸ by decide)
  constructor
  · intro tree hreordered
    exact readFrom_of_decode (hsurvives.decode_render tree hreordered)
  · obtain ⟨bytes, hencode, hdecode, -⟩ := hsurvives.roundTrips
    exact ⟨bytes, hencode, readFrom_of_decode hdecode⟩

/-- A signature of zeros and a payload of nothing, written from the last member to the
first, and an envelope that was opened, written in the canonical order. -/
theorem readFrom_render_zeros :
    (ofParts noteKey.verifyKey [0, 0, 7] [] : Envelope Value).ReadFrom
        (String.ofList (Json.render (.obj [("serialized_message", .str ""),
          ("signature", .str (signatureText [0, 0, 7])),
          ("credentials", Json.toJson noteKey.verifyKey)]))).toUTF8.toList ∧
      ∃ bytes, Codec.encode note.openPayload.2 = .ok bytes ∧
        note.openPayload.2.ReadFrom bytes := by
  constructor
  · apply (readFrom_render (ofParts noteKey.verifyKey [0, 0, 7] [])).1
    apply Json.reordered_obj_iff.mpr
    exact ⟨_, _, rfl, List.forall₂_same.mpr fun member _ => ⟨rfl, Json.Reordered.refl _⟩,
      List.reverse_perm [("credentials", Json.toJson noteKey.verifyKey),
        ("signature", .str (signatureText [0, 0, 7])), ("serialized_message", .str "")]⟩
  · exact (readFrom_render note.openPayload.2).2

end RemoteCall.Envelope
