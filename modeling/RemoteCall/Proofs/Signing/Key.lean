import Mathlib.Data.Set.Operations
import RemoteCall.Proofs.Json.Reordered
import RemoteCall.Proofs.Text.Base58
import RemoteCall.Signing.Key

/-!
# Keys read back

A public key is read back from its text, which tells its kind and all of its bytes.  No
other text is read as the key: the letter in front, the kind and the length are checked,
and what is left is told by the one text in base 58 that it has.
-/

namespace RemoteCall.VerifyKey

theorem toList_toMultibase (key : VerifyKey) :
    key.toMultibase.toList = 'z' :: Text.Base58.encode (multicodec ++ key.bytes) :=
  String.toList_ofList

theorem ofMultibase_toMultibase (key : VerifyKey) : ofMultibase key.toMultibase = .ok key := by
  have hdecode := Text.Base58.decode_encode (multicodec ++ key.bytes)
  simp only [ofMultibase, toList_toMultibase, hdecode]
  exact dif_pos key.length_eq

theorem bytes_of_ofBytes {bytes : List UInt8} {key : VerifyKey}
    (hbytes : ofBytes bytes = .ok key) : key.bytes = bytes := by
  rw [ofBytes] at hbytes
  split at hbytes
  · cases hbytes
    rfl
  · cases hbytes

/-- A text that is read as a key is the text of the key. -/
theorem toMultibase_of_ofMultibase {text : String} {key : VerifyKey}
    (hread : ofMultibase text = .ok key) : key.toMultibase = text := by
  apply String.toList_injective
  rw [toList_toMultibase]
  rw [ofMultibase] at hread
  split at hread
  · rename_i data htext
    split at hread
    · cases hread
    · rename_i bytes hdecode
      rw [htext, multicodec, bytes_of_ofBytes hread]
      exact congrArg _ (Text.Base58.encode_of_decode hdecode)
    · cases hread
  · cases hread

/-- Every key has one text, which is read as the key, and no other text is read at all. -/
theorem ofMultibase_eq_ok_iff :
    (∀ text key, ofMultibase text = .ok key ↔ text = key.toMultibase) ∧
      Function.Injective toMultibase ∧
      ∀ text, (∃ e, ofMultibase text = .error e) ↔ text ∉ Set.range toMultibase := by
  have hread : ∀ text key, ofMultibase text = .ok key ↔ text = key.toMultibase := by
    intro text key
    constructor
    · intro hok
      exact (toMultibase_of_ofMultibase hok).symm
    · rintro rfl
      exact ofMultibase_toMultibase key
  refine ⟨hread, ?_, ?_⟩
  · intro left right htext
    have hright := (hread left.toMultibase right).mpr htext
    rw [ofMultibase_toMultibase] at hright
    exact Except.ok.inj hright
  · intro text
    rw [Set.mem_range]
    cases hresult : ofMultibase text with
    | error e =>
        refine iff_of_true ⟨e, rfl⟩ ?_
        rintro ⟨key, rfl⟩
        rw [ofMultibase_toMultibase] at hresult
        cases hresult
    | ok key =>
        refine iff_of_false nofun ?_
        intro hnone
        exact hnone ⟨key, toMultibase_of_ofMultibase hresult⟩

theorem readAs_toJson (key : VerifyKey) : Json.ReadAs Json.ofJson? (Json.toJson key) key := by
  refine Json.readAs_of_isLeaf trivial ?_
  change (ofMultibase key.toMultibase).toOption = some key
  rw [ofMultibase_toMultibase]
  rfl

end RemoteCall.VerifyKey
