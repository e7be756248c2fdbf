import RemoteCall.Call.Basic
import RemoteCall.Codec
import RemoteCall.Proofs.Json.Null
import RemoteCall.Proofs.Value.Parts

/-!
# What is encoded is finite

JSON has no form for an infinity or for what is no number, and writes null for either.  A
value is refused where such a float is among its parts, however deep, and for no other
reason.  All else that it is made of has a text of its own, so no null is ever written.
-/

namespace RemoteCall

open Json (leaves leavesOfItems leavesOfMembers)

/-! ## Leaves of values -/

namespace Json

/-- A truth value, a whole number or a text. -/
def IsWord : Json → Prop
  | .bool _ => True
  | .int _ => True
  | .str _ => True
  | _ => False

end Json

namespace Value

def asFloat? : Value → Option Binary64
  | .float x => some x
  | _ => Option.none

/-- The leaves are the floats among the parts, in their order, with words between them. -/
structure Carries (leaves : List Json) (parts : List Value) : Prop where
  floats : leaves.filterMap Json.asFloat? = parts.filterMap asFloat?
  wordOrFloat : ∀ leaf ∈ leaves, leaf.IsWord ∨ ∃ x, leaf = .float x

variable {leaves leaves' : List Json} {parts parts' : List Value} {word : Json}

theorem carries_nil : Carries [] [] := ⟨rfl, List.forall_mem_nil _⟩

theorem Carries.cons (hcarries : Carries leaves parts) (hword : word.IsWord) :
    Carries (word :: leaves) parts where
  floats := by
    cases word with
    | float x => exact hword.elim
    | _ => exact hcarries.floats
  wordOrFloat := List.forall_mem_cons.mpr ⟨.inl hword, hcarries.wordOrFloat⟩

theorem Carries.append (hleft : Carries leaves parts) (hright : Carries leaves' parts') :
    Carries (leaves ++ leaves') (parts ++ parts') where
  floats := by rw [List.filterMap_append, List.filterMap_append, hleft.floats, hright.floats]
  wordOrFloat := List.forall_mem_append.mpr ⟨hleft.wordOrFloat, hright.wordOrFloat⟩

/-- The word for its kind apart, a value that is no float carries what its content does. -/
theorem carries_tagged {kind : String} {content : Json} {value : Value}
    (hvalue : value.asFloat? = Option.none) (hcontent : Carries content.leaves value.inside) :
    Carries (tagged kind content).leaves value.parts := by
  change Carries (.str kind :: (content.leaves ++ [])) (value :: value.inside)
  rw [List.append_nil]
  have hleaves : Carries (.str kind :: content.leaves) value.inside := hcontent.cons trivial
  exact ⟨by rw [hleaves.floats, List.filterMap_cons_none hvalue], hleaves.wordOrFloat⟩

theorem carries_bytes (data : List UInt8) :
    Carries (leavesOfItems (data.map fun byte => .int byte.toNat)) [] := by
  induction data with
  | nil => exact carries_nil
  | cons byte rest ih => exact .cons ih trivial

mutual

theorem carries_toJson : ∀ (value : Value), Carries (toJson value).leaves value.parts
  | .none => ⟨rfl, List.forall_mem_singleton.mpr (.inl trivial)⟩
  | .bool _ => carries_tagged rfl (.cons carries_nil trivial)
  | .int _ => carries_tagged rfl (.cons carries_nil trivial)
  | .float x => ⟨rfl, List.forall_mem_cons.mpr
      ⟨.inl trivial, List.forall_mem_singleton.mpr (.inr ⟨x, rfl⟩)⟩⟩
  | .str _ => carries_tagged rfl (.cons carries_nil trivial)
  | .bytes data => carries_tagged rfl (carries_bytes data)
  | .uid _ => carries_tagged rfl (.cons carries_nil trivial)
  | .list items => carries_tagged rfl (carries_itemsToJson items)
  | .map entries => carries_tagged rfl (carries_entriesToJson entries)
  | .object ⟨_, _, fields⟩ => by
      have hfields := (carries_entriesToJson fields).append carries_nil
      rw [List.append_nil (insideEntries fields)] at hfields
      exact carries_tagged rfl (.cons (.cons hfields trivial) trivial)
  | .remote _ => carries_tagged rfl (.cons (.cons (.cons carries_nil trivial) trivial) trivial)
  | .pointer _ => carries_tagged rfl (.cons carries_nil trivial)

theorem carries_itemsToJson : ∀ (items : List Value),
    Carries (leavesOfItems (itemsToJson items)) (insideItems items)
  | [] => carries_nil
  | item :: rest => (carries_toJson item).append (carries_itemsToJson rest)

theorem carries_entriesToJson : ∀ (entries : List (String × Value)),
    Carries (leavesOfMembers (entriesToJson entries)) (insideEntries entries)
  | [] => carries_nil
  | (_, value) :: rest => (carries_toJson value).append (carries_entriesToJson rest)

end

theorem mem_filterMap_asFloat? {x : Binary64} :
    x ∈ parts.filterMap asFloat? ↔ .float x ∈ parts := by
  rw [List.mem_filterMap]
  constructor
  · rintro ⟨part, hmem, hfloat⟩
    cases part with
    | float y => exact Option.some.inj hfloat ▸ hmem
    | _ => cases hfloat
  · exact fun hmem => ⟨.float x, hmem, rfl⟩

end Value

namespace Call

/-- The values among the arguments of a call, at every depth. -/
def parts (call : Call) : List Value :=
  Value.insideItems call.arguments.args ++ Value.insideEntries call.arguments.kwargs.entries

theorem carries_toJson (call : Call) : Value.Carries (Json.toJson call).leaves call.parts := by
  have hargs := Value.carries_itemsToJson call.arguments.args
  have hkwargs := Value.carries_entriesToJson call.arguments.kwargs.entries
  have hblocking : Value.Carries [.bool call.blocking] [] := .cons Value.carries_nil trivial
  have harguments := hargs.append (hkwargs.append hblocking)
  rw [List.append_nil] at harguments
  exact .cons (.cons harguments trivial) trivial

end Call

/-! ## Refusal -/

namespace Codec

variable {α : Type} [Json.Wire α] {a : α} {parts : List Value}

theorem encode_eq_error_iff {error : CodecError} :
    encode a = .error error ↔
      ∃ x, (Json.toJson a).nonFinite? = some x ∧ error = .nonFinite x := by
  unfold encode encodeJson
  split <;> simp [*, eq_comm]

theorem encode_eq_ok_iff {bytes : List UInt8} :
    encode a = .ok bytes ↔ (Json.toJson a).nonFinite? = none ∧
      bytes = (String.ofList (Json.toJson a).canonicalText).toUTF8.toList := by
  unfold encode encodeJson
  split <;> simp [*, eq_comm]

/-- What has the given parts is encoded unless there is a float among them that is not
finite. -/
structure RefusesNonFinite (a : α) (parts : List Value) : Prop where
  refused_iff : (∃ error, encode a = .error error) ↔ ∃ x, .float x ∈ parts ∧ ¬ x.isFinite
  /-- The error is that of encoding, and it names one of the floats. -/
  error : ∀ error, encode a = .error error →
    ∃ x, error = .nonFinite x ∧ .float x ∈ parts ∧ ¬ x.isFinite
  /-- Null stands for nothing that was encoded. -/
  not_hasNull : ∀ bytes, encode a = .ok bytes → ¬ Json.HasNull bytes

theorem refusesNonFinite_of_carries (hcarries : Value.Carries (Json.toJson a).leaves parts) :
    RefusesNonFinite a parts := by
  have hfind : (Json.toJson a).nonFinite? =
      (parts.filterMap Value.asFloat?).find? fun x => !x.isFinite := by
    rw [Json.nonFinite?_eq_find?, hcarries.floats]
  have herror : ∀ error, encode a = .error error →
      ∃ x, error = .nonFinite x ∧ .float x ∈ parts ∧ ¬ x.isFinite := by
    intro error hrefused
    obtain ⟨x, hfound, herror⟩ := encode_eq_error_iff.mp hrefused
    rw [hfind] at hfound
    exact ⟨x, herror, Value.mem_filterMap_asFloat?.mp (List.mem_of_find?_eq_some hfound),
      by simpa using List.find?_some hfound⟩
  refine ⟨⟨?refused, ?present⟩, herror, ?notNull⟩
  case refused =>
    rintro ⟨error, hrefused⟩
    obtain ⟨x, -, hpart⟩ := herror error hrefused
    exact ⟨x, hpart⟩
  case present =>
    rintro ⟨x, hmem, hinfinite⟩
    have hfound : ((parts.filterMap Value.asFloat?).find? fun x => !x.isFinite).isSome :=
      List.find?_isSome.mpr ⟨x, Value.mem_filterMap_asFloat?.mpr hmem, by simpa using hinfinite⟩
    rw [← hfind] at hfound
    obtain ⟨first, hfirst⟩ := Option.isSome_iff_exists.mp hfound
    exact ⟨_, encode_eq_error_iff.mpr ⟨first, hfirst, rfl⟩⟩
  case notNull =>
    intro bytes hencoded
    obtain ⟨hfinite, rfl⟩ := encode_eq_ok_iff.mp hencoded
    refine Json.not_hasNull_canonicalText hfinite fun leaf hmem => ?_
    obtain hword | ⟨x, rfl⟩ := hcarries.wordOrFloat leaf hmem
    · constructor <;> rintro rfl <;> exact hword
    · exact ⟨nofun, nofun⟩

/-- Values and calls are refused for the floats in them that are not finite, and for nothing
else; and no null stands in their encoded forms. -/
theorem refusesNonFinite :
    (∀ value : Value, RefusesNonFinite value value.parts) ∧
      ∀ call : Call, RefusesNonFinite call call.parts :=
  ⟨fun value => refusesNonFinite_of_carries (Value.carries_toJson value),
    fun call => refusesNonFinite_of_carries call.carries_toJson⟩

/-- An infinity in a field of an object in a list. -/
example : encode (Value.list [.none,
      .object ⟨"Widget", 3, [("ratio", .float ⟨0x7ff0000000000000⟩)]⟩]) =
    .error (.nonFinite ⟨0x7ff0000000000000⟩) :=
  rfl

end Codec

end RemoteCall
