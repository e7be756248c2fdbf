import RemoteCall.Catalog.Endpoint
import RemoteCall.Catalog.Identity
import RemoteCall.Proofs.Call.RoundTrip
import RemoteCall.Proofs.Migration.ProtocolVersion
import RemoteCall.Proofs.Signature.RoundTrip
import RemoteCall.Proofs.Signing.Key

/-!
# Catalogs and identities read back

What client and service tell each other before the first call is read back as it was
written: who the service is, which versions it speaks, and which endpoints it has for the
caller.  A member that is left out where there is nothing to tell is read as just that.
-/

namespace RemoteCall

open Json (Plain ReadAs Reordered)

/-! ## Names that stand for themselves -/

namespace ProtocolVersion

theorem plain_toJson (version : ProtocolVersion) : Plain (Json.toJson version) :=
  Json.plain_str _

theorem readAs_toJson (version : ProtocolVersion) :
    ReadAs Json.ofJson? (Json.toJson version) version := by
  refine Json.readAs_of_isLeaf trivial ?_
  change ofChars? (String.ofList version.toChars).toList = some version
  rw [String.toList_ofList, ofChars?_toChars]

end ProtocolVersion

theorem Role.plain_toJson (role : Role) : Plain (Json.toJson role) :=
  Json.plain_str _

theorem Role.readAs_toJson (role : Role) : ReadAs Json.ofJson? (Json.toJson role) role :=
  Json.readAs_of_isLeaf trivial (by cases role <;> rfl)

theorem Uid.plain_toJson (uid : Uid) : Plain (Json.toJson uid) :=
  Json.plain_str _

theorem VerifyKey.plain_toJson (key : VerifyKey) : Plain (Json.toJson key) :=
  Json.plain_str _

theorem Value.plain_toJson {value : Value} (hportable : value.Portable) :
    Plain (Json.toJson value) :=
  ⟨Value.exact_toJson value hportable.floatFree, Value.regular_toJson value hportable.ordered⟩

/-! ## Endpoints -/

namespace EndpointWarning

theorem plain_toJson (warning : EndpointWarning) : Plain (Json.toJson warning) :=
  Json.plain_obj (by simp) (by simp)

theorem readAs_toJson (warning : EndpointWarning) :
    ReadAs Json.ofJson? (Json.toJson warning) warning := by
  change ReadAs (fun tree => (Json.fields? _ tree).bind _) (.obj _) warning
  refine Json.readAs_of_fields? (by simp) rfl ?_
  rintro _ (_ | ⟨⟨hmessage⟩, _ | ⟨⟨hconfirmation⟩, _ | ⟨⟨henabled⟩, ⟨⟩⟩⟩⟩)
  simp only [Json.readAs_str? _ _ hmessage, Json.orElse, Json.readAs_bool? _ _ hconfirmation,
    Json.readAs_bool? _ _ henabled, Option.bind_eq_bind, Option.bind_some, Option.pure_def]

end EndpointWarning

namespace Endpoint

/-- Every argument that goes with the calls is read back as it was written. -/
def Portable (endpoint : Endpoint) : Prop :=
  ∀ entry ∈ endpoint.prebound.entries, entry.2.Portable

variable {endpoint : Endpoint}

theorem plain_toJson (hportable : endpoint.Portable) : Plain (Json.toJson endpoint) := by
  have hprebound : Plain (.obj (Value.entriesToJson endpoint.prebound.entries)) := by
    rw [Value.entriesToJson_eq_map]
    exact Json.plain_map fun entry hmem => Value.plain_toJson (hportable entry hmem)
  have hwarning := fun warning : EndpointWarning => warning.plain_toJson
  have hnodup : ((("id", Json.toJson endpoint.id) :: endpoint.membersAfterId).map
      Prod.fst).Nodup := by
    unfold membersAfterId
    cases endpoint.doc <;> cases endpoint.warning <;> split <;> simp [member]
  refine Json.plain_obj hnodup (List.forall_mem_cons.mpr ⟨endpoint.id.plain_toJson, ?_⟩)
  unfold membersAfterId
  cases endpoint.doc <;> cases endpoint.warning <;> split <;>
    simp [member, hwarning, hprebound, endpoint.signature.plain_toJson]

/-- A member that is left out is not found, and all others are. -/
theorem fields?_toJson (endpoint : Endpoint) :
    Json.fields? ["id", "service_path", "module_path", "name", "description", "doc_string",
      "signature", "has_self", "prebound", "warning"] (Json.toJson endpoint) =
    some [some (Json.toJson endpoint.id), some (.str endpoint.servicePath),
      some (.str endpoint.modulePath), some (.str endpoint.name),
      some (.str endpoint.description), endpoint.doc.map .str,
      some (Json.toJson endpoint.signature), some (.bool endpoint.hasSelf),
      if endpoint.prebound.isEmpty then none
        else some (.obj (Value.entriesToJson endpoint.prebound.entries)),
      endpoint.warning.map Json.toJson] := by
  change Json.fields? _ (.obj (_ :: endpoint.membersAfterId)) = _
  unfold membersAfterId
  cases endpoint.doc <;> cases endpoint.warning <;> split <;> rfl

/-- Having no arguments that go with the calls is told by leaving them out. -/
theorem orElse_prebound (hportable : endpoint.Portable) {field : Option Json}
    (hrel : Option.Rel Reordered
      (if endpoint.prebound.isEmpty then none
        else some (.obj (Value.entriesToJson endpoint.prebound.entries))) field) :
    Json.orElse .empty (Json.map? Value.ofJson?) field = some endpoint.prebound := by
  refine Json.orElse_of_rel (fun hnone => ?_) (fun tree hsome => ?_) hrel
  · split at hnone
    · rename_i hempty
      exact SortedMap.ext (List.isEmpty_iff.mp hempty)
    · cases hnone
  · split at hsome
    · cases hsome
    · cases hsome
      rw [Value.entriesToJson_eq_map]
      exact Json.readAs_map? fun entry hmem => Value.readAs_toJson (hportable entry hmem).ordered

theorem readAs_toJson (hportable : endpoint.Portable) :
    ReadAs Json.ofJson? (Json.toJson endpoint) endpoint := by
  change ReadAs (fun tree => (Json.fields? _ tree).bind _) (.obj _) endpoint
  refine Json.readAs_of_fields? (plain_toJson hportable).regular.1 endpoint.fields?_toJson ?_
  rintro _ (_ | ⟨⟨hid⟩, _ | ⟨⟨hservicePath⟩, _ | ⟨⟨hmodulePath⟩, _ | ⟨⟨hname⟩,
    _ | ⟨⟨hdescription⟩, _ | ⟨hdoc, _ | ⟨⟨hsignature⟩, _ | ⟨⟨hhasSelf⟩, _ | ⟨hprebound,
    _ | ⟨hwarning, ⟨⟩⟩⟩⟩⟩⟩⟩⟩⟩⟩⟩)
  have hdoc := Json.optional_of_rel rfl (fun doc _ => Json.readAs_str? doc) hdoc
  have hprebound := orElse_prebound hportable hprebound
  have hwarning := Json.optional_of_rel rfl (fun warning _ => warning.readAs_toJson) hwarning
  simp only [endpoint.id.readAs_toJson _ hid, Json.readAs_str? _ _ hservicePath,
    Json.readAs_str? _ _ hmodulePath, Json.readAs_str? _ _ hname, Json.orElse_some,
    Json.readAs_str? _ _ hdescription, hdoc, endpoint.signature.readAs_toJson _ hsignature,
    Json.readAs_bool? _ _ hhasSelf, hprebound, hwarning, Option.bind_eq_bind, Option.bind_some,
    Option.pure_def]

end Endpoint

/-! ## Catalogs -/

namespace Catalog

/-- Every endpoint is read back as it was written. -/
def Portable (catalog : Catalog) : Prop :=
  (∀ entry ∈ catalog.endpoints.entries, entry.2.Portable) ∧
    ∀ entry ∈ catalog.libEndpoints.entries, entry.2.Portable

variable {catalog : Catalog}

theorem plain_endpointsToJson {endpoints : SortedMap String Endpoint}
    (hportable : ∀ entry ∈ endpoints.entries, entry.2.Portable) :
    Plain (endpointsToJson endpoints) :=
  Json.plain_map fun entry hmem => Endpoint.plain_toJson (hportable entry hmem)

theorem readAs_endpointsToJson {endpoints : SortedMap String Endpoint}
    (hportable : ∀ entry ∈ endpoints.entries, entry.2.Portable) :
    ReadAs (Json.map? Json.ofJson?) (endpointsToJson endpoints) endpoints :=
  Json.readAs_map? fun entry hmem => Endpoint.readAs_toJson (hportable entry hmem)

theorem plain_toJson (hportable : catalog.Portable) : Plain (Json.toJson catalog) :=
  Json.plain_obj (by simp) (by
    simp [catalog.service.plain_toJson, catalog.protocol.plain_toJson, catalog.role.plain_toJson,
      plain_endpointsToJson hportable.1, plain_endpointsToJson hportable.2])

theorem readAs_toJson (hportable : catalog.Portable) :
    ReadAs Json.ofJson? (Json.toJson catalog) catalog := by
  change ReadAs (fun tree => (Json.fields? _ tree).bind _) (.obj _) catalog
  refine Json.readAs_of_fields? (by simp) rfl ?_
  rintro _ (_ | ⟨⟨hservice⟩, _ | ⟨⟨hserviceName⟩, _ | ⟨⟨hprotocol⟩, _ | ⟨⟨hrole⟩,
    _ | ⟨⟨hendpoints⟩, _ | ⟨⟨hlibEndpoints⟩, ⟨⟩⟩⟩⟩⟩⟩⟩)
  simp only [catalog.service.readAs_toJson _ hservice, Json.readAs_str? _ _ hserviceName,
    catalog.protocol.readAs_toJson _ hprotocol, catalog.role.readAs_toJson _ hrole,
    Json.orElse_some, readAs_endpointsToJson hportable.1 _ hendpoints,
    readAs_endpointsToJson hportable.2 _ hlibEndpoints, Option.bind_eq_bind, Option.bind_some,
    Option.pure_def]

end Catalog

/-! ## Identities -/

namespace IdentityMetadata

theorem plain_toJson (metadata : IdentityMetadata) : Plain (Json.toJson metadata) := by
  have hsupported : Plain (.arr (metadata.supported.map Json.toJson)) :=
    Json.plain_arr (List.forall_mem_map.mpr fun version _ => version.plain_toJson)
  exact Json.plain_obj (by simp) (by
    simp [metadata.identity.id.plain_toJson, metadata.identity.verifyKey.plain_toJson,
      metadata.protocol.plain_toJson, hsupported])

theorem readAs_toJson (metadata : IdentityMetadata) :
    ReadAs Json.ofJson? (Json.toJson metadata) metadata := by
  change ReadAs (fun tree => (Json.fields? _ tree).bind _) (.obj _) metadata
  refine Json.readAs_of_fields? (by simp) rfl ?_
  rintro _ (_ | ⟨⟨hid⟩, _ | ⟨⟨hname⟩, _ | ⟨⟨hverifyKey⟩, _ | ⟨⟨hprotocol⟩,
    _ | ⟨⟨hsupported⟩, ⟨⟩⟩⟩⟩⟩⟩)
  have hsupported := Json.readAs_list? (fun version _ => version.readAs_toJson) _ hsupported
  simp only [metadata.identity.id.readAs_toJson _ hid, Json.readAs_str? _ _ hname,
    metadata.identity.verifyKey.readAs_toJson _ hverifyKey,
    metadata.protocol.readAs_toJson _ hprotocol, Json.orElse_some, hsupported,
    Option.bind_eq_bind, Option.bind_some, Option.pure_def]

/-- However many versions a service speaks, its identity is never too deep to be read. -/
theorem depth_toJson (metadata : IdentityMetadata) : (Json.toJson metadata).depth = 2 := by
  have hsupported : Json.depthItems (metadata.supported.map Json.toJson) = 0 := by
    induction metadata.supported with
    | nil => rfl
    | cons version rest ih =>
        rw [List.map_cons, Json.depthItems, ih]
        rfl
  have hdepth : (Json.toJson metadata).depth = 1 + max 0 (max 0 (max 0 (max 0
      (max (1 + Json.depthItems (metadata.supported.map Json.toJson)) 0)))) := rfl
  omega

end IdentityMetadata

/-! ## The texts -/

/-- What is told is taken in as it was: from every text of its tree, in whatever order the
members stand, and from the bytes that are signed and sent. -/
structure SurvivesWire {α : Type} [Json.Wire α] (a : α) : Prop where
  decode_render : ∀ tree, Reordered (Json.toJson a) tree →
    Codec.decode (String.ofList (Json.render tree)).toUTF8.toList = .ok a
  roundTrips : RoundTrips a

theorem survivesWire_of_readAs {α : Type} [Json.Wire α] {a : α} (hplain : Plain (Json.toJson a))
    (hread : ReadAs Json.ofJson? (Json.toJson a) a)
    (hdepth : (Json.toJson a).depth ≤ Json.nestingLimit) : SurvivesWire a where
  decode_render tree hreordered := by
    have hexact := Json.exact_of_reordered hreordered hplain.exact
    have hdepth := (Json.depth_of_reordered hreordered).trans_le hdepth
    rw [Codec.decode, Json.parse?_render hexact hdepth, Option.bind_some, hread tree hreordered]
  roundTrips :=
    (roundTrips_iff_of_exact hplain.exact (hread _ (Json.reordered_canonical hplain.regular))
      fun _ => hdepth).mpr hdepth

/-- A catalog whose pre-bound values are told by their texts, and every signature, comes
through if its tree is not too deep.  An identity always does. -/
theorem survivesWire_of_depth_le :
    (∀ catalog : Catalog, catalog.Portable →
      (Json.toJson catalog).depth ≤ Json.nestingLimit → SurvivesWire catalog) ∧
    (∀ signature : Signature,
      (Json.toJson signature).depth ≤ Json.nestingLimit → SurvivesWire signature) ∧
    ∀ metadata : IdentityMetadata, SurvivesWire metadata := by
  refine ⟨fun catalog hportable => ?_, fun signature => ?_, fun metadata => ?_⟩
  · exact survivesWire_of_readAs (Catalog.plain_toJson hportable) (Catalog.readAs_toJson hportable)
  · exact survivesWire_of_readAs signature.plain_toJson signature.readAs_toJson
  · exact survivesWire_of_readAs metadata.plain_toJson metadata.readAs_toJson
      (metadata.depth_toJson ▸ by decide)

/-- How the post of a house is handed in. -/
def letterSlot : Signature where
  params := [.positional "letter" (.union [.primitive .str, .domain ⟨"letter", 4294967295⟩]),
    (Param.keyword "stamps" (.map (.list (.optional (.primitive .int))))).withDefault]
  returns := none

/-- A catalog that tells each thing once and leaves it out once. -/
def postRoom : Catalog where
  service := default
  serviceName := "post room"
  protocol := .stable 4294967295
  role := .dataScientist
  endpoints := .insert .empty "post" { Endpoint.new default "post" letterSlot with
    doc := some ""
    prebound := .insert .empty "floor" (.str "north \"wing\"")
    warning := some ⟨"closed at night", true, false⟩ }
  libEndpoints := .insert .empty "weigh"
    (.new default "weigh" ⟨[.varPositional "letters" .any], some (.primitive .int)⟩)

theorem Catalog.portable_postRoom : postRoom.Portable := by
  have hstr : Value.Portable (.str "north \"wing\"") :=
    ⟨trivial, by simp [Value.parts, Value.inside]⟩
  refine ⟨fun entry hmem => ?_, fun entry hmem => ?_⟩
  · cases List.mem_singleton.mp hmem
    exact fun entry hmem => List.mem_singleton.mp hmem ▸ hstr
  · cases List.mem_singleton.mp hmem
    exact fun entry hnone => absurd hnone List.not_mem_nil

theorem survivesWire_of_depth_le_postRoom :
    SurvivesWire postRoom ∧ SurvivesWire letterSlot ∧
      SurvivesWire (IdentityMetadata.mk ⟨default, "post room", Codec.memoKey.verifyKey⟩ .dev
        [.dev, .stable 0, .dev]) := by
  obtain ⟨hcatalog, hsignature, hidentity⟩ := survivesWire_of_depth_le
  exact ⟨hcatalog _ Catalog.portable_postRoom (by decide), hsignature _ (by decide), hidentity _⟩

end RemoteCall
