import RemoteCall.Proofs.Value.RoundTrip
import RemoteCall.Signature.Basic

/-!
# Signatures read back

A type is read back from its tree by induction on the type, with any bound that the tree
stays below; parameters and signatures are records of types.
-/

namespace RemoteCall

open Json (Plain ReadAs Reordered)

theorem ParamKind.plain_toJson (kind : ParamKind) : Plain (Json.toJson kind) :=
  Json.plain_str _

theorem ParamKind.readAs_toJson (kind : ParamKind) :
    ReadAs Json.ofJson? (Json.toJson kind) kind :=
  Json.readAs_of_isLeaf trivial (by cases kind <;> rfl)

theorem Primitive.readAs_wireName (waited : Bool) (kind : Primitive) :
    ReadAs (ofJson? waited) (.str kind.wireName) kind :=
  Json.readAs_of_isLeaf trivial (by cases kind <;> rfl)

namespace DomainRef

theorem plain_toJson (ref : DomainRef) : Plain (Json.toJson ref) := by
  have hversion : ref.version.toNat < UInt64.size :=
    Nat.lt_trans ref.version.toNat_lt_size (by decide)
  exact Json.plain_obj (by simp) (by simp [Json.plain_natCast hversion])

theorem readAs_toJson (ref : DomainRef) : ReadAs Json.ofJson? (Json.toJson ref) ref := by
  change ReadAs (fun tree => (Json.fields? _ tree).bind _) (.obj _) ref
  refine Json.readAs_of_fields? (by simp) rfl ?_
  rintro _ (_ | ⟨⟨hname⟩, _ | ⟨⟨hversion⟩, ⟨⟩⟩⟩)
  simp only [Json.readAs_str? _ _ hname, Json.readAs_word? _ _ hversion, Option.bind_eq_bind,
    Option.bind_some, Option.pure_def]

end DomainRef

/-! ## Types -/

namespace TypeExpr

theorem plain_tagged {kind : String} {content : Json} (hcontent : content.Plain) :
    (tagged kind content).Plain :=
  Json.plain_obj (by simp) (by simp [hcontent])

mutual

theorem plain_toJson : ∀ (type : TypeExpr), Plain (Json.toJson type)
  | .any => Json.plain_obj (by simp) (by simp)
  | .primitive _ => plain_tagged (Json.plain_str _)
  | .optional inner => plain_tagged (plain_toJson inner)
  | .union alternatives => plain_tagged (Json.plain_arr (plain_alternatives alternatives))
  | .list inner => plain_tagged (plain_toJson inner)
  | .map inner => plain_tagged (plain_toJson inner)
  | .domain ref => plain_tagged ref.plain_toJson

theorem plain_alternatives : ∀ (types : List TypeExpr),
    ∀ tree ∈ alternativesToJson types, Plain tree
  | [] => nofun
  | type :: rest => List.forall_mem_cons.mpr ⟨plain_toJson type, plain_alternatives rest⟩

end

theorem alternativesToJson_eq_map (types : List TypeExpr) :
    alternativesToJson types = types.map toJson := by
  induction types with
  | nil => rfl
  | cons type rest ih => rw [alternativesToJson, ih, List.map_cons]

/-- What a tagged tree holds is read in whatever order kind and content stand. -/
theorem readAs_tagged {fuel : Nat} {waited : Bool} {kind : String} {content : Json}
    {type : TypeExpr} (hkind : kind ≠ "any") (hplain : content.Plain)
    (hcontent : ∀ waited,
      ReadAs (holding? (ofJsonWithin? fuel waited) waited kind) content type) :
    ReadAs (ofJsonWithin? (fuel + 1) waited) (tagged kind content) type := by
  intro tree hreordered
  obtain ⟨content', waited', hreordered, htagged⟩ :=
    Json.tagged?_of_reordered waited (by decide) hplain.regular hreordered
  rw [ofJsonWithin?, htagged]
  dsimp only
  rw [if_neg hkind, Option.bind_some, hcontent waited' content' hreordered]

theorem readAs_any (fuel : Nat) (waited : Bool) :
    ReadAs (ofJsonWithin? (fuel + 1) waited) (toJson .any) .any := by
  intro tree hreordered
  rw [Json.eq_of_reordered_bare hreordered]
  rfl

mutual

theorem readAs_ofJsonWithin? : ∀ (type : TypeExpr) (fuel : Nat) (waited : Bool),
    (toJson type).depth ≤ fuel → ReadAs (ofJsonWithin? (fuel + 1) waited) (toJson type) type
  | .any => fun fuel waited _ => readAs_any fuel waited
  | .primitive kind => fun _ _ _ => readAs_tagged (by decide) (Json.plain_str _) fun waited =>
      (kind.readAs_wireName waited).map TypeExpr.primitive
  | .optional inner => by
      intro fuel waited hdepth
      obtain ⟨less, rfl, hcontent⟩ := Json.exists_of_depth_tagged_le hdepth
      exact readAs_tagged (by decide) (plain_toJson inner) fun waited =>
        (readAs_ofJsonWithin? inner less waited hcontent).map TypeExpr.optional
  | .union alternatives => by
      intro fuel waited hdepth
      obtain ⟨less, rfl, hcontent⟩ := Json.exists_of_depth_tagged_le hdepth
      rw [Json.depth] at hcontent
      refine readAs_tagged (by decide) (Json.plain_arr (plain_alternatives alternatives))
        fun waited => ?_
      have htypes := Json.readAs_list? (readAs_alternatives alternatives less waited (by omega))
      rw [← alternativesToJson_eq_map] at htypes
      exact htypes.map TypeExpr.union
  | .list inner => by
      intro fuel waited hdepth
      obtain ⟨less, rfl, hcontent⟩ := Json.exists_of_depth_tagged_le hdepth
      exact readAs_tagged (by decide) (plain_toJson inner) fun waited =>
        (readAs_ofJsonWithin? inner less waited hcontent).map TypeExpr.list
  | .map inner => by
      intro fuel waited hdepth
      obtain ⟨less, rfl, hcontent⟩ := Json.exists_of_depth_tagged_le hdepth
      exact readAs_tagged (by decide) (plain_toJson inner) fun waited =>
        (readAs_ofJsonWithin? inner less waited hcontent).map TypeExpr.map
  | .domain ref => fun _ _ _ => readAs_tagged (by decide) ref.plain_toJson fun _ =>
      ref.readAs_toJson.map TypeExpr.domain

theorem readAs_alternatives : ∀ (types : List TypeExpr) (fuel : Nat) (waited : Bool),
    Json.depthItems (alternativesToJson types) ≤ fuel →
      ∀ type ∈ types, ReadAs (ofJsonWithin? (fuel + 1) waited) (toJson type) type
  | [] => fun _ _ _ _ hmem => nomatch hmem
  | type :: rest => by
      intro fuel waited hdepth
      rw [alternativesToJson, Json.depthItems, Nat.max_le] at hdepth
      exact List.forall_mem_cons.mpr ⟨readAs_ofJsonWithin? type fuel waited hdepth.1,
        readAs_alternatives rest fuel waited hdepth.2⟩

end

theorem readAs_toJson (type : TypeExpr) : ReadAs Json.ofJson? (Json.toJson type) type := by
  intro tree hreordered
  exact readAs_ofJsonWithin? type tree.depth false
    (Nat.le_of_eq (Json.depth_of_reordered hreordered).symm) tree hreordered

end TypeExpr

/-! ## Parameters and signatures -/

namespace Param

theorem plain_toJson (param : Param) : Plain (Json.toJson param) :=
  Json.plain_obj (by simp) (by simp [param.kind.plain_toJson, param.type.plain_toJson])

theorem readAs_toJson (param : Param) : ReadAs Json.ofJson? (Json.toJson param) param := by
  change ReadAs (fun tree => (Json.fields? _ tree).bind _) (.obj _) param
  refine Json.readAs_of_fields? (by simp) rfl ?_
  rintro _ (_ | ⟨⟨hname⟩, _ | ⟨⟨hkind⟩, _ | ⟨⟨htype⟩, _ | ⟨⟨hdefault⟩, ⟨⟩⟩⟩⟩⟩)
  simp only [Json.readAs_str? _ _ hname, param.kind.readAs_toJson _ hkind,
    param.type.readAs_toJson _ htype, Json.orElse, Json.readAs_bool? _ _ hdefault,
    Option.bind_eq_bind, Option.bind_some, Option.pure_def]

end Param

namespace Signature

theorem plain_toJson (signature : Signature) : Plain (Json.toJson signature) := by
  have hparams : Plain (.arr (signature.params.map Json.toJson)) :=
    Json.plain_arr (List.forall_mem_map.mpr fun param _ => param.plain_toJson)
  obtain ⟨params, _ | returns⟩ := signature
  · exact Json.plain_obj (by simp) (by simp [hparams])
  · exact Json.plain_obj (by simp) (by simp [hparams, returns.plain_toJson])

/-- A missing type of the result is read back as well as one that is there. -/
theorem readAs_toJson (signature : Signature) :
    ReadAs Json.ofJson? (Json.toJson signature) signature := by
  have hfields : Json.fields? ["params", "returns"] (Json.toJson signature) =
      some [some (.arr (signature.params.map Json.toJson)),
        signature.returns.map Json.toJson] := by
    obtain ⟨params, _ | returns⟩ := signature
    · rfl
    · rfl
  change ReadAs (fun tree => (Json.fields? _ tree).bind _) (.obj _) signature
  refine Json.readAs_of_fields? signature.plain_toJson.regular.1 hfields ?_
  rintro _ (_ | ⟨⟨hparams⟩, _ | ⟨hreturns, ⟨⟩⟩⟩)
  have hparams := Json.readAs_list? (fun param _ => param.readAs_toJson) _ hparams
  have hreturns := Json.optional_of_rel rfl (fun type _ => type.readAs_toJson) hreturns
  simp only [hparams, hreturns, Option.bind_eq_bind, Option.bind_some, Option.pure_def]

end Signature

end RemoteCall
