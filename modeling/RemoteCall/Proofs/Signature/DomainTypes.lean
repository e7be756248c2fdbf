import RemoteCall.Proofs.SortedMap
import RemoteCall.Signature.Basic

/-!
# Domain types in their places

A type is told by its shape and by the domain types that stand in it, from left to right.
Replacing each of these by another one leaves the shape alone, and the same holds for a
signature, with all that it says of its parameters besides their types.
-/

namespace RemoteCall

/-! ## Types -/

namespace TypeExpr

mutual

/-- The type with every domain type in it replaced. -/
def mapRefs (f : DomainRef → DomainRef) : TypeExpr → TypeExpr
  | .any => .any
  | .primitive kind => .primitive kind
  | .optional inner => .optional (mapRefs f inner)
  | .union alternatives => .union (mapRefsOf f alternatives)
  | .list inner => .list (mapRefs f inner)
  | .map inner => .map (mapRefs f inner)
  | .domain ref => .domain (f ref)

/-- `mapRefs` of several types, in order. -/
def mapRefsOf (f : DomainRef → DomainRef) : List TypeExpr → List TypeExpr
  | [] => []
  | type :: rest => mapRefs f type :: mapRefsOf f rest

end

/-- The type without the versions of the domain types that it names. -/
def unversioned (type : TypeExpr) : TypeExpr := type.mapRefs fun ref => ⟨ref.name, 0⟩

section

variable (f g : DomainRef → DomainRef)

mutual

theorem domainRefs_mapRefs (type : TypeExpr) :
    (type.mapRefs f).domainRefs = type.domainRefs.map f := by
  cases type with
  | any => rfl
  | primitive kind => rfl
  | optional inner => exact domainRefs_mapRefs inner
  | union alternatives => exact domainRefsOf_mapRefsOf alternatives
  | list inner => exact domainRefs_mapRefs inner
  | map inner => exact domainRefs_mapRefs inner
  | domain ref => rfl

theorem domainRefsOf_mapRefsOf (types : List TypeExpr) :
    domainRefsOf (mapRefsOf f types) = (domainRefsOf types).map f := by
  cases types with
  | nil => rfl
  | cons type rest =>
      rw [mapRefsOf, domainRefsOf, domainRefs_mapRefs type, domainRefsOf_mapRefsOf rest,
        domainRefsOf, List.map_append]

end

mutual

theorem mapRefs_mapRefs (type : TypeExpr) :
    (type.mapRefs f).mapRefs g = type.mapRefs fun ref => g (f ref) := by
  cases type with
  | any => rfl
  | primitive kind => rfl
  | optional inner => exact congrArg TypeExpr.optional (mapRefs_mapRefs inner)
  | union alternatives => exact congrArg TypeExpr.union (mapRefsOf_mapRefsOf alternatives)
  | list inner => exact congrArg TypeExpr.list (mapRefs_mapRefs inner)
  | map inner => exact congrArg TypeExpr.map (mapRefs_mapRefs inner)
  | domain ref => rfl

theorem mapRefsOf_mapRefsOf (types : List TypeExpr) :
    mapRefsOf g (mapRefsOf f types) = mapRefsOf (fun ref => g (f ref)) types := by
  cases types with
  | nil => rfl
  | cons type rest =>
      rw [mapRefsOf, mapRefsOf, mapRefs_mapRefs type, mapRefsOf_mapRefsOf rest, mapRefsOf]

end

end

/-- The second type has the shape of the first, and in place of each domain type one that
is related to it. -/
structure Reversioned (R : DomainRef → DomainRef → Prop) (type type' : TypeExpr) : Prop where
  unversioned : type'.unversioned = type.unversioned
  domainRefs : List.Forall₂ R type.domainRefs type'.domainRefs

variable {f : DomainRef → DomainRef} {R : DomainRef → DomainRef → Prop}

theorem reversioned_mapRefs (hname : ∀ ref, (f ref).name = ref.name) {type : TypeExpr}
    (hrefs : ∀ ref ∈ type.domainRefs, R ref (f ref)) : type.Reversioned R (type.mapRefs f) where
  unversioned := by
    simp only [TypeExpr.unversioned, mapRefs_mapRefs, hname]
  domainRefs := by
    rw [domainRefs_mapRefs, List.forall₂_map_right_iff]
    exact List.forall₂_same.mpr hrefs

end TypeExpr

/-! ## Signatures -/

def Param.mapRefs (f : DomainRef → DomainRef) (param : Param) : Param :=
  { param with type := param.type.mapRefs f }

/-- The second parameter differs from the first in the versions of domain types only. -/
structure Param.Reversioned (R : DomainRef → DomainRef → Prop) (param param' : Param) :
    Prop where
  name : param'.name = param.name
  kind : param'.kind = param.kind
  type : param.type.Reversioned R param'.type
  hasDefault : param'.hasDefault = param.hasDefault

namespace Signature

/-- The domain types named in a signature: those of the parameters in order, and those of
the result. -/
def domainRefs (signature : Signature) : List DomainRef :=
  signature.params.flatMap (fun param => param.type.domainRefs) ++
    signature.returns.elim [] TypeExpr.domainRefs

/-- The signature with every domain type in it replaced. -/
def mapRefs (f : DomainRef → DomainRef) (signature : Signature) : Signature where
  params := signature.params.map (Param.mapRefs f)
  returns := signature.returns.map (TypeExpr.mapRefs f)

/-- The second signature has the parameters of the first in their order, and it has a
result if the first has one, in related versions of the domain types. -/
structure Reversioned (R : DomainRef → DomainRef → Prop) (signature signature' : Signature) :
    Prop where
  params : List.Forall₂ (Param.Reversioned R) signature.params signature'.params
  returns : Option.Rel (TypeExpr.Reversioned R) signature.returns signature'.returns

variable (f g : DomainRef → DomainRef)

theorem domainRefs_mapRefs (signature : Signature) :
    (signature.mapRefs f).domainRefs = signature.domainRefs.map f := by
  have hparams : (signature.mapRefs f).params.flatMap (fun param => param.type.domainRefs) =
      (signature.params.flatMap fun param => param.type.domainRefs).map f := by
    simp only [mapRefs, Param.mapRefs, List.flatMap_map, List.map_flatMap,
      TypeExpr.domainRefs_mapRefs]
  rw [domainRefs, domainRefs, hparams, List.map_append]
  congr 1
  cases hreturns : signature.returns with
  | none => simp only [mapRefs, hreturns, Option.map_none, Option.elim_none, List.map_nil]
  | some type =>
      simp only [mapRefs, hreturns, Option.map_some, Option.elim_some,
        TypeExpr.domainRefs_mapRefs]

theorem mapRefs_mapRefs (signature : Signature) :
    (signature.mapRefs f).mapRefs g = signature.mapRefs fun ref => g (f ref) := by
  simp only [mapRefs, List.map_map, Option.map_map]
  congr 1
  · congr 1
    funext param
    simp only [Function.comp, Param.mapRefs, TypeExpr.mapRefs_mapRefs]
  · congr 1
    funext type
    exact TypeExpr.mapRefs_mapRefs f g type

theorem names_mapRefs (signature : Signature) :
    (signature.mapRefs f).names = signature.names := by
  rw [names, names, mapRefs, List.map_map]
  rfl

variable {f} {R : DomainRef → DomainRef → Prop}

theorem reversioned_mapRefs (hname : ∀ ref, (f ref).name = ref.name) {signature : Signature}
    (hrefs : ∀ ref ∈ signature.domainRefs, R ref (f ref)) :
    signature.Reversioned R (signature.mapRefs f) where
  params := by
    rw [mapRefs, List.forall₂_map_right_iff]
    apply List.forall₂_same.mpr
    intro param hparam
    have htype : ∀ ref ∈ param.type.domainRefs, R ref (f ref) := fun ref hmem =>
      hrefs ref (List.mem_append_left _ (List.mem_flatMap.mpr ⟨param, hparam, hmem⟩))
    exact ⟨rfl, rfl, TypeExpr.reversioned_mapRefs hname htype, rfl⟩
  returns := by
    rw [mapRefs]
    cases hreturns : signature.returns with
    | none => exact .none
    | some type =>
        apply Option.Rel.some
        apply TypeExpr.reversioned_mapRefs hname
        intro ref hmem
        apply hrefs ref (List.mem_append_right _ _)
        rw [hreturns]
        exact hmem

end Signature

end RemoteCall
