import RemoteCall.Proofs.Migration.Arrival
import RemoteCall.Proofs.Signature.DomainTypes

/-!
# Signatures made for a protocol

Whether a domain type can be named for a protocol, and in which version, is a matter of
its name alone.  So a signature is made for a protocol by renaming its domain types in
their places, unless one of them cannot be named, and the first of these is reported.
Making the result for another protocol then comes to the same as making the signature
that it came from for that protocol.
-/

namespace RemoteCall

/-- An error if there is one, and else the value. -/
def Outcome.refusedOr {ε α : Type} (refusal : Option ε) (a : α) : Except ε α :=
  refusal.elim (.ok a) .error

namespace Outcome

variable {ε ε' α β : Type} {refusal : Option ε} {a : α}

theorem refusedOr_eq_ok_iff {b : α} : refusedOr refusal a = .ok b ↔ refusal = none ∧ a = b := by
  cases refusal <;> simp [refusedOr]

theorem map_refusedOr (f : α → β) : (refusedOr refusal a).map f = refusedOr refusal (f a) := by
  cases refusal <;> rfl

theorem mapError_refusedOr (f : ε → ε') :
    (refusedOr refusal a).mapError f = refusedOr (refusal.map f) a := by
  cases refusal <;> rfl

end Outcome

/-- The error without the version that it says was to be converted. -/
def MigrationError.forgetSource : MigrationError → MigrationError
  | .noConversionPath type _ target => .noConversionPath type 0 target
  | e => e

theorem History.exists_isGreatest_upTo {history : History} {target : UInt32}
    (hnonempty : (history.upTo target).Nonempty) :
    ∃ version, IsGreatest (history.upTo target) version := by
  obtain ⟨version, hcontains, hle⟩ := hnonempty
  obtain ⟨entry, hentry⟩ := Option.isSome_iff_exists.mp hcontains
  have hmem : version ∈ (history.versions.filter fun other _ => other ≤ target).keys :=
    SortedMap.mem_keys_filter.mpr
      ⟨entry, SortedMap.mem_entries_iff.mpr hentry, decide_eq_true hle⟩
  obtain ⟨greatest, hgreatest⟩ :=
    Option.isSome_iff_exists.mp (SortedMap.lastKey?_isSome_of_mem hmem)
  exact ⟨greatest, isGreatest_upTo_iff.mpr hgreatest⟩

namespace MigrationEngine

variable {engine : MigrationEngine} {versions later : ObjectVersions} {ref ref' : DomainRef}

/-! ## One domain type -/

/-- A registered type can be named for the protocol: it is listed there, and one of its
versions is at most the greatest one listed. -/
def Reaches (engine : MigrationEngine) (versions : ObjectVersions) (ref : DomainRef) : Prop :=
  ∀ history, engine.registry.history? ref.name = some history →
    ∃ newest, IsGreatest (versions.listed ref.name) newest ∧ (history.upTo newest).Nonempty

/-- The second domain type is the first in the version for the protocol.  A type that is
not registered has no other version. -/
def NamedFor (engine : MigrationEngine) (versions : ObjectVersions) (ref ref' : DomainRef) :
    Prop :=
  match engine.registry.history? ref.name with
  | none => ref' = ref
  | some history => ref'.name = ref.name ∧
      history.Chooses (versions.listed ref.name) ref'.version

/-- A registered type is named in the version that is taken for it. -/
theorem downgradeRef_eq_ok_iff {history : History}
    (hhistory : engine.registry.history? ref.name = some history) :
    engine.downgradeRef versions ref = .ok ref' ↔
      ref'.name = ref.name ∧ history.Chooses (versions.listed ref.name) ref'.version := by
  simp only [History.Chooses, ObjectVersions.isGreatest_listed_iff,
    History.isGreatest_upTo_iff, downgradeRef, hhistory]
  cases hnewest : versions.newest? ref.name with
  | none => simp
  | some newest =>
      obtain ⟨name', version'⟩ := ref'
      cases hversion : history.atOrBelow? newest with
      | none => simp [hversion]
      | some version => simp [hversion, eq_comm]

theorem namedFor_iff :
    engine.NamedFor versions ref ref' ↔ engine.downgradeRef versions ref = .ok ref' := by
  rw [NamedFor]
  cases hhistory : engine.registry.history? ref.name with
  | none => simp [downgradeRef, hhistory, eq_comm]
  | some history => exact (downgradeRef_eq_ok_iff hhistory).symm

/-- Why a domain type cannot be named for the protocol. -/
def refusal? (engine : MigrationEngine) (versions : ObjectVersions) (ref : DomainRef) :
    Option MigrationError :=
  match engine.downgradeRef versions ref with
  | .error e => some e
  | .ok _ => none

/-- The domain type in the version for the protocol, which is any number if there is none. -/
def renamed (engine : MigrationEngine) (versions : ObjectVersions) (ref : DomainRef) :
    DomainRef :=
  match engine.registry.history? ref.name with
  | none => ref
  | some history =>
    ⟨ref.name, ((versions.newest? ref.name).bind history.atOrBelow?).getD 0⟩

theorem downgradeRef_eq :
    engine.downgradeRef versions ref =
      Outcome.refusedOr (engine.refusal? versions ref) (engine.renamed versions ref) := by
  rw [refusal?, renamed, downgradeRef]
  cases engine.registry.history? ref.name with
  | none => rfl
  | some history =>
      cases versions.newest? ref.name with
      | none => rfl
      | some newest =>
          dsimp only [Option.bind_some]
          cases history.atOrBelow? newest <;> rfl

theorem downgradeRef_of_refusal?_eq_none (hnone : engine.refusal? versions ref = none) :
    engine.downgradeRef versions ref = .ok (engine.renamed versions ref) := by
  rw [downgradeRef_eq, hnone]
  rfl

theorem refusal?_eq_none_iff :
    engine.refusal? versions ref = none ↔ engine.Reaches versions ref := by
  constructor
  · intro hnone history hhistory
    obtain ⟨-, newest, hnewest, hversion⟩ :=
      (downgradeRef_eq_ok_iff hhistory).mp (downgradeRef_of_refusal?_eq_none hnone)
    exact ⟨newest, hnewest, _, hversion.1⟩
  · intro hreaches
    cases hhistory : engine.registry.history? ref.name with
    | none => simp only [refusal?, downgradeRef, hhistory]
    | some history =>
        obtain ⟨newest, hnewest, hnonempty⟩ := hreaches history hhistory
        obtain ⟨version, hversion⟩ := History.exists_isGreatest_upTo hnonempty
        have href : engine.downgradeRef versions ref = .ok ⟨ref.name, version⟩ :=
          (downgradeRef_eq_ok_iff hhistory).mpr ⟨rfl, newest, hnewest, hversion⟩
        rw [refusal?, href]

@[simp]
theorem name_renamed (ref : DomainRef) : (engine.renamed versions ref).name = ref.name := by
  rw [renamed]
  split <;> rfl

/-- The version that a type is named in before does not matter. -/
theorem renamed_renamed :
    engine.renamed later (engine.renamed versions ref) = engine.renamed later ref := by
  cases hhistory : engine.registry.history? ref.name with
  | none => simp only [renamed, hhistory]
  | some history => simp only [renamed, hhistory]

theorem refusal?_renamed :
    (engine.refusal? later (engine.renamed versions ref)).map MigrationError.forgetSource =
      (engine.refusal? later ref).map MigrationError.forgetSource := by
  cases hhistory : engine.registry.history? ref.name with
  | none => simp only [renamed, hhistory]
  | some history =>
      simp only [refusal?, downgradeRef, renamed, hhistory]
      cases later.newest? ref.name with
      | none => rfl
      | some newest =>
          dsimp only
          cases history.atOrBelow? newest <;> rfl

/-! ## Types and signatures -/

mutual

theorem downgradeType_eq (type : TypeExpr) :
    engine.downgradeType versions type =
      Outcome.refusedOr (type.domainRefs.findSome? (engine.refusal? versions))
        (type.mapRefs (engine.renamed versions)) := by
  cases type with
  | any => rfl
  | primitive kind => rfl
  | optional inner =>
      rw [downgradeType, downgradeType_eq inner, Outcome.map_refusedOr]
      rfl
  | union alternatives =>
      rw [downgradeType, downgradeTypes_eq alternatives, Outcome.map_refusedOr]
      rfl
  | list inner =>
      rw [downgradeType, downgradeType_eq inner, Outcome.map_refusedOr]
      rfl
  | map inner =>
      rw [downgradeType, downgradeType_eq inner, Outcome.map_refusedOr]
      rfl
  | domain ref =>
      rw [downgradeType, downgradeRef_eq, Outcome.map_refusedOr, TypeExpr.domainRefs,
        List.findSome?_singleton, TypeExpr.mapRefs]

theorem downgradeTypes_eq (types : List TypeExpr) :
    engine.downgradeTypes versions types =
      Outcome.refusedOr ((TypeExpr.domainRefsOf types).findSome? (engine.refusal? versions))
        (TypeExpr.mapRefsOf (engine.renamed versions) types) := by
  cases types with
  | nil => rfl
  | cons type rest =>
      rw [downgradeTypes, downgradeType_eq type, downgradeTypes_eq rest,
        TypeExpr.domainRefsOf, List.findSome?_append, TypeExpr.mapRefsOf]
      cases type.domainRefs.findSome? (engine.refusal? versions) with
      | some e => rfl
      | none =>
          cases (TypeExpr.domainRefsOf rest).findSome? (engine.refusal? versions) <;> rfl

end

theorem downgradeParams_eq (params : List Param) :
    engine.downgradeParams versions params =
      Outcome.refusedOr
        ((params.flatMap fun param => param.type.domainRefs).findSome?
          (engine.refusal? versions))
        (params.map (Param.mapRefs (engine.renamed versions))) := by
  induction params with
  | nil => rfl
  | cons param rest ih =>
      rw [downgradeParams, downgradeParam, downgradeType_eq, Outcome.map_refusedOr, ih,
        List.flatMap_cons, List.findSome?_append, List.map_cons]
      cases param.type.domainRefs.findSome? (engine.refusal? versions) with
      | some e => rfl
      | none =>
          cases (rest.flatMap fun param => param.type.domainRefs).findSome?
            (engine.refusal? versions) <;> rfl

/-- A signature is refused for the first domain type that is, and else renamed as a whole. -/
theorem downgradeSignature_eq (signature : Signature) :
    engine.downgradeSignature versions signature =
      Outcome.refusedOr (signature.domainRefs.findSome? (engine.refusal? versions))
        (signature.mapRefs (engine.renamed versions)) := by
  obtain ⟨params, returns⟩ := signature
  rw [downgradeSignature, downgradeParams_eq, Signature.domainRefs, List.findSome?_append,
    Signature.mapRefs]
  cases (params.flatMap fun param => param.type.domainRefs).findSome?
      (engine.refusal? versions) with
  | some e => rfl
  | none =>
      cases returns with
      | none => rfl
      | some type =>
          change (engine.downgradeType versions type).map _ = _
          rw [downgradeType_eq, Outcome.map_refusedOr]
          rfl

theorem downgradeSignature_eq_ok_iff {signature signature' : Signature} :
    engine.downgradeSignature versions signature = .ok signature' ↔
      (∀ ref ∈ signature.domainRefs, engine.refusal? versions ref = none) ∧
        signature.mapRefs (engine.renamed versions) = signature' := by
  rw [downgradeSignature_eq, Outcome.refusedOr_eq_ok_iff, List.findSome?_eq_none_iff]

/-- Made for one protocol first, a signature is made for another one as it would have been
without that. -/
theorem downgradeSignature_mapRefs_renamed (signature : Signature) :
    (engine.downgradeSignature later
        (signature.mapRefs (engine.renamed versions))).mapError MigrationError.forgetSource =
      (engine.downgradeSignature later signature).mapError MigrationError.forgetSource := by
  have hrefusal : (Option.map MigrationError.forgetSource ∘ engine.refusal? later) ∘
      engine.renamed versions = Option.map MigrationError.forgetSource ∘ engine.refusal? later :=
    funext fun _ => refusal?_renamed
  have hrenamed : (fun ref => engine.renamed later (engine.renamed versions ref)) =
      engine.renamed later := funext fun _ => renamed_renamed
  rw [downgradeSignature_eq, downgradeSignature_eq, Outcome.mapError_refusedOr,
    Outcome.mapError_refusedOr, Signature.domainRefs_mapRefs, Signature.mapRefs_mapRefs,
    List.map_findSome?, List.map_findSome?, List.findSome?_map, hrefusal, hrenamed]

/-- A signature can be made for a protocol just if all registered types in it can be
named for it.  What is made differs from it in the versions of these types only, which
are those for the protocol.  When it is made for another protocol in turn, that comes to
the same as without the first, but for the version from which there is said to be no way. -/
theorem downgradeSignature_absorbs (engine : MigrationEngine) (versions : ObjectVersions)
    (signature : Signature) :
    ((∃ signature', engine.downgradeSignature versions signature = .ok signature') ↔
      ∀ ref ∈ signature.domainRefs, engine.Reaches versions ref) ∧
    ∀ signature', engine.downgradeSignature versions signature = .ok signature' →
      signature.Reversioned (engine.NamedFor versions) signature' ∧
      ∀ later, (engine.downgradeSignature later signature').mapError MigrationError.forgetSource =
        (engine.downgradeSignature later signature).mapError MigrationError.forgetSource := by
  constructor
  · simp only [downgradeSignature_eq_ok_iff, refusal?_eq_none_iff, exists_and_left,
      exists_eq', and_true]
  · intro signature' hsignature
    obtain ⟨hrefs, rfl⟩ := downgradeSignature_eq_ok_iff.mp hsignature
    constructor
    · apply Signature.reversioned_mapRefs name_renamed
      intro ref hmem
      exact namedFor_iff.mpr (downgradeRef_of_refusal?_eq_none (hrefs ref hmem))
    · intro later
      exact downgradeSignature_mapRefs_renamed signature

/-- A workbench takes a stock of widgets and a spare one, and makes widgets. -/
def workbench (stock spare made : UInt32) : Signature where
  params := [.positional "stock" (furnitureType stock 1),
    (Param.keyword "spare" (.optional (.domain ⟨"Widget", spare⟩))).withDefault]
  returns := some (.list (.domain ⟨"Widget", made⟩))

/-- A protocol that knows widgets from before the first version only. -/
def ancientVersions : ObjectVersions := DataProtocol.addVersion .empty "Widget" 0

/-- For a protocol that knows widgets the workbench has all of them in one version.  For
one that knows none of the registered versions it cannot be made, in whatever versions it
has them. -/
theorem downgradeSignature_absorbs_workbench :
    (∀ ref ∈ (workbench 7 1 9).domainRefs, widgetEngine.Reaches widgetVersions ref) ∧
      (workbench 7 1 9).Reversioned (widgetEngine.NamedFor widgetVersions) (workbench 3 3 3) ∧
      (widgetEngine.downgradeSignature ancientVersions (workbench 3 3 3)).mapError
          MigrationError.forgetSource =
        (widgetEngine.downgradeSignature ancientVersions (workbench 7 1 9)).mapError
          MigrationError.forgetSource ∧
      widgetEngine.downgradeSignature ancientVersions (workbench 7 1 9) =
        .error (.noConversionPath "Widget" 7 0) := by
  have hmade : widgetEngine.downgradeSignature widgetVersions (workbench 7 1 9) =
      .ok (workbench 3 3 3) := rfl
  obtain ⟨hreaches, hoften⟩ :=
    downgradeSignature_absorbs widgetEngine widgetVersions (workbench 7 1 9)
  obtain ⟨hreversioned, hlater⟩ := hoften _ hmade
  exact ⟨hreaches.mp ⟨_, hmade⟩, hreversioned, hlater ancientVersions, rfl⟩

end MigrationEngine

end RemoteCall
