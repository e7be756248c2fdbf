import RemoteCall.Proofs.Migration.Lossless

/-!
# Migrated values and migrated types

The types of a signature are downgraded on one side and the values of a call on
the other.  Both sides choose the version of an object by its name alone, and so
they agree wherever the object stands.
-/

namespace RemoteCall

namespace TypeExpr

mutual

/-- Whether a value is of a type, by version as well as by name: an object of a
registered type must be of the very version that the domain type names. -/
def acceptsAt (registry : TypeRegistry) : TypeExpr → Value → Bool
  | .any, _ => true
  | .primitive kind, value => kind.accepts value
  | .optional inner, value => value.isNone || acceptsAt registry inner value
  | .union alternatives, value => anyAcceptsAt registry alternatives value
  | .list inner, value =>
    match value with
    | .list items => items.all fun item => acceptsAt registry inner item
    | _ => false
  | .map inner, value =>
    match value with
    | .map entries => entries.all fun entry => acceptsAt registry inner entry.2
    | _ => false
  | .domain ref, value =>
    match value with
    | .object object =>
      object.name == ref.name && (!registry.isVersioned ref.name || object.version == ref.version)
    | .remote remote => remote.typeName == ref.name
    | _ => false

/-- `acceptsAt` for one of several types. -/
def anyAcceptsAt (registry : TypeRegistry) : List TypeExpr → Value → Bool
  | [], _ => false
  | type :: rest, value => acceptsAt registry type value || anyAcceptsAt registry rest value

end

section

variable {registry : TypeRegistry} {inner : TypeExpr} {value : Value} {ref : DomainRef}

theorem accepts_list_iff :
    (TypeExpr.list inner).accepts value ↔
      ∃ items, value = .list items ∧ ∀ item ∈ items, inner.accepts item := by
  cases value <;> simp [accepts]

theorem accepts_map_iff :
    (TypeExpr.map inner).accepts value ↔
      ∃ entries, value = .map entries ∧ ∀ entry ∈ entries, inner.accepts entry.2 := by
  cases value <;> simp [accepts]

theorem accepts_domain_iff :
    (TypeExpr.domain ref).accepts value ↔
      (∃ object, value = .object object ∧ object.name = ref.name) ∨
        ∃ remote, value = .remote remote ∧ remote.typeName = ref.name := by
  cases value <;> simp [accepts]

end

mutual

/-- Where the versions agree, so do the names. -/
theorem accepts_of_acceptsAt {registry : TypeRegistry} {type : TypeExpr} {value : Value}
    (haccepts : type.acceptsAt registry value) : type.accepts value := by
  cases type with
  | any => rfl
  | primitive kind => exact haccepts
  | optional inner =>
      rw [acceptsAt, Bool.or_eq_true] at haccepts
      rw [accepts, Bool.or_eq_true]
      exact haccepts.imp_right accepts_of_acceptsAt
  | union alternatives => exact anyAccepts_of_anyAcceptsAt haccepts
  | list inner =>
      cases value with
      | list items =>
          rw [acceptsAt, List.all_eq_true] at haccepts
          rw [accepts, List.all_eq_true]
          exact fun item hmem => accepts_of_acceptsAt (haccepts item hmem)
      | _ => exact haccepts
  | map inner =>
      cases value with
      | map entries =>
          rw [acceptsAt, List.all_eq_true] at haccepts
          rw [accepts, List.all_eq_true]
          exact fun entry hmem => accepts_of_acceptsAt (haccepts entry hmem)
      | _ => exact haccepts
  | domain ref =>
      cases value with
      | object object =>
          rw [acceptsAt, Bool.and_eq_true] at haccepts
          exact haccepts.1
      | _ => exact haccepts

theorem anyAccepts_of_anyAcceptsAt {registry : TypeRegistry} {types : List TypeExpr}
    {value : Value} (haccepts : anyAcceptsAt registry types value) :
    anyAccepts types value := by
  cases types with
  | nil => exact haccepts
  | cons type rest =>
      rw [anyAcceptsAt, Bool.or_eq_true] at haccepts
      rw [anyAccepts, Bool.or_eq_true]
      exact haccepts.imp accepts_of_acceptsAt anyAccepts_of_anyAcceptsAt

end

theorem depth_eq_zero_of_accepts {kind : Primitive} {value : Value}
    (haccepts : kind.accepts value) : value.depth = 0 := by
  cases value with
  | list items => cases kind <;> cases haccepts
  | map entries => cases kind <;> cases haccepts
  | object object => cases kind <;> cases haccepts
  | _ => rfl

end TypeExpr

namespace MigrationEngine

open Entries (SameKey)
open TypeExpr (acceptsAt anyAcceptsAt anyAccepts)

variable {engine : MigrationEngine} {versions : ObjectVersions}

/-! ## One name, one version -/

theorem name_of_downgradeRef {ref ref' : DomainRef}
    (href : engine.downgradeRef versions ref = .ok ref') : ref'.name = ref.name := by
  rw [downgradeRef] at href
  split at href
  · cases href
    rfl
  · split at href
    · cases href
    · split at href
      · cases href
      · cases href
        rfl

theorem name_of_migrateObject {target : Target} {object object' : ObjectValue}
    (hobject : engine.migrateObject target object = .ok object') :
    object'.name = object.name := by
  rw [migrateObject] at hobject
  split at hobject
  · cases hobject
    rfl
  · split at hobject
    · cases hobject
    · exact (History.name_and_version_of_migrate hobject).1

/-- A domain type and an object of its name are brought to one version. -/
theorem version_eq_of_downgradeRef {ref ref' : DomainRef} {object object' : ObjectValue}
    (href : engine.downgradeRef versions ref = .ok ref')
    (hobject : engine.migrateObject (.versions versions) object = .ok object')
    (hname : object.name = ref.name) (hregistered : engine.registry.isVersioned ref.name) :
    object'.version = ref'.version := by
  obtain ⟨history, hhistory⟩ := Option.isSome_iff_exists.mp hregistered
  change engine.registry.history? ref.name = some history at hhistory
  simp only [downgradeRef, hhistory] at href
  simp only [migrateObject, hname, hhistory, goal] at hobject
  cases hnewest : versions.newest? ref.name with
  | none => simp [hnewest] at href
  | some newest =>
      simp only [hnewest] at href hobject
      obtain ⟨-, hversion⟩ := History.name_and_version_of_migrate hobject
      rw [hversion] at href
      cases href
      rfl

/-! ## Every type -/

theorem downgradeTypes_cons_eq_ok_iff {type : TypeExpr} {rest types' : List TypeExpr} :
    engine.downgradeTypes versions (type :: rest) = .ok types' ↔
      ∃ type' rest', engine.downgradeType versions type = .ok type' ∧
        engine.downgradeTypes versions rest = .ok rest' ∧ types' = type' :: rest' := by
  rw [downgradeTypes]
  cases engine.downgradeType versions type with
  | error e => simp
  | ok type' =>
      cases engine.downgradeTypes versions rest with
      | error e => simp
      | ok rest' => simp [eq_comm]

mutual

theorem acceptsAt_of_walk {type type' : TypeExpr} {fuel : Nat} {value value' : Value}
    (htype : engine.downgradeType versions type = .ok type') (haccepts : type.accepts value)
    (hwalk : engine.walk (.versions versions) fuel value = .ok value') :
    type'.acceptsAt engine.registry value' := by
  cases type with
  | any =>
      cases htype
      rfl
  | primitive kind =>
      cases htype
      rw [walk_of_depth_eq_zero (TypeExpr.depth_eq_zero_of_accepts haccepts)] at hwalk
      cases hwalk
      exact haccepts
  | optional inner =>
      rw [downgradeType, Outcome.map_eq_ok_iff] at htype
      obtain ⟨inner', hinner, rfl⟩ := htype
      rw [TypeExpr.accepts, Bool.or_eq_true] at haccepts
      rw [acceptsAt, Bool.or_eq_true]
      rcases haccepts with hnone | hvalue
      · cases value with
        | none =>
            rw [walk_of_depth_eq_zero rfl] at hwalk
            cases hwalk
            exact .inl rfl
        | _ => cases hnone
      · exact .inr (acceptsAt_of_walk hinner hvalue hwalk)
  | union alternatives =>
      rw [downgradeType, Outcome.map_eq_ok_iff] at htype
      obtain ⟨alternatives', halternatives, rfl⟩ := htype
      exact anyAcceptsAt_of_walk halternatives haccepts hwalk
  | list inner =>
      rw [downgradeType, Outcome.map_eq_ok_iff] at htype
      obtain ⟨inner', hinner, rfl⟩ := htype
      obtain ⟨items, rfl, hitems⟩ := TypeExpr.accepts_list_iff.mp haccepts
      obtain ⟨below, items', -, rfl, hwalked⟩ := walk_list_eq_ok_iff.mp hwalk
      rw [acceptsAt, List.all_eq_true]
      intro item' hmem'
      obtain ⟨item, hmem, hitem⟩ := exists_left_of_mem hwalked hmem'
      exact acceptsAt_of_walk hinner (hitems item hmem) hitem
  | map inner =>
      rw [downgradeType, Outcome.map_eq_ok_iff] at htype
      obtain ⟨inner', hinner, rfl⟩ := htype
      obtain ⟨entries, rfl, hentries⟩ := TypeExpr.accepts_map_iff.mp haccepts
      obtain ⟨below, entries', -, rfl, hwalked⟩ := walk_map_eq_ok_iff.mp hwalk
      rw [acceptsAt, List.all_eq_true]
      intro entry' hmem'
      obtain ⟨entry, hmem, -, hentry⟩ := exists_left_of_mem hwalked hmem'
      exact acceptsAt_of_walk hinner (hentries entry hmem) hentry
  | domain ref =>
      rw [downgradeType, Outcome.map_eq_ok_iff] at htype
      obtain ⟨ref', href, rfl⟩ := htype
      have hrefName := name_of_downgradeRef href
      rcases TypeExpr.accepts_domain_iff.mp haccepts with
        ⟨object, rfl, hname⟩ | ⟨remote, rfl, hname⟩
      · obtain ⟨below, object', fields', -, hobject, rfl, -⟩ := walk_object_eq_ok_iff.mp hwalk
        rw [acceptsAt, Bool.and_eq_true, Bool.or_eq_true, beq_iff_eq, beq_iff_eq,
          Bool.not_eq_true', hrefName]
        refine ⟨(name_of_migrateObject hobject).trans hname, ?_⟩
        cases hregistered : engine.registry.isVersioned ref.name with
        | false => exact .inl rfl
        | true =>
            have hversion := version_eq_of_downgradeRef href hobject hname hregistered
            exact .inr hversion
      · rw [walk_of_depth_eq_zero rfl] at hwalk
        cases hwalk
        rw [acceptsAt, beq_iff_eq, hrefName]
        exact hname

theorem anyAcceptsAt_of_walk {types types' : List TypeExpr} {fuel : Nat}
    {value value' : Value} (htypes : engine.downgradeTypes versions types = .ok types')
    (haccepts : anyAccepts types value)
    (hwalk : engine.walk (.versions versions) fuel value = .ok value') :
    anyAcceptsAt engine.registry types' value' := by
  cases types with
  | nil => cases haccepts
  | cons type rest =>
      obtain ⟨type', rest', htype, hrest, rfl⟩ := downgradeTypes_cons_eq_ok_iff.mp htypes
      rw [anyAccepts, Bool.or_eq_true] at haccepts
      rw [anyAcceptsAt, Bool.or_eq_true]
      exact haccepts.imp (fun hvalue => acceptsAt_of_walk htype hvalue hwalk)
        fun hvalue => anyAcceptsAt_of_walk hrest hvalue hwalk

end

/-- A value of a type is, migrated, of the migrated type, by version as well as by
name. -/
theorem acceptsAt_of_migrateValue {protocol : ProtocolVersion} {type type' : TypeExpr}
    {value value' : Value} (hversions : engine.objectVersions protocol = .ok versions)
    (htype : engine.downgradeType versions type = .ok type') (haccepts : type.accepts value)
    (hdown : engine.migrateValue .downgrade protocol value = .ok value') :
    type'.acceptsAt engine.registry value' := by
  have hwalk : engine.migrateTo (.versions versions) value = .ok value' := by
    simpa only [migrateValue, target, hversions, Except.map] using hdown
  exact acceptsAt_of_walk htype haccepts hwalk

/-- The type of a list of shelves and of maps of widgets, of the given versions. -/
def furnitureType (widgets shelves : UInt32) : TypeExpr :=
  .list (.union [.primitive .str, .map (.optional (.domain ⟨"Widget", widgets⟩)),
    .domain ⟨"Shelf", shelves⟩])

theorem acceptsAt_of_migrateValue_furniture :
    widgetEngine.downgradeType widgetVersions (furnitureType 7 1) = .ok (furnitureType 3 1) ∧
      widgetEngine.migrateValue .downgrade (.stable 2) furniture = .ok knownFurniture ∧
      (furnitureType 3 1).acceptsAt widgetEngine.registry knownFurniture := by
  have htype : widgetEngine.downgradeType widgetVersions (furnitureType 7 1) =
      .ok (furnitureType 3 1) := rfl
  have haccepts : (furnitureType 7 1).accepts furniture := by decide
  exact ⟨htype, migrateValue_furniture,
    acceptsAt_of_migrateValue rfl htype haccepts migrateValue_furniture⟩

end MigrationEngine

end RemoteCall
