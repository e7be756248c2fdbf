import RemoteCall.Proofs.Migration.Downgrade

/-!
# What a protocol understands of what it gets

A protocol lists versions, the registry has versions, and the two need not be the same.
What is made for a protocol is of the greatest registered version that is at most the
greatest listed one.  If the registry lacks that one, it is the next registered version
below that is taken, whether the protocol lists it or not.  All that is made for the
protocol is understood just if, for every registered type, the version taken is listed.
-/

namespace RemoteCall

/-! ## Versions taken and versions understood -/

namespace History

variable {history : History} {listed : Set UInt32} {version : UInt32}

/-- Of the registered versions that are understood, this is the greatest. -/
def Understands (history : History) (listed : Set UInt32) (version : UInt32) : Prop :=
  IsGreatest (history.registered ∩ listed) version

/-- The version taken is as it should be just if it is understood at all: what is
registered and understood above it would have been taken in its place. -/
theorem Chooses.understands_iff (hchooses : history.Chooses listed version) :
    history.Understands listed version ↔ version ∈ listed := by
  obtain ⟨newest, hnewest, hversion⟩ := hchooses
  constructor
  · intro hunderstands
    exact hunderstands.1.2
  · intro hlisted
    apply And.intro ⟨hversion.1.1, hlisted⟩
    intro other hother
    exact hversion.2 ⟨hother.1, hnewest.2 hother.2⟩

end History

namespace MigrationEngine

variable {engine : MigrationEngine} {versions : ObjectVersions}

/-! ## All that is made for a protocol -/

/-- What holds of every version in which a registered type is named in a downgraded
signature. -/
def NamesTypes (engine : MigrationEngine) (versions : ObjectVersions)
    (P : History → Set UInt32 → UInt32 → Prop) : Prop :=
  ∀ signature signature', engine.downgradeSignature versions signature = .ok signature' →
    ∀ ref ∈ signature'.domainRefs, ∀ history,
      engine.registry.history? ref.name = some history →
        P history (versions.listed ref.name) ref.version

/-- What holds of every version of which an object of a registered type is in a value
that was migrated on its way out. -/
def SendsObjects (engine : MigrationEngine) (protocol : ProtocolVersion)
    (versions : ObjectVersions) (P : History → Set UInt32 → UInt32 → Prop) : Prop :=
  ∀ value value', engine.migrateValue .downgrade protocol value = .ok value' →
    ∀ object ∈ value'.objects, ∀ history,
      engine.registry.history? object.name = some history →
        P history (versions.listed object.name) object.version

/-- For every registered type the version that is taken is listed. -/
def Agrees (engine : MigrationEngine) (versions : ObjectVersions) : Prop :=
  ∀ name history version, engine.registry.history? name = some history →
    history.Chooses (versions.listed name) version → version ∈ versions.listed name

/-- It is enough that no version of a registered type is listed that is not registered. -/
theorem agrees_of_subset
    (hsubset : ∀ name history, engine.registry.history? name = some history →
      versions.listed name ⊆ history.registered) : engine.Agrees versions := by
  intro name history version hhistory hchooses
  obtain ⟨newest, hnewest, hversion⟩ := hchooses
  have hregistered : newest ∈ history.upTo newest :=
    ⟨hsubset name history hhistory hnewest.1, UInt32.le_refl newest⟩
  have hsame : version = newest :=
    UInt32.le_antisymm hversion.1.2 (hversion.2 hregistered)
  rw [hsame]
  exact hnewest.1

theorem namesTypes_chooses (engine : MigrationEngine) (versions : ObjectVersions) :
    engine.NamesTypes versions History.Chooses := by
  intro signature signature' hsignature ref' hmem history hhistory
  obtain ⟨hrefs, rfl⟩ := downgradeSignature_eq_ok_iff.mp hsignature
  rw [Signature.domainRefs_mapRefs] at hmem
  obtain ⟨ref, href, rfl⟩ := List.mem_map.mp hmem
  rw [name_renamed] at hhistory ⊢
  exact ((downgradeRef_eq_ok_iff hhistory).mp (downgradeRef_of_refusal?_eq_none
    (hrefs ref href))).2

section

variable {protocol : ProtocolVersion} (hversions : engine.objectVersions protocol = .ok versions)

include hversions

theorem target_downgrade : engine.target .downgrade protocol = .ok (.versions versions) := by
  rw [target, hversions, Except.map]

theorem sendsObjects_chooses : engine.SendsObjects protocol versions History.Chooses := by
  intro value value' hmigrate object hmem history hhistory
  obtain ⟨target, htarget, hwalk⟩ := migrateValue_eq_ok_iff.mp hmigrate
  cases (target_downgrade hversions).symm.trans htarget
  exact (atGoal_versions_iff hhistory).mp (allAtGoal_of_walk hwalk object hmem)

/-- An object of the version taken is sent as it is. -/
theorem migrateValue_of_chooses {history : History} {name : String} {version : UInt32}
    (hhistory : engine.registry.history? name = some history)
    (hchooses : history.Chooses (versions.listed name) version) :
    engine.migrateValue .downgrade protocol (.object ⟨name, version, []⟩) =
      .ok (.object ⟨name, version, []⟩) := by
  have hself : engine.AtGoal (.versions versions) ⟨name, version, []⟩ :=
    (atGoal_versions_iff hhistory).mpr hchooses
  have hall : engine.AllAtGoal (.versions versions) (.object ⟨name, version, []⟩) :=
    allAtGoal_object_iff.mpr ⟨hself, List.forall_mem_nil _⟩
  apply migrateValue_eq_ok_iff.mpr
  exact ⟨.versions versions, target_downgrade hversions,
    walk_of_allAtGoal hall (Nat.le_add_right _ _)⟩

theorem sendsObjects_understands_iff :
    engine.SendsObjects protocol versions History.Understands ↔ engine.Agrees versions := by
  constructor
  · intro hunderstands name history version hhistory hchooses
    have hsent := hunderstands _ _ (migrateValue_of_chooses hversions hhistory hchooses)
      ⟨name, version, []⟩ List.mem_cons_self history hhistory
    exact hchooses.understands_iff.mp hsent
  · intro hagrees value value' hmigrate object hmem history hhistory
    have hchooses := sendsObjects_chooses hversions value value' hmigrate object hmem history
      hhistory
    exact hchooses.understands_iff.mpr (hagrees object.name history _ hhistory hchooses)

end

/-- A signature that names a type in the version taken stays as it is. -/
theorem downgradeSignature_of_chooses {history : History} {name : String} {version : UInt32}
    (hhistory : engine.registry.history? name = some history)
    (hchooses : history.Chooses (versions.listed name) version) :
    engine.downgradeSignature versions ⟨[], some (.domain ⟨name, version⟩)⟩ =
      .ok ⟨[], some (.domain ⟨name, version⟩)⟩ := by
  have href : engine.downgradeRef versions ⟨name, version⟩ = .ok ⟨name, version⟩ :=
    (downgradeRef_eq_ok_iff hhistory).mpr ⟨rfl, hchooses⟩
  simp only [downgradeSignature, downgradeParams, downgradeType, href, Except.map]

theorem namesTypes_understands_iff :
    engine.NamesTypes versions History.Understands ↔ engine.Agrees versions := by
  constructor
  · intro hunderstands name history version hhistory hchooses
    have hnamed := hunderstands _ _ (downgradeSignature_of_chooses hhistory hchooses)
      ⟨name, version⟩ List.mem_cons_self history hhistory
    exact hchooses.understands_iff.mp hnamed
  · intro hagrees signature signature' hsignature ref hmem history hhistory
    have hchooses := engine.namesTypes_chooses versions signature signature' hsignature ref
      hmem history hhistory
    exact hchooses.understands_iff.mpr (hagrees ref.name history _ hhistory hchooses)

/-- Signatures and values that were downgraded for a protocol have registered types in
the greatest registered versions that are at most the greatest ones it lists.  In all of
them the protocol understands those, and no greater ones that are registered, just if
it lists for every registered type the version that is taken. -/
theorem understands_iff_agrees {n : UInt32}
    (hlists : engine.data.protocols.get? n = some versions) :
    engine.NamesTypes versions History.Chooses ∧
      engine.SendsObjects (.stable n) versions History.Chooses ∧
      (engine.NamesTypes versions History.Understands ↔ engine.Agrees versions) ∧
      (engine.SendsObjects (.stable n) versions History.Understands ↔
        engine.Agrees versions) := by
  have hversions : engine.objectVersions (.stable n) = .ok versions := by
    rw [objectVersions, DataProtocol.objectVersions, hlists]
  exact ⟨engine.namesTypes_chooses versions, sendsObjects_chooses hversions,
    namesTypes_understands_iff, sendsObjects_understands_iff hversions⟩

/-- Of the three versions of widgets the protocol lists two, and no others. -/
theorem agrees_widgetVersions : widgetEngine.Agrees widgetVersions := by
  apply agrees_of_subset
  intro name history hhistory version hlisted
  change widgets.types.get? name = some history at hhistory
  rw [widgets, SortedMap.get?_insert_eq_ite] at hhistory
  split at hhistory
  · rename_i hname
    cases hname
    cases hhistory
    have hlists : widgetVersions.get? "Widget" = some (.ofKeys [1, 3]) := rfl
    have hknown : version ∈ [1, 3] := (ObjectVersions.mem_listed_of_get? hlists).mp hlisted
    apply History.mem_registered_iff.mpr
    rcases List.mem_pair.mp hknown with rfl | rfl
    · decide
    · decide
  · cases hhistory

theorem understands_iff_agrees_widgets :
    widgetEngine.data.protocols.get? 2 = some widgetVersions ∧
      widgetEngine.NamesTypes widgetVersions History.Understands ∧
      widgetEngine.SendsObjects (.stable 2) widgetVersions History.Understands := by
  have hlists : widgetEngine.data.protocols.get? 2 = some widgetVersions := rfl
  obtain ⟨-, -, htypes, hobjects⟩ := understands_iff_agrees hlists
  exact ⟨hlists, htypes.mpr agrees_widgetVersions, hobjects.mpr agrees_widgetVersions⟩

/-! ## A version that the protocol does not know -/

/-- Two versions of gadgets. -/
def gadgetHistory : History := (History.single 1 ⟨[], .none⟩).insert 2 ⟨[], .ops []⟩

/-- Gadgets, with a protocol that knows the older version and one that comes after the
newer. -/
def gadgetEngine : MigrationEngine where
  registry := ⟨SortedMap.empty.insert "Gadget" gadgetHistory⟩
  data := DataProtocol.empty.withProtocol 1 [("Gadget", 1), ("Gadget", 3)]

/-- The versions of gadgets that the protocol knows. -/
def gadgetVersions : ObjectVersions :=
  DataProtocol.addVersion (DataProtocol.addVersion .empty "Gadget" 1) "Gadget" 3

/-- A signature and a value keep their gadgets in the newer version, which the protocol
does not know.  The greatest version that it knows is the older one. -/
theorem not_listed_gadget :
    gadgetEngine.data.protocols.get? 1 = some gadgetVersions ∧
      gadgetEngine.downgradeSignature gadgetVersions ⟨[], some (.domain ⟨"Gadget", 2⟩)⟩ =
        .ok ⟨[], some (.domain ⟨"Gadget", 2⟩)⟩ ∧
      gadgetEngine.migrateValue .downgrade (.stable 1) (.object ⟨"Gadget", 2, []⟩) =
        .ok (.object ⟨"Gadget", 2, []⟩) ∧
      2 ∉ gadgetVersions.listed "Gadget" ∧
      gadgetHistory.Understands (gadgetVersions.listed "Gadget") 1 := by
  have hlists : gadgetVersions.get? "Gadget" = some (.ofKeys [1, 3]) := rfl
  have hlisted : ∀ version, version ∈ gadgetVersions.listed "Gadget" ↔ version ∈ [1, 3] :=
    fun _ => ObjectVersions.mem_listed_of_get? hlists
  have hregistered : ∀ version, version ∈ gadgetHistory.registered ↔ version ∈ [1, 2] :=
    fun _ => History.mem_registered_iff
  refine ⟨rfl, rfl, rfl, ?_, ?_, ?_⟩
  · rw [hlisted]
    decide
  · exact ⟨(hregistered 1).mpr (by decide), (hlisted 1).mpr (by decide)⟩
  · rintro version ⟨hgadget, hknown⟩
    rw [hregistered] at hgadget
    rw [hlisted] at hknown
    rcases List.mem_pair.mp hgadget with rfl | rfl
    · exact UInt32.le_refl 1
    · exact absurd hknown (by decide)

end MigrationEngine

end RemoteCall
