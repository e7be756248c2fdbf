import RemoteCall.Proofs.Migration.Acceptance
import RemoteCall.Proofs.Migration.Stepwise

/-!
# Where objects arrive

A converter may put objects of any version into the fields that it makes.  These are
walked after the object was converted, and so they arrive where all others do: in what
comes out, each object of a registered type is of the version that the target has for
its type.  An object that is there stays as it is, and so does a value of such objects.
-/

namespace RemoteCall

/-- The versions of a type that are understood. -/
def ObjectVersions.listed (versions : ObjectVersions) (name : String) : Set UInt32 :=
  {version | ∃ known, versions.get? name = some known ∧ known.contains version}

theorem ObjectVersions.mem_listed_iff {versions : ObjectVersions} {name : String}
    {version : UInt32} :
    version ∈ versions.listed name ↔
      ∃ known, versions.get? name = some known ∧ version ∈ known.keys := by
  simp only [← SortedMap.contains_iff_mem_keys]
  rfl

theorem ObjectVersions.mem_listed_of_get? {versions : ObjectVersions} {name : String}
    {known : SortedSet UInt32} (hknown : versions.get? name = some known) {version : UInt32} :
    version ∈ versions.listed name ↔ version ∈ known.keys := by
  rw [mem_listed_iff, hknown]
  simp only [Option.some.injEq, exists_eq_left']

theorem ObjectVersions.isGreatest_listed_iff {versions : ObjectVersions} {name : String}
    {newest : UInt32} :
    IsGreatest (versions.listed name) newest ↔ versions.newest? name = some newest := by
  simp only [newest?, Option.bind_eq_some_iff, SortedMap.lastKey?_eq_some_iff,
    Std.isLE_compare]
  constructor
  · rintro ⟨hlisted, hbound⟩
    obtain ⟨known, hknown, hkey⟩ := mem_listed_iff.mp hlisted
    exact ⟨known, hknown, hkey, fun _ hkey' => hbound (mem_listed_iff.mpr ⟨known, hknown, hkey'⟩)⟩
  · rintro ⟨known, hknown, hkey, hbound⟩
    apply And.intro (mem_listed_iff.mpr ⟨known, hknown, hkey⟩)
    intro version hlisted
    obtain ⟨_, hknown', hkey'⟩ := mem_listed_iff.mp hlisted
    cases hknown.symm.trans hknown'
    exact hbound version hkey'

/-- The registered versions of a type. -/
def History.registered (history : History) : Set UInt32 :=
  {version | history.versions.contains version}

theorem History.mem_registered_iff {history : History} {version : UInt32} :
    version ∈ history.registered ↔ version ∈ history.versions.keys :=
  SortedMap.contains_iff_mem_keys

theorem History.isGreatest_registered (history : History) :
    IsGreatest history.registered history.latest :=
  ⟨history.contains_latest, fun _ => le_latest⟩

/-- Of the registered versions that are at most the greatest one that is understood,
this is the greatest. -/
def History.Chooses (history : History) (listed : Set UInt32) (version : UInt32) : Prop :=
  ∃ newest, IsGreatest listed newest ∧ IsGreatest (history.upTo newest) version

namespace MigrationEngine

variable {engine : MigrationEngine} {target : Target} {object object' : ObjectValue}
  {fuel : Nat} {value value' : Value}

/-! ## Objects -/

/-- Of a registered type, the object is of the version that the target has for it. -/
def AtGoal (engine : MigrationEngine) (target : Target) (object : ObjectValue) : Prop :=
  ∀ history, engine.registry.history? object.name = some history →
    ∃ version, goal target object.name history = .ok version ∧
      history.atOrBelow? version = some object.version

theorem atGoal_of_migrateObject (hobject : engine.migrateObject target object = .ok object') :
    engine.AtGoal target object' := by
  intro history hhistory
  rw [name_of_migrateObject hobject] at hhistory
  simp only [migrateObject, hhistory] at hobject
  split at hobject
  · cases hobject
  · rename_i version hgoal
    obtain ⟨hname, hversion⟩ := History.name_and_version_of_migrate hobject
    exact ⟨version, hname ▸ hgoal, hversion⟩

/-- An object stays as it is just if it has arrived. -/
theorem migrateObject_eq_self_iff :
    engine.migrateObject target object = .ok object ↔ engine.AtGoal target object := by
  apply Iff.intro atGoal_of_migrateObject
  intro harrived
  rw [migrateObject]
  split
  · rfl
  · rename_i history hhistory
    obtain ⟨version, hgoal, hversion⟩ := harrived history hhistory
    rw [hgoal]
    exact History.migrate_self hversion

section

variable {history : History} (hhistory : engine.registry.history? object.name = some history)

include hhistory

theorem atGoal_latest_iff :
    engine.AtGoal .latest object ↔ IsGreatest history.registered object.version := by
  have hlatest : engine.AtGoal .latest object ↔ history.latest = object.version := by
    simp only [AtGoal, hhistory, goal, Option.some.injEq, Except.ok.injEq, forall_eq',
      exists_eq_left', History.atOrBelow?_self history.contains_latest]
  rw [hlatest]
  constructor
  · intro hversion
    rw [← hversion]
    exact history.isGreatest_registered
  · intro hgreatest
    exact UInt32.le_antisymm (hgreatest.2 history.isGreatest_registered.1)
      (history.isGreatest_registered.2 hgreatest.1)

theorem atGoal_versions_iff {versions : ObjectVersions} :
    engine.AtGoal (.versions versions) object ↔
      history.Chooses (versions.listed object.name) object.version := by
  simp only [AtGoal, hhistory, goal, Option.some.injEq, forall_eq', History.Chooses,
    ObjectVersions.isGreatest_listed_iff, History.isGreatest_upTo_iff]
  cases versions.newest? object.name <;> simp

end

/-! ## Values -/

/-- Every object in the value, at every depth, has arrived. -/
def AllAtGoal (engine : MigrationEngine) (target : Target) (value : Value) : Prop :=
  ∀ object ∈ value.objects, engine.AtGoal target object

theorem allAtGoal_list_iff {items : List Value} :
    engine.AllAtGoal target (.list items) ↔ ∀ item ∈ items, engine.AllAtGoal target item := by
  simp only [AllAtGoal, Value.mem_objects_list]
  exact ⟨fun hall item hmem object hobject => hall object ⟨item, hmem, hobject⟩,
    fun hall object ⟨item, hmem, hobject⟩ => hall item hmem object hobject⟩

theorem allAtGoal_map_iff {entries : List (String × Value)} :
    engine.AllAtGoal target (.map entries) ↔
      ∀ entry ∈ entries, engine.AllAtGoal target entry.2 := by
  simp only [AllAtGoal, Value.mem_objects_map]
  exact ⟨fun hall entry hmem object hobject => hall object ⟨entry, hmem, hobject⟩,
    fun hall object ⟨entry, hmem, hobject⟩ => hall entry hmem object hobject⟩

theorem allAtGoal_object_iff :
    engine.AllAtGoal target (.object object) ↔
      engine.AtGoal target object ∧
        ∀ entry ∈ object.fields, engine.AllAtGoal target entry.2 := by
  simp only [AllAtGoal, Value.mem_objects_object]
  constructor
  · intro hall
    exact ⟨hall object (.inl rfl),
      fun entry hmem inner hinner => hall inner (.inr ⟨entry, hmem, hinner⟩)⟩
  · rintro ⟨hself, hfields⟩ inner (rfl | ⟨entry, hmem, hinner⟩)
    · exact hself
    · exact hfields entry hmem inner hinner

theorem allAtGoal_of_depth_eq_zero (hdepth : value.depth = 0) :
    engine.AllAtGoal target value := by
  cases value with
  | list items => simp [Value.depth] at hdepth
  | map entries => simp [Value.depth] at hdepth
  | object object => simp [Value.depth] at hdepth
  | _ => exact fun _ hmem => absurd hmem List.not_mem_nil

/-- All that comes out of a walk has arrived, what converters made included. -/
theorem allAtGoal_of_walk (hwalk : engine.walk target fuel value = .ok value') :
    engine.AllAtGoal target value' := by
  -- On the room: the fields of an object are walked after it was converted, so what
  -- holds of the walk one level down holds of them, wherever they came from.
  induction fuel generalizing value value' with
  | zero =>
      have hdepth := walk_zero_eq_ok hwalk
      rw [walk_of_depth_eq_zero hdepth] at hwalk
      cases hwalk
      exact allAtGoal_of_depth_eq_zero hdepth
  | succ fuel ih =>
      have hentries : ∀ {entries entries' : List (String × Value)},
          engine.WalkedEntries target fuel entries entries' →
            ∀ entry' ∈ entries', engine.AllAtGoal target entry'.2 := by
        intro entries entries' hwalked entry' hmem
        obtain ⟨entry, -, -, hentry⟩ := exists_left_of_mem hwalked hmem
        exact ih hentry
      rcases value.shape with ⟨items, rfl⟩ | ⟨entries, rfl⟩ | ⟨object, rfl⟩ | hdepth
      · obtain ⟨_, items', ⟨⟩, rfl, hitems⟩ := walk_list_eq_ok_iff.mp hwalk
        apply allAtGoal_list_iff.mpr
        intro item' hmem
        obtain ⟨item, -, hitem⟩ := exists_left_of_mem hitems hmem
        exact ih hitem
      · obtain ⟨_, entries', ⟨⟩, rfl, hwalked⟩ := walk_map_eq_ok_iff.mp hwalk
        exact allAtGoal_map_iff.mpr (hentries hwalked)
      · obtain ⟨_, object', fields', ⟨⟩, hobject, rfl, hwalked⟩ :=
          walk_object_eq_ok_iff.mp hwalk
        have hself : engine.AtGoal target object' := atGoal_of_migrateObject hobject
        exact allAtGoal_object_iff.mpr ⟨hself, hentries hwalked⟩
      · rw [walk_of_depth_eq_zero hdepth] at hwalk
        cases hwalk
        exact allAtGoal_of_depth_eq_zero hdepth

/-- Where all has arrived the walk changes nothing. -/
theorem walk_of_allAtGoal (harrived : engine.AllAtGoal target value)
    (hroom : value.depth ≤ fuel) : engine.walk target fuel value = .ok value := by
  induction fuel generalizing value with
  | zero => exact walk_of_depth_eq_zero (Nat.le_zero.mp hroom)
  | succ fuel ih =>
      have hentries : ∀ {entries : List (String × Value)},
          (∀ entry ∈ entries, engine.AllAtGoal target entry.2) →
            (∀ entry ∈ entries, entry.2.depth ≤ fuel) →
              engine.WalkedEntries target fuel entries entries := by
        intro entries hall hdepths
        apply List.forall₂_same.mpr
        intro entry hmem
        exact ⟨rfl, ih (hall entry hmem) (hdepths entry hmem)⟩
      rcases value.shape with ⟨items, rfl⟩ | ⟨entries, rfl⟩ | ⟨object, rfl⟩ | hdepth
      · rw [allAtGoal_list_iff] at harrived
        rw [Value.depth_list_le_iff] at hroom
        apply walk_list_eq_ok_iff.mpr
        exact ⟨fuel, items, rfl, rfl, List.forall₂_same.mpr fun item hmem =>
          ih (harrived item hmem) (hroom item hmem)⟩
      · rw [allAtGoal_map_iff] at harrived
        rw [Value.depth_map_le_iff] at hroom
        apply walk_map_eq_ok_iff.mpr
        exact ⟨fuel, entries, rfl, rfl, hentries harrived hroom⟩
      · obtain ⟨hself, hfields⟩ := allAtGoal_object_iff.mp harrived
        rw [Value.depth_object_le_iff] at hroom
        apply walk_object_eq_ok_iff.mpr
        exact ⟨fuel, object, object.fields, rfl, migrateObject_eq_self_iff.mpr hself, rfl,
          hentries hfields hroom⟩
      · exact walk_of_depth_eq_zero hdepth

/-! ## On the way out and in -/

theorem migrateValue_eq_ok_iff {direction : Direction} {protocol : ProtocolVersion} :
    engine.migrateValue direction protocol value = .ok value' ↔
      ∃ target, engine.target direction protocol = .ok target ∧
        engine.migrateTo target value = .ok value' := by
  rw [migrateValue]
  cases engine.target direction protocol <;> simp

/-- Of a registered type, the object is of the version that it is brought to.  On its
way out that is the greatest registered one that is at most the greatest one that the
protocol lists, on its way in the greatest registered one. -/
def Arrived (engine : MigrationEngine) (direction : Direction) (protocol : ProtocolVersion)
    (object : ObjectValue) : Prop :=
  ∀ history, engine.registry.history? object.name = some history →
    match direction with
    | .upgrade => IsGreatest history.registered object.version
    | .downgrade => ∃ versions, engine.objectVersions protocol = .ok versions ∧
        history.Chooses (versions.listed object.name) object.version

theorem arrived_of_atGoal {direction : Direction} {protocol : ProtocolVersion}
    (htarget : engine.target direction protocol = .ok target)
    (hgoal : engine.AtGoal target object) : engine.Arrived direction protocol object := by
  intro history hhistory
  cases direction with
  | upgrade =>
      cases htarget
      exact (atGoal_latest_iff hhistory).mp hgoal
  | downgrade =>
      obtain ⟨versions, hversions, rfl⟩ := Outcome.map_eq_ok_iff.mp htarget
      exact ⟨versions, hversions, (atGoal_versions_iff hhistory).mp hgoal⟩

/-- In what comes out of a migration all objects have arrived, at any depth and whatever
the converters put there, and migrating it again changes nothing. -/
theorem arrived_of_migrateValue {direction : Direction} {protocol : ProtocolVersion}
    (hmigrate : engine.migrateValue direction protocol value = .ok value') :
    (∀ object ∈ value'.objects, engine.Arrived direction protocol object) ∧
      engine.migrateValue direction protocol value' = .ok value' := by
  obtain ⟨target, htarget, hwalk⟩ := migrateValue_eq_ok_iff.mp hmigrate
  have hall : engine.AllAtGoal target value' := allAtGoal_of_walk hwalk
  constructor
  · intro object hmem
    exact arrived_of_atGoal htarget (hall object hmem)
  · apply migrateValue_eq_ok_iff.mpr
    exact ⟨target, htarget, walk_of_allAtGoal hall (Nat.le_add_right _ _)⟩

/-- The newest widgets get a widget of the oldest version on their way out, which is
brought to the version of the others. -/
theorem arrived_of_migrateValue_furniture :
    widgetEngine.migrateValue .downgrade (.stable 2) furniture = .ok knownFurniture ∧
      (∀ object ∈ knownFurniture.objects,
        widgetEngine.Arrived .downgrade (.stable 2) object) ∧
      widgetEngine.migrateValue .downgrade (.stable 2) knownFurniture = .ok knownFurniture :=
  ⟨migrateValue_furniture, arrived_of_migrateValue migrateValue_furniture⟩

end MigrationEngine

end RemoteCall
