import RemoteCall.Proofs.Migration.Understanding

/-!
# Protocols that know the newest versions

On its way out a value is brought to what the protocol lists, on its way in to what is
registered.  The two are chosen apart from each other.  Where the protocol lists, for
every registered type, a version that is no older than the newest one, they come to the
same: an object is brought to the newest version either way, by the same steps and with
the same errors.  `dev` lists what is registered, so it is such a protocol.
-/

namespace RemoteCall

/-! ## What is listed -/

namespace ObjectVersions

variable {versions : ObjectVersions} {name : String} {version : UInt32}

theorem exists_newest_of_mem_listed (hlisted : version ∈ versions.listed name) :
    ∃ newest, versions.newest? name = some newest ∧ version ≤ newest := by
  obtain ⟨known, hknown, hkey⟩ := mem_listed_iff.mp hlisted
  obtain ⟨newest, hnewest⟩ :=
    Option.isSome_iff_exists.mp (SortedMap.lastKey?_isSome_of_mem hkey)
  have hfound : versions.newest? name = some newest := by
    rw [newest?, hknown, Option.bind_some, hnewest]
  exact ⟨newest, hfound, (isGreatest_listed_iff.mpr hfound).2 hlisted⟩

end ObjectVersions

/-- For `dev` all that is registered is listed. -/
theorem DataProtocol.listed_of_objectVersions_dev {data : DataProtocol}
    {registry : TypeRegistry} {versions : ObjectVersions} {name : String} {history : History}
    (hversions : data.objectVersions registry .dev = .ok versions)
    (hhistory : registry.history? name = some history) :
    versions.listed name = history.registered := by
  cases hversions
  have hknown : (registry.types.mapValues fun _ history =>
      history.versions.mapValues fun _ _ => ()).get? name =
        some (history.versions.mapValues fun _ _ => ()) := by
    rw [SortedMap.get?_mapValues]
    exact congrArg _ hhistory
  have hkeys : (history.versions.mapValues fun _ _ => ()).keys = history.versions.keys := by
    simp [SortedMap.keys, SortedMap.mapValues]
  ext version
  rw [ObjectVersions.mem_listed_of_get? hknown, History.mem_registered_iff, hkeys]

/-! ## Objects -/

namespace History

variable {history : History} {target : UInt32}

theorem atOrBelow?_of_latest_le (hle : history.latest ≤ target) :
    history.atOrBelow? target = some history.latest :=
  atOrBelow?_eq_some_iff.mpr ⟨history.contains_latest, hle, fun _ hregistered _ =>
    le_latest hregistered⟩

/-- A target from the newest version on stands for that version, also in what goes
wrong. -/
theorem migrate_of_latest_le (object : ObjectValue) (hle : history.latest ≤ target) :
    history.migrate object target = history.migrate object history.latest := by
  simp only [migrate, atOrBelow?_of_latest_le hle,
    atOrBelow?_of_latest_le (UInt32.le_refl history.latest)]

end History

namespace MigrationEngine

variable {engine : MigrationEngine} {target target' : Target} {protocol : ProtocolVersion}

/-- For every registered type a version is listed that is at least its newest one. -/
def ListsNewest (engine : MigrationEngine) (versions : ObjectVersions) : Prop :=
  ∀ name history, engine.registry.history? name = some history →
    ∃ version ∈ versions.listed name, ∀ older ∈ history.registered, older ≤ version

theorem migrateObject_of_listsNewest {versions : ObjectVersions}
    (hlists : engine.ListsNewest versions) (object : ObjectValue) :
    engine.migrateObject (.versions versions) object = engine.migrateObject .latest object := by
  rw [migrateObject, migrateObject]
  cases hhistory : engine.registry.history? object.name with
  | none => rfl
  | some history =>
      obtain ⟨version, hlisted, hbound⟩ := hlists object.name history hhistory
      obtain ⟨newest, hnewest, hle⟩ := ObjectVersions.exists_newest_of_mem_listed hlisted
      have hlatest : history.latest ≤ newest :=
        UInt32.le_trans (hbound history.latest history.isGreatest_registered.1) hle
      simp only [goal, hnewest]
      exact History.migrate_of_latest_le object hlatest

/-! ## Values -/

/-- The walk looks at its target for single objects only. -/
theorem walk_congr (hobjects : engine.migrateObject target = engine.migrateObject target')
    (fuel : Nat) : engine.walk target fuel = engine.walk target' fuel := by
  induction fuel with
  | zero =>
      funext value
      rcases value.shape with ⟨items, rfl⟩ | ⟨entries, rfl⟩ | ⟨object, rfl⟩ | hdepth
      · rfl
      · rfl
      · rfl
      · rw [walk_of_depth_eq_zero hdepth, walk_of_depth_eq_zero hdepth]
  | succ fuel ih =>
      funext value
      rcases value.shape with ⟨items, rfl⟩ | ⟨entries, rfl⟩ | ⟨object, rfl⟩ | hdepth
      · rw [walk_succ_list, walk_succ_list, ih]
      · rw [walk_succ_map, walk_succ_map, ih]
      · rw [walk_succ_object, walk_succ_object, hobjects, ih]
      · rw [walk_of_depth_eq_zero hdepth, walk_of_depth_eq_zero hdepth]

/-- The protocol knows objects of the newest versions: it is `dev`, or it lists for every
registered type some version that is at least the newest one. -/
def KnowsNewest (engine : MigrationEngine) : ProtocolVersion → Prop
  | .dev => True
  | .stable n => ∃ versions, engine.data.protocols.get? n = some versions ∧
      engine.ListsNewest versions

theorem KnowsNewest.exists_versions (hknows : engine.KnowsNewest protocol) :
    ∃ versions, engine.objectVersions protocol = .ok versions ∧ engine.ListsNewest versions := by
  cases protocol with
  | dev =>
      obtain ⟨versions, hversions⟩ : ∃ versions, engine.objectVersions .dev = .ok versions :=
        ⟨_, rfl⟩
      refine ⟨versions, hversions, fun name history hhistory => ⟨history.latest, ?_, ?_⟩⟩
      · rw [DataProtocol.listed_of_objectVersions_dev hversions hhistory]
        exact history.isGreatest_registered.1
      · exact fun older holder => history.isGreatest_registered.2 holder
  | stable n =>
      obtain ⟨versions, hfound, hlists⟩ := hknows
      refine ⟨versions, ?_, hlists⟩
      rw [objectVersions, DataProtocol.objectVersions, hfound]

/-- If its type is registered, the object is of the newest version of it. -/
def IsNewest (engine : MigrationEngine) (object : ObjectValue) : Prop :=
  ∀ history, engine.registry.history? object.name = some history →
    IsGreatest history.registered object.version

theorem atGoal_latest_of_isNewest {object : ObjectValue} (hnewest : engine.IsNewest object) :
    engine.AtGoal .latest object := by
  intro history hhistory
  exact (atGoal_latest_iff hhistory).mpr (hnewest history hhistory) history hhistory

/-- Objects of the newest versions have nothing before them on their way in. -/
theorem migrateValue_upgrade_of_isNewest {value : Value}
    (hnewest : ∀ object ∈ value.objects, engine.IsNewest object) :
    engine.migrateValue .upgrade protocol value = .ok value := by
  have hall : engine.AllAtGoal .latest value :=
    fun object hmem => atGoal_latest_of_isNewest (hnewest object hmem)
  exact migrateValue_eq_ok_iff.mpr
    ⟨.latest, rfl, walk_of_allAtGoal hall (Nat.le_add_right _ _)⟩

/-- For a protocol that knows the newest versions a value comes to the same on its way out
and in, be that a value or an error.  If all objects in it are of the newest versions of
their types, it stays as it is. -/
theorem migrateValue_downgrade_eq_upgrade (hknows : engine.KnowsNewest protocol)
    (value : Value) :
    engine.migrateValue .downgrade protocol value =
        engine.migrateValue .upgrade protocol value ∧
      ((∀ object ∈ value.objects, engine.IsNewest object) →
        engine.migrateValue .downgrade protocol value = .ok value ∧
          engine.migrateValue .upgrade protocol value = .ok value) := by
  obtain ⟨versions, hversions, hlists⟩ := hknows.exists_versions
  have hobjects : engine.migrateObject (.versions versions) = engine.migrateObject .latest :=
    funext (migrateObject_of_listsNewest hlists)
  have hsame : engine.migrateValue .downgrade protocol value =
      engine.migrateValue .upgrade protocol value := by
    simp only [migrateValue, target_downgrade hversions]
    exact congrFun (walk_congr hobjects _) value
  refine ⟨hsame, fun hnewest => ?_⟩
  have hup : engine.migrateValue .upgrade protocol value = .ok value :=
    migrateValue_upgrade_of_isNewest hnewest
  exact ⟨hsame.trans hup, hup⟩

/-! ## A protocol that lists a version to come -/

theorem isGreatest_gadgetHistory : IsGreatest gadgetHistory.registered 2 :=
  gadgetHistory.isGreatest_registered

theorem eq_of_history?_gadget {name : String} {history : History}
    (hhistory : gadgetEngine.registry.history? name = some history) :
    name = "Gadget" ∧ history = gadgetHistory := by
  change (SortedMap.empty.insert "Gadget" gadgetHistory).get? name = some history at hhistory
  rw [SortedMap.get?_insert_eq_ite] at hhistory
  split at hhistory
  · rename_i hname
    cases hhistory
    exact ⟨hname, rfl⟩
  · cases hhistory

/-- The protocol lists the older gadgets and those after the newer ones. -/
theorem knowsNewest_gadgetEngine : gadgetEngine.KnowsNewest (.stable 1) := by
  refine ⟨gadgetVersions, rfl, fun name history hhistory => ?_⟩
  obtain ⟨rfl, rfl⟩ := eq_of_history?_gadget hhistory
  have hlists : gadgetVersions.get? "Gadget" = some (.ofKeys [1, 3]) := rfl
  have hlisted : (3 : UInt32) ∈ gadgetVersions.listed "Gadget" :=
    (ObjectVersions.mem_listed_of_get? hlists).mpr (by decide)
  refine ⟨3, hlisted, fun older holder => ?_⟩
  exact UInt32.le_trans (isGreatest_gadgetHistory.2 holder) (by decide)

/-- Gadgets of the given version, one of them with a spare one inside. -/
def toolbox (version : UInt32) : Value :=
  .list [.object ⟨"Gadget", version, []⟩,
    .map [("set", .object ⟨"Gadget", 2, [("spare", .object ⟨"Gadget", version, []⟩)]⟩)]]

theorem isNewest_toolbox : ∀ object ∈ (toolbox 2).objects, gadgetEngine.IsNewest object := by
  intro object hmem history hhistory
  obtain ⟨-, rfl⟩ := eq_of_history?_gadget hhistory
  have hversions : ∀ object ∈ (toolbox 2).objects, object.version = 2 :=
    List.forall_mem_cons.mpr ⟨rfl,
      List.forall_mem_cons.mpr ⟨rfl, List.forall_mem_singleton.mpr rfl⟩⟩
  rw [hversions object hmem]
  exact isGreatest_gadgetHistory

/-- Older gadgets become newer ones either way, those of a version that nobody registered
fail either way, and newer ones stay. -/
theorem migrateValue_downgrade_eq_upgrade_toolbox :
    gadgetEngine.KnowsNewest (.stable 1) ∧
      gadgetEngine.migrateValue .downgrade (.stable 1) (toolbox 1) = .ok (toolbox 2) ∧
      gadgetEngine.migrateValue .upgrade (.stable 1) (toolbox 1) = .ok (toolbox 2) ∧
      gadgetEngine.migrateValue .downgrade (.stable 1) (toolbox 9) =
        .error (.unknownVersion "Gadget" 9) ∧
      (∀ object ∈ (toolbox 2).objects, gadgetEngine.IsNewest object) ∧
      gadgetEngine.migrateValue .downgrade (.stable 1) (toolbox 2) = .ok (toolbox 2) := by
  have hup : gadgetEngine.migrateValue .upgrade (.stable 1) (toolbox 1) = .ok (toolbox 2) := rfl
  have hfails : gadgetEngine.migrateValue .upgrade (.stable 1) (toolbox 9) =
      .error (.unknownVersion "Gadget" 9) := rfl
  have hsame := migrateValue_downgrade_eq_upgrade knowsNewest_gadgetEngine
  exact ⟨knowsNewest_gadgetEngine, (hsame (toolbox 1)).1.trans hup, hup,
    (hsame (toolbox 9)).1.trans hfails, isNewest_toolbox,
    ((hsame (toolbox 2)).2 isNewest_toolbox).1⟩

end MigrationEngine

end RemoteCall
