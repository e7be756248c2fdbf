import RemoteCall.Proofs.Migration.History
import RemoteCall.Proofs.Migration.Walk

/-!
# Values that come back as they were

Outbound, an object is brought to an older version and its fields are walked;
inbound, the same is done the other way.  The field changes do not look at the
values they move, so undoing them among walked fields gives the fields of the
object, walked.  Where no change loses anything, walking those back is all that
is left to do, and it is done for each field on its own.
-/

namespace RemoteCall.MigrationEngine

open Entries (Ascending SameKey)

variable {engine : MigrationEngine} {versions : ObjectVersions}

/-- The object is of the newest version, if its type is registered, and loses
nothing on its way down to what is understood: all the steps are told by field
changes, none of which drops a field or puts one in the place of another. -/
def LosslessDown (engine : MigrationEngine) (versions : ObjectVersions)
    (object : ObjectValue) : Prop :=
  ∀ history, engine.registry.history? object.name = some history →
    object.version = history.latest ∧
    ∀ newest goal, versions.newest? object.name = some newest →
      history.atOrBelow? newest = some goal →
        history.IsOpsBetween goal history.latest ∧
        FieldOp.Along (fun fields op => op.Lossless fields) object.name
          (history.changes goal history.latest) object.fields

/-- An object that was brought down comes up again with its own fields, each
related to its old value as the walk below has it. -/
theorem exists_migrateObject_latest {object object' : ObjectValue}
    {fields' : Fields} {S : Value → Value → Prop}
    (hlossless : engine.LosslessDown versions object) (hascending : Ascending object.fields)
    (hdown : engine.migrateObject (.versions versions) object = .ok object')
    (hfields' : List.Forall₂ (SameKey fun _ => S) object'.fields fields') :
    ∃ right, engine.migrateObject .latest { object' with fields := fields' } =
        .ok { object with fields := right } ∧
      List.Forall₂ (SameKey fun _ => S) object.fields right := by
  cases hhistory : engine.registry.history? object.name with
  | none =>
      simp only [migrateObject, hhistory, Except.ok.injEq] at hdown
      subst object'
      exact ⟨fields', by simp only [migrateObject, hhistory], hfields'⟩
  | some history =>
      obtain ⟨hlatest, hway⟩ := hlossless history hhistory
      have hregistered : history.versions.contains object.version := by
        rw [hlatest]
        exact history.contains_latest
      simp only [migrateObject, hhistory, goal] at hdown
      cases hnewest : versions.newest? object.name with
      | none => simp [hnewest] at hdown
      | some newest =>
          simp only [hnewest] at hdown
          cases hgoal : history.atOrBelow? newest with
          | none => simp [History.migrate, hregistered, hgoal] at hdown
          | some goal =>
              obtain ⟨hops, hchanges⟩ := hway newest goal hnewest hgoal
              have hgoalRegistered := (History.atOrBelow?_eq_some_iff.mp hgoal).1
              have hle : goal ≤ object.version := by
                rw [hlatest]
                exact History.le_latest hgoalRegistered
              rw [History.migrate_of_ge hregistered hgoal hle, hlatest,
                History.descend_below hops, Outcome.map_eq_ok_iff] at hdown
              obtain ⟨older, holder, rfl⟩ := hdown
              -- Nothing is dropped on this way, so what relates the older fields is all
              -- that relates the newer ones.
              obtain ⟨hfits, hcarry⟩ :=
                FieldOp.fits_and_carryAll_of_lossless (S := S) hchanges holder
              obtain ⟨right, hright, hrelated⟩ :=
                FieldOp.exists_upgradeAll hfits holder (Entries.related_of_forall₂ hfields')
              rw [hcarry] at hrelated
              have holderAscending : Ascending older :=
                FieldOp.ascending_downgradeAll hascending holder
              have hrightAscending : Ascending right :=
                FieldOp.ascending_upgradeAll
                  (Entries.ascending_of_keys (Entries.keys_eq_of_forall₂ hfields')
                    holderAscending) hright
              refine ⟨right, ?_, hrelated.forall₂ hascending hrightAscending⟩
              simp only [migrateObject, hhistory, MigrationEngine.goal]
              rw [History.migrate_of_le hgoalRegistered
                  (History.atOrBelow?_self history.contains_latest)
                  (History.le_latest hgoalRegistered),
                History.ascend_above hops, hright, hlatest]
              rfl

/-- Walking up what was walked down without loss. -/
theorem walk_latest_of_walk {fuel : Nat} {value value' : Value}
    (hwalk : engine.walk (.versions versions) fuel value = .ok value')
    (hordered : value.Ordered)
    (hlossless : ∀ object ∈ value.objects, engine.LosslessDown versions object) :
    engine.walk .latest fuel value' = .ok value := by
  -- On the room: an object's own fields come back first, each still as the walk
  -- left it, and those are walked back in one level less.
  induction fuel generalizing value value' with
  | zero =>
      have hdepth := walk_zero_eq_ok hwalk
      rw [walk_of_depth_eq_zero hdepth] at hwalk
      cases hwalk
      exact walk_of_depth_eq_zero hdepth
  | succ fuel ih =>
      have hentries : ∀ {entries entries' : List (String × Value)},
          List.Forall₂ (SameKey fun _ value value' =>
              engine.walk (.versions versions) fuel value = .ok value') entries entries' →
            (∀ entry ∈ entries, entry.2.Ordered) →
              (∀ entry ∈ entries, ∀ object ∈ entry.2.objects,
                engine.LosslessDown versions object) →
                engine.WalkedEntries .latest fuel entries' entries := by
        intro entries entries' hwalked hordered hlossless
        refine List.Forall₂.flip (forall₂_of_mem hwalked fun entry hmem entry' _ hentry => ?_)
        exact ⟨hentry.1.symm, ih hentry.2 (hordered entry hmem) (hlossless entry hmem)⟩
      rcases value.shape with ⟨items, rfl⟩ | ⟨entries, rfl⟩ | ⟨object, rfl⟩ | hdepth
      · obtain ⟨_, items', ⟨⟩, rfl, hitems⟩ := walk_list_eq_ok_iff.mp hwalk
        rw [Value.Ordered, Value.orderedItems_iff] at hordered
        refine walk_list_eq_ok_iff.mpr ⟨fuel, items, rfl, rfl, ?_⟩
        refine List.Forall₂.flip (forall₂_of_mem hitems fun item hmem item' _ hitem => ?_)
        refine ih hitem (hordered item hmem) fun object hobject => ?_
        exact hlossless object (Value.mem_objects_list.mpr ⟨item, hmem, hobject⟩)
      · obtain ⟨_, entries', ⟨⟩, rfl, hwalked⟩ := walk_map_eq_ok_iff.mp hwalk
        rw [Value.Ordered, Value.orderedEntries_iff] at hordered
        refine walk_map_eq_ok_iff.mpr ⟨fuel, entries, rfl, rfl, ?_⟩
        refine hentries hwalked hordered.2 fun entry hmem object hobject => ?_
        exact hlossless object (Value.mem_objects_map.mpr ⟨entry, hmem, hobject⟩)
      · obtain ⟨_, object', fields', ⟨⟩, hobject, rfl, hwalked⟩ :=
          walk_object_eq_ok_iff.mp hwalk
        rw [Value.Ordered, Value.orderedEntries_iff] at hordered
        obtain ⟨right, hright, hwalkedBack⟩ := exists_migrateObject_latest
          (hlossless object (Value.mem_objects_object.mpr (.inl rfl))) hordered.1 hobject
          hwalked
        refine walk_object_eq_ok_iff.mpr
          ⟨fuel, { object with fields := right }, object.fields, rfl, hright, rfl, ?_⟩
        refine hentries hwalkedBack hordered.2 fun entry hmem inner hinner => ?_
        exact hlossless inner (Value.mem_objects_object.mpr (.inr ⟨entry, hmem, hinner⟩))
      · rw [walk_of_depth_eq_zero hdepth] at hwalk
        cases hwalk
        exact walk_of_depth_eq_zero hdepth

/-- A value that loses nothing on its way out is itself again on its way in. -/
theorem migrateValue_upgrade_of_downgrade {protocol : ProtocolVersion} {value value' : Value}
    (hversions : engine.objectVersions protocol = .ok versions) (hordered : value.Ordered)
    (hlossless : ∀ object ∈ value.objects, engine.LosslessDown versions object)
    (hdown : engine.migrateValue .downgrade protocol value = .ok value') :
    engine.migrateValue .upgrade protocol value' = .ok value := by
  have hwalk : engine.walk (.versions versions) (value.depth + engine.room) value = .ok value' := by
    simpa only [migrateValue, target, hversions, Except.map, migrateTo] using hdown
  -- In no more room than the result needs, the way back is as deep as the result at most.
  have hup : engine.walk .latest value'.depth value' = .ok value :=
    walk_latest_of_walk (walk_of_depth_le hwalk (Nat.le_refl _)) hordered hlossless
  have hroom : value.depth ≤ value'.depth + engine.room :=
    Nat.le_trans (depth_le_of_walk hup) (Nat.le_add_right _ _)
  exact walk_of_depth_le hup hroom

/-- Widgets, with a protocol that does not know the newest ones. -/
def widgetEngine : MigrationEngine where
  registry := widgets
  data := DataProtocol.empty.withProtocol 2 [("Widget", 3), ("Widget", 1)]
  room := 1

/-- The versions of widgets that the protocol knows. -/
def widgetVersions : ObjectVersions :=
  DataProtocol.addVersion (DataProtocol.addVersion .empty "Widget" 3) "Widget" 1

/-- A list with the widget in a map, and with an object of no registered type that
holds another widget, with the first in it. -/
def furniture : Value :=
  .list [.map [("first", .object widget)],
    .object ⟨"Shelf", 1, [("load", .object ⟨"Widget", 7,
      [("inner", .object widget), ("title", .none)]⟩)]⟩]

/-- The widget that the newest version puts into widgets on their way down. -/
def plainWidget : Value := .object ⟨"Widget", 3, [("size", .int 0)]⟩

/-- The widget as the protocol knows it. -/
def knownWidget : Value :=
  .object ⟨"Widget", 3, [("label", .str "cup"), ("size", .int 12), ("title", plainWidget)]⟩

/-- The furniture as the protocol knows it. -/
def knownFurniture : Value :=
  .list [.map [("first", knownWidget)],
    .object ⟨"Shelf", 1, [("load", .object ⟨"Widget", 3,
      [("inner", knownWidget), ("label", .none), ("title", plainWidget)]⟩)]⟩]

theorem migrateValue_furniture :
    widgetEngine.migrateValue .downgrade (.stable 2) furniture = .ok knownFurniture := rfl

theorem losslessDown_widget {fields : Fields} (hlabel : Entries.find? "label" fields = none) :
    widgetEngine.LosslessDown widgetVersions ⟨"Widget", 7, fields⟩ := by
  intro history hhistory
  obtain rfl : widgetHistory = history :=
    Option.some.inj (history?_widgets.symm.trans hhistory)
  refine ⟨rfl, fun newest goal hnewest hgoal => ?_⟩
  have hknown : widgetVersions.newest? "Widget" = some 3 := rfl
  obtain rfl : 3 = newest := Option.some.inj (hknown.symm.trans hnewest)
  have hregistered : widgetHistory.atOrBelow? 3 = some 3 := rfl
  obtain rfl : 3 = goal := Option.some.inj (hregistered.symm.trans hgoal)
  refine ⟨fun entry hmem hlow hhigh => ?_, hlabel, fun renamed hrenamed => ⟨?_, ?_⟩⟩
  · exact isOpsBetween_widgetHistory entry hmem (UInt32.lt_trans (by decide) hlow) hhigh
  · obtain ⟨value, -, rfl⟩ := FieldOp.move_eq_ok_iff.mp hrenamed
    rw [FieldOp.Lossless, Entries.find?_insert_eq_ite, Entries.find?_erase_eq_ite]
    rfl
  · intro _ _
    trivial

theorem losslessDown_furniture :
    ∀ object ∈ furniture.objects, widgetEngine.LosslessDown widgetVersions object := by
  intro object hmem
  have hobjects : furniture.objects = [widget,
      ⟨"Shelf", 1, [("load", .object ⟨"Widget", 7,
        [("inner", .object widget), ("title", .none)]⟩)]⟩,
      ⟨"Widget", 7, [("inner", .object widget), ("title", .none)]⟩, widget] := rfl
  rw [hobjects] at hmem
  simp only [List.mem_cons, List.not_mem_nil, or_false] at hmem
  rcases hmem with rfl | rfl | rfl | rfl
  · exact losslessDown_widget rfl
  · intro history hhistory
    have hunknown : widgetEngine.registry.history? "Shelf" = none := rfl
    rw [hunknown] at hhistory
    cases hhistory
  · exact losslessDown_widget rfl
  · exact losslessDown_widget rfl

theorem ordered_furniture : furniture.Ordered := by
  simp only [furniture, widget, Value.Ordered, Value.OrderedItems, Value.OrderedEntries,
    Ascending, List.pairwise_cons, List.Pairwise.nil, List.mem_cons, List.not_mem_nil,
    or_false, forall_eq, false_imp_iff, implies_true, and_true, true_and]
  decide

theorem migrateValue_upgrade_of_downgrade_furniture :
    widgetEngine.migrateValue .downgrade (.stable 2) furniture = .ok knownFurniture ∧
      widgetEngine.migrateValue .upgrade (.stable 2) knownFurniture = .ok furniture :=
  ⟨migrateValue_furniture,
    migrateValue_upgrade_of_downgrade rfl ordered_furniture losslessDown_furniture
      migrateValue_furniture⟩

end RemoteCall.MigrationEngine
