import RemoteCall.Proofs.Migration.History

/-!
# There and back along a history

An object that is brought to another version of its type and back is the same
again, but for the fields that were dropped on the way there.  This holds in
both directions along any history that is told by field changes, as long as each
change meets the fields that it describes.
-/

namespace RemoteCall

/-- `back` is `object`, but for the fields that the changes drop; those hold the
defaults. -/
structure RestoredUpTo (changes : List FieldOp) (object back : ObjectValue) : Prop where
  name_eq : back.name = object.name
  version_eq : back.version = object.version
  get?_eq : ∀ name, back.get? name =
    (object.get? name).map fun value => (FieldOp.dropped changes name).getD value

namespace TypeRegistry

variable {registry : TypeRegistry} {history : History} {object : ObjectValue}
  {low high : UInt32}

theorem migrateObject_eq_migrate {target : UInt32}
    (hhistory : registry.history? object.name = some history) :
    registry.migrateObject object target = history.migrate object target := by
  rw [migrateObject, hhistory]

theorem migrateObject_down (object : ObjectValue)
    (hhistory : registry.history? object.name = some history)
    (hlow : history.versions.contains low)
    (hregistered : history.versions.contains object.version) (hle : low ≤ object.version)
    (hops : history.IsOpsBetween low object.version) :
    registry.migrateObject object low =
      (FieldOp.downgradeAll object.name (history.changes low object.version)
        object.fields).map fun fields => ⟨object.name, low, fields⟩ := by
  rw [migrateObject_eq_migrate hhistory,
    History.migrate_of_ge hregistered (History.atOrBelow?_self hlow) hle,
    History.descend_below hops]

theorem migrateObject_up (object : ObjectValue)
    (hhistory : registry.history? object.name = some history)
    (hhigh : history.versions.contains high)
    (hregistered : history.versions.contains object.version) (hle : object.version ≤ high)
    (hops : history.IsOpsBetween object.version high) :
    registry.migrateObject object high =
      (FieldOp.upgradeAll object.name (history.changes object.version high)
        object.fields).map fun fields => ⟨object.name, high, fields⟩ := by
  rw [migrateObject_eq_migrate hhistory,
    History.migrate_of_le hregistered (History.atOrBelow?_self hhigh) hle,
    History.ascend_above hops]

/-- An object that goes down a history of field changes and up again, or up and
down again, is restored. -/
theorem migrateObject_and_back
    (hhistory : registry.history? object.name = some history)
    (hlow : history.versions.contains low) (hhigh : history.versions.contains high)
    (hle : low ≤ high) (hops : history.IsOpsBetween low high) :
    (object.version = high →
      FieldOp.Along (fun fields op => op.Fits fields) object.name
        (history.changes low high) object.fields →
      ∃ older back, registry.migrateObject object low = .ok older ∧
        registry.migrateObject older high = .ok back ∧ older.version = low ∧
          RestoredUpTo (history.changes low high) object back) ∧
    (object.version = low →
      FieldOp.Along (fun fields op => op.Fits fields) object.name
        (FieldOp.inverseAll (history.changes low high)) object.fields →
      ∃ newer back, registry.migrateObject object high = .ok newer ∧
        registry.migrateObject newer low = .ok back ∧ newer.version = high ∧
          RestoredUpTo (FieldOp.inverseAll (history.changes low high)) object back) := by
  constructor
  · rintro rfl hfits
    obtain ⟨fields, back, hdown, hup, hback⟩ := FieldOp.exists_downgradeAll_upgradeAll hfits
    refine ⟨⟨object.name, low, fields⟩, ⟨object.name, object.version, back⟩, ?_, ?_, rfl,
      ⟨rfl, rfl, hback⟩⟩
    · rw [migrateObject_down object hhistory hlow hhigh hle hops, hdown]
      rfl
    · rw [migrateObject_up ⟨object.name, low, fields⟩ hhistory hhigh hlow hle hops, hup]
      rfl
  · rintro rfl hfits
    obtain ⟨fields, back, hup, hdown, hback⟩ := FieldOp.exists_downgradeAll_upgradeAll hfits
    rw [← FieldOp.upgradeAll_eq_downgradeAll] at hup
    rw [FieldOp.upgradeAll_eq_downgradeAll, FieldOp.inverseAll_inverseAll] at hdown
    refine ⟨⟨object.name, high, fields⟩, ⟨object.name, object.version, back⟩, ?_, ?_, rfl,
      ⟨rfl, rfl, hback⟩⟩
    · rw [migrateObject_up object hhistory hhigh hlow hle hops, hup]
      rfl
    · rw [migrateObject_down ⟨object.name, high, fields⟩ hhistory hlow hhigh hle hops, hdown]
      rfl

theorem fits_widget :
    FieldOp.Along (fun fields op => op.Fits fields) "Widget" (widgetHistory.changes 1 7)
      widget.fields := by
  refine ⟨⟨rfl, rfl⟩, ?_⟩
  rintro _ ⟨⟩
  refine ⟨rfl, ?_⟩
  rintro _ ⟨⟩
  refine ⟨⟨rfl, rfl⟩, ?_⟩
  rintro _ ⟨⟩
  refine ⟨rfl, ?_⟩
  rintro _ ⟨⟩
  trivial

theorem fits_oldWidget :
    FieldOp.Along (fun fields op => op.Fits fields) "Widget"
      (FieldOp.inverseAll (widgetHistory.changes 1 7)) oldWidget.fields := by
  refine ⟨rfl, ?_⟩
  rintro _ ⟨⟩
  refine ⟨⟨rfl, rfl⟩, ?_⟩
  rintro _ ⟨⟩
  refine ⟨rfl, ?_⟩
  rintro _ ⟨⟩
  refine ⟨⟨rfl, rfl⟩, ?_⟩
  rintro _ ⟨⟩
  trivial

/-- A widget goes to the oldest version and back, and an old one to the newest. -/
theorem migrateObject_and_back_widgets :
    (∃ older back, widgets.migrateObject widget 1 = .ok older ∧
      widgets.migrateObject older 7 = .ok back ∧ older.version = 1 ∧
        RestoredUpTo (widgetHistory.changes 1 7) widget back) ∧
    (∃ newer back, widgets.migrateObject oldWidget 7 = .ok newer ∧
      widgets.migrateObject newer 1 = .ok back ∧ newer.version = 7 ∧
        RestoredUpTo (FieldOp.inverseAll (widgetHistory.changes 1 7)) oldWidget back) :=
  ⟨(migrateObject_and_back history?_widgets rfl rfl (by decide)
      isOpsBetween_widgetHistory).1 rfl fits_widget,
    (migrateObject_and_back history?_widgets rfl rfl (by decide)
      isOpsBetween_widgetHistory).2 rfl fits_oldWidget⟩

end TypeRegistry

end RemoteCall
