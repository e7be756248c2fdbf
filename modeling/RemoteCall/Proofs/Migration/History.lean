import RemoteCall.Migration.Registry
import RemoteCall.Proofs.Migration.FieldOp

/-!
# Ways through a history

Which version an object is brought to depends on the target alone: it is the
greatest registered one that is not above the target.  On the way the versions
in between are passed one by one.  Where all their steps are told by field
changes, the way down applies one list of changes, and the way up undoes it.
-/

namespace RemoteCall

namespace Step

/-- Whether the step is told by field changes. -/
def IsOps (step : Step) : Prop := ∃ changes, step = .ops changes

/-- The field changes that the step is told by. -/
def changes : Step → List FieldOp
  | .ops changes => changes
  | _ => []

theorem IsOps.down?_eq {step : Step} (hops : step.IsOps) (type : String) :
    step.down? type = some (FieldOp.downgradeAll type step.changes) := by
  obtain ⟨changes, rfl⟩ := hops
  rfl

theorem IsOps.up?_eq {step : Step} (hops : step.IsOps) (type : String) :
    step.up? type = some (FieldOp.upgradeAll type step.changes) := by
  obtain ⟨changes, rfl⟩ := hops
  rfl

end Step

namespace History

variable {history : History} {version target goal : UInt32}

/-! ## Where an object is brought to -/

theorem atOrBelow?_eq_some_iff :
    history.atOrBelow? target = some goal ↔
      history.versions.contains goal ∧ goal ≤ target ∧
        ∀ version, history.versions.contains version → version ≤ target → version ≤ goal := by
  simp only [atOrBelow?, SortedMap.lastKey?_filter_eq_some_iff, decide_eq_true_eq,
    Std.isLE_compare]

theorem atOrBelow?_self (hregistered : history.versions.contains version) :
    history.atOrBelow? version = some version :=
  atOrBelow?_eq_some_iff.mpr ⟨hregistered, UInt32.le_refl version, fun _ _ hle => hle⟩

theorem latest_eq (history : History) : history.versions.lastKey? = some history.latest := by
  rw [SortedMap.lastKey?, SortedMap.keys, List.getLast?_map,
    List.getLast?_eq_some_getLast history.nonempty]
  rfl

theorem contains_latest (history : History) : history.versions.contains history.latest := by
  rw [SortedMap.contains_iff_mem_keys]
  exact (SortedMap.lastKey?_eq_some_iff.mp history.latest_eq).1

theorem le_latest (hregistered : history.versions.contains version) :
    version ≤ history.latest := by
  rw [SortedMap.contains_iff_mem_keys] at hregistered
  exact Std.isLE_compare.mp
    ((SortedMap.lastKey?_eq_some_iff.mp history.latest_eq).2 version hregistered)

/-! ## The way there -/

theorem below_eq_nil (hle : version ≤ goal) : history.below version goal = [] := by
  rw [below, List.reverse_eq_nil_iff, List.filter_eq_nil_iff]
  intro entry _ hbetween
  simp only [Bool.and_eq_true, decide_eq_true_eq] at hbetween
  exact UInt32.not_lt.mpr (UInt32.le_trans hbetween.2 hle) hbetween.1

theorem above_eq_reverse_below (history : History) (low high : UInt32) :
    history.above low high = (history.below high low).reverse := by
  rw [above, below, List.reverse_reverse]

theorem above_eq_nil (hle : goal ≤ version) : history.above version goal = [] := by
  rw [above_eq_reverse_below, below_eq_nil hle, List.reverse_nil]

theorem mem_below {entry : UInt32 × VersionEntry} :
    entry ∈ history.below version goal ↔
      entry ∈ history.versions.entries ∧ goal < entry.1 ∧ entry.1 ≤ version := by
  simp [below]

theorem name_and_version_of_migrate {object object' : ObjectValue}
    (hmigrate : history.migrate object target = .ok object') :
    object'.name = object.name ∧ history.atOrBelow? target = some object'.version := by
  rw [migrate] at hmigrate
  split at hmigrate
  · split at hmigrate
    · cases hmigrate
    · rename_i goal hgoal
      split at hmigrate
      · cases hmigrate
      · split at hmigrate
        · cases hmigrate
        · cases hmigrate
          exact ⟨rfl, hgoal⟩
  · cases hmigrate

/-- Going down takes steps down only. -/
theorem migrate_of_ge {object : ObjectValue}
    (hregistered : history.versions.contains object.version)
    (hgoal : history.atOrBelow? target = some goal) (hle : goal ≤ object.version) :
    history.migrate object target =
      (descend object.name goal (history.below object.version goal) object.fields).map
        fun fields => ⟨object.name, goal, fields⟩ := by
  simp only [migrate, hregistered, if_true, hgoal, above_eq_nil hle, ascend]
  cases descend object.name goal (history.below object.version goal) object.fields <;> rfl

/-- Going up takes steps up only. -/
theorem migrate_of_le {object : ObjectValue}
    (hregistered : history.versions.contains object.version)
    (hgoal : history.atOrBelow? target = some goal) (hle : object.version ≤ goal) :
    history.migrate object target =
      (ascend object.name object.version (history.above object.version goal)
        object.fields).map fun fields => ⟨object.name, goal, fields⟩ := by
  simp only [migrate, hregistered, if_true, hgoal, below_eq_nil hle, descend]
  cases ascend object.name object.version (history.above object.version goal)
    object.fields <;> rfl

/-! ## Ways told by field changes -/

/-- Whether all steps between two versions are told by field changes. -/
def IsOpsBetween (history : History) (low high : UInt32) : Prop :=
  ∀ entry ∈ history.versions.entries, low < entry.1 → entry.1 ≤ high → entry.2.step.IsOps

/-- The field changes between two versions, from the higher one down. -/
def changes (history : History) (low high : UInt32) : List FieldOp :=
  (history.below high low).flatMap fun entry => entry.2.step.changes

theorem descend_eq_downgradeAll {type : String} {steps : List (UInt32 × VersionEntry)}
    (hops : ∀ entry ∈ steps, entry.2.step.IsOps) :
    descend type goal steps =
      FieldOp.downgradeAll type (steps.flatMap fun entry => entry.2.step.changes) := by
  funext fields
  induction steps generalizing fields with
  | nil => rfl
  | cons entry rest ih =>
      rw [List.flatMap_cons, FieldOp.downgradeAll_append, descend,
        (hops entry List.mem_cons_self).down?_eq type]
      dsimp only
      cases FieldOp.downgradeAll type entry.2.step.changes fields with
      | error e => rfl
      | ok fields' => exact ih (fun entry hmem => hops entry (List.mem_cons_of_mem _ hmem)) fields'

theorem ascend_eq_upgradeAll {type : String} {start : UInt32}
    {steps : List (UInt32 × VersionEntry)} (hops : ∀ entry ∈ steps, entry.2.step.IsOps) :
    ascend type start steps =
      FieldOp.upgradeAll type (steps.reverse.flatMap fun entry => entry.2.step.changes) := by
  funext fields
  induction steps generalizing start fields with
  | nil => rfl
  | cons entry rest ih =>
      rw [List.reverse_cons, List.flatMap_append, List.flatMap_singleton,
        FieldOp.upgradeAll_append, ascend, (hops entry List.mem_cons_self).up?_eq type]
      dsimp only
      cases FieldOp.upgradeAll type entry.2.step.changes fields with
      | error e => rfl
      | ok fields' => exact ih (fun entry hmem => hops entry (List.mem_cons_of_mem _ hmem)) fields'

variable {low high : UInt32}

theorem IsOpsBetween.of_mem_below (hops : history.IsOpsBetween low high) :
    ∀ entry ∈ history.below high low, entry.2.step.IsOps := by
  intro entry hmem
  obtain ⟨hentry, hlow, hhigh⟩ := mem_below.mp hmem
  exact hops entry hentry hlow hhigh

theorem descend_below {type : String} (hops : history.IsOpsBetween low high) :
    descend type low (history.below high low) =
      FieldOp.downgradeAll type (history.changes low high) :=
  descend_eq_downgradeAll hops.of_mem_below

theorem ascend_above {type : String} (hops : history.IsOpsBetween low high) :
    ascend type low (history.above low high) =
      FieldOp.upgradeAll type (history.changes low high) := by
  rw [above_eq_reverse_below,
    ascend_eq_upgradeAll fun entry hmem => hops.of_mem_below entry (List.mem_reverse.mp hmem),
    List.reverse_reverse]
  rfl

end History

/-! ## A history with gaps -/

/-- Versions of widgets.  From the newest one down, a name is used anew once its
field was renamed, and a field is dropped after it was renamed. -/
def widgetHistory : History :=
  ((History.single 1 ⟨[], .none⟩).insert 3
      ⟨[], .ops [.rename "size" "extent", .remove "extent" (.int 0)]⟩).insert 7
    ⟨[], .ops [.rename "title" "label", .add "title" (.object ⟨"Widget", 1, []⟩)]⟩

/-- The registry that knows widgets only. -/
def widgets : TypeRegistry := ⟨SortedMap.empty.insert "Widget" widgetHistory⟩

/-- A widget of the newest version. -/
def widget : ObjectValue := ⟨"Widget", 7, [("size", .int 12), ("title", .str "cup")]⟩

/-- A widget of the oldest version. -/
def oldWidget : ObjectValue := ⟨"Widget", 1, [("label", .str "cup"), ("title", .str "mug")]⟩

theorem history?_widgets : widgets.history? "Widget" = some widgetHistory := rfl

theorem isOpsBetween_widgetHistory : widgetHistory.IsOpsBetween 1 7 := by
  intro entry hmem hlow _
  have hentries : widgetHistory.versions.entries = [(1, ⟨[], .none⟩),
      (3, ⟨[], .ops [.rename "size" "extent", .remove "extent" (.int 0)]⟩),
      (7, ⟨[], .ops [.rename "title" "label", .add "title" (.object ⟨"Widget", 1, []⟩)]⟩)] :=
    rfl
  rw [hentries] at hmem
  simp only [List.mem_cons, List.not_mem_nil, or_false] at hmem
  rcases hmem with rfl | rfl | rfl
  · exact absurd hlow (by decide)
  · exact ⟨_, rfl⟩
  · exact ⟨_, rfl⟩

end RemoteCall
