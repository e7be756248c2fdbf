import RemoteCall.Proofs.Migration.Failure

/-!
# Fields that no change speaks of

A field change moves, drops or fills the fields that it names, and no others, whatever
shape the object has.  So along a way that is told by field changes a field that none of
them names is there at the end just if it was there at the start, with the same value,
in either direction and however many versions lie between.
-/

namespace RemoteCall

namespace FieldOp

/-- The names of the fields that a change speaks of. -/
def names : FieldOp → List String
  | .rename newer older => [newer, older]
  | .remove name _ => [name]
  | .add name _ => [name]

variable {type name : String} {op : FieldOp} {changes : List FieldOp} {fields fields' : Fields}

theorem find?_downgrade (hname : name ∉ op.names)
    (hdown : op.downgrade type fields = .ok fields') :
    Entries.find? name fields' = Entries.find? name fields := by
  cases op with
  | rename newer older =>
      simp only [names, List.mem_pair, not_or] at hname
      obtain ⟨value, -, rfl⟩ := move_eq_ok_iff.mp hdown
      rw [Entries.find?_insert_eq_ite, if_neg hname.2, Entries.find?_erase_eq_ite,
        if_neg hname.1]
  | remove removed default =>
      cases hdown
      rw [Entries.find?_erase_eq_ite, if_neg (List.mem_singleton.not.mp hname)]
  | add added default =>
      cases hdown
      exact Entries.find?_insertIfNew_of_ne (List.mem_singleton.not.mp hname)

theorem find?_downgradeAll (hnames : ∀ op ∈ changes, name ∉ op.names)
    (hdown : downgradeAll type changes fields = .ok fields') :
    Entries.find? name fields' = Entries.find? name fields := by
  induction changes generalizing fields with
  | nil =>
      cases hdown
      rfl
  | cons op rest ih =>
      obtain ⟨hop, hrest⟩ := List.forall_mem_cons.mp hnames
      obtain ⟨between, hbetween, hlater⟩ := downgradeAll_cons_eq_ok_iff.mp hdown
      calc
        Entries.find? name fields' = Entries.find? name between := ih hrest hlater
        _ = Entries.find? name fields := find?_downgrade hop hbetween

end FieldOp

namespace History

variable {history : History} {object object' : ObjectValue} {target : UInt32} {name : String}

theorem find?_of_migrate (hdeclared : history.Declared)
    (hmigrate : history.migrate object target = .ok object')
    (hnames : ∀ op ∈ history.way object.version object'.version, name ∉ op.names) :
    Entries.find? name object'.fields = Entries.find? name object.fields := by
  have hgoal := (name_and_version_of_migrate hmigrate).2
  have hregistered : history.versions.contains object.version := by
    by_contra hunknown
    simp only [migrate, if_neg hunknown] at hmigrate
    cases hmigrate
  rcases migrate_eq_or hdeclared hregistered hgoal with hway | ⟨source, target', hnone⟩
  · rw [hway] at hmigrate
    obtain ⟨fields, hfields, hobject⟩ := Outcome.map_eq_ok_iff.mp hmigrate
    obtain rfl : fields = object'.fields := congrArg ObjectOf.fields hobject
    exact FieldOp.find?_downgradeAll hnames hfields
  · cases hnone.symm.trans hmigrate

end History

namespace TypeRegistry

/-- On its way to any version, up or down, an object keeps every field that no change on
the way names.  If it does not arrive, then because its version is not registered, for
want of a way, or for want of a field that a renaming on the way takes. -/
theorem migrateObject_untouched {registry : TypeRegistry} {history : History}
    {object : ObjectValue} (hhistory : registry.history? object.name = some history)
    (hdeclared : history.Declared) (target : UInt32) :
    (∀ object', registry.migrateObject object target = .ok object' →
      ∀ name, (∀ op ∈ history.way object.version object'.version, name ∉ op.names) →
        Entries.find? name object'.fields = Entries.find? name object.fields) ∧
    ∀ e, registry.migrateObject object target = .error e → history.FailsWith object target e := by
  rw [migrateObject_eq_migrate hhistory]
  constructor
  · intro object' hmigrate name hnames
    exact History.find?_of_migrate hdeclared hmigrate hnames
  · intro e hfails
    exact History.failsWith_of_migrate hdeclared hfails

theorem declared_widgetHistory : widgetHistory.Declared := by
  intro entry hmem up down hcustom
  have hentries : widgetHistory.versions.entries = [(1, ⟨[], .none⟩),
      (3, ⟨[], .ops [.rename "size" "extent", .remove "extent" (.int 0)]⟩),
      (7, ⟨[], .ops [.rename "title" "label", .add "title" (.object ⟨"Widget", 1, []⟩)]⟩)] :=
    rfl
  rw [hentries] at hmem
  simp only [List.mem_cons, List.not_mem_nil, or_false] at hmem
  rcases hmem with rfl | rfl | rfl <;> cases hcustom

/-- A widget keeps its colour on the whole way down, and an odd one on the whole way up.
One without a title does not get far. -/
theorem migrateObject_untouched_widgets :
    (∃ older, widgets.migrateObject ⟨"Widget", 7, ("colour", .str "red") :: widget.fields⟩ 2 =
        .ok older ∧ older.version = 1 ∧
          Entries.find? "colour" older.fields = some (.str "red")) ∧
      (∃ newer, widgets.migrateObject ⟨"Widget", 1, [("colour", .int 3), ("label", .none),
          ("size", .int 1)]⟩ 0xffffffff = .ok newer ∧ newer.version = 7 ∧
          Entries.find? "colour" newer.fields = some (.int 3)) ∧
      widgetHistory.FailsWith ⟨"Widget", 7, [("size", .int 12)]⟩ 6
        (.missingField "Widget" "title") := by
  refine ⟨?_, ?_, ?_⟩
  · obtain ⟨hkeeps, -⟩ := @migrateObject_untouched widgets widgetHistory
      ⟨"Widget", 7, ("colour", .str "red") :: widget.fields⟩ history?_widgets
      declared_widgetHistory 2
    exact ⟨_, rfl, rfl, hkeeps _ rfl "colour" (by decide)⟩
  · obtain ⟨hkeeps, -⟩ := @migrateObject_untouched widgets widgetHistory
      ⟨"Widget", 1, [("colour", .int 3), ("label", .none), ("size", .int 1)]⟩ history?_widgets
      declared_widgetHistory 0xffffffff
    exact ⟨_, rfl, rfl, hkeeps _ rfl "colour" (by decide)⟩
  · obtain ⟨-, hfails⟩ := @migrateObject_untouched widgets widgetHistory
      ⟨"Widget", 7, [("size", .int 12)]⟩ history?_widgets declared_widgetHistory 6
    exact hfails _ rfl

end TypeRegistry

end RemoteCall
