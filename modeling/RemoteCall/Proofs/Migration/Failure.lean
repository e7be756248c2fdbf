import RemoteCall.Proofs.Migration.Stepwise
import RemoteCall.Proofs.Migration.Walk

/-!
# How migration fails

Where no converter is a function of one's own, an object on its way either meets the
field changes of all steps, one after the other, or comes to a step that is not told.
Field changes fail for want of a field only.  So an object ends in one of a few errors,
and so does a value, which fails to be migrated where one of its objects does.  None of
these errors says that the protocol is unknown.
-/

namespace RemoteCall

/-! ## Field changes -/

namespace FieldOp

variable {type : String} {op : FieldOp} {changes : List FieldOp} {fields : Fields}
  {e : MigrationError}

/-- Of the changes only a renaming can fail, for want of the field that it renames. -/
theorem exists_rename_of_downgrade (hfails : op.downgrade type fields = .error e) :
    ∃ source other, op = .rename source other ∧ e = .missingField type source := by
  cases op with
  | rename newer older =>
      rw [downgrade, move] at hfails
      split at hfails
      · cases hfails
        exact ⟨newer, older, rfl, rfl⟩
      · cases hfails
  | remove name default => cases hfails
  | add name default => cases hfails

theorem exists_rename_of_downgradeAll (hfails : downgradeAll type changes fields = .error e) :
    ∃ source other, .rename source other ∈ changes ∧ e = .missingField type source := by
  induction changes generalizing fields with
  | nil => cases hfails
  | cons op rest ih =>
      rw [downgradeAll_cons, Outcome.bind_eq_error_iff] at hfails
      rcases hfails with hop | ⟨between, -, hrest⟩
      · obtain ⟨source, other, rfl, rfl⟩ := exists_rename_of_downgrade hop
        exact ⟨source, other, List.mem_cons_self, rfl⟩
      · obtain ⟨source, other, hmem, rfl⟩ := ih hrest
        exact ⟨source, other, List.mem_cons_of_mem _ hmem, rfl⟩

end FieldOp

namespace Step

/-- No function of one's own converts fields here. -/
def Declared (step : Step) : Prop :=
  ∀ up down, step = .custom up down → up = Option.none ∧ down = Option.none

/-- Such a step is told by field changes, or not at all. -/
theorem Declared.isOps_or {step : Step} (hdeclared : step.Declared) (type : String) :
    step.IsOps ∨ step.down? type = Option.none ∧ step.up? type = Option.none := by
  cases step with
  | none => exact .inr ⟨rfl, rfl⟩
  | ops changes => exact .inl ⟨changes, rfl⟩
  | custom up down =>
      obtain ⟨rfl, rfl⟩ := hdeclared up down rfl
      exact .inr ⟨rfl, rfl⟩

end Step

/-! ## Ways through a history -/

namespace History

variable {history : History} {object : ObjectValue} {target goal start : UInt32}
  {type : String} {fields : Fields} {steps : List (UInt32 × VersionEntry)} {e : MigrationError}

theorem descend_eq_or (hdeclared : ∀ entry ∈ steps, entry.2.step.Declared) :
    descend type goal steps fields =
        FieldOp.downgradeAll type (steps.flatMap fun entry => entry.2.step.changes) fields ∨
      ∃ source target, descend type goal steps fields =
        .error (.noConversionPath type source target) := by
  induction steps generalizing fields with
  | nil => exact .inl rfl
  | cons entry rest ih =>
      obtain ⟨hentry, hrest⟩ := List.forall_mem_cons.mp hdeclared
      rcases hentry.isOps_or type with hops | ⟨hnone, -⟩
      · rw [List.flatMap_cons, FieldOp.downgradeAll_append, descend, hops.down?_eq type]
        dsimp only
        cases FieldOp.downgradeAll type entry.2.step.changes fields with
        | error e => exact .inl rfl
        | ok fields => exact ih hrest
      · rw [descend, hnone]
        exact .inr ⟨_, _, rfl⟩

theorem ascend_eq_or (hdeclared : ∀ entry ∈ steps, entry.2.step.Declared) :
    ascend type start steps fields =
        FieldOp.upgradeAll type (steps.reverse.flatMap fun entry => entry.2.step.changes)
          fields ∨
      ∃ source target, ascend type start steps fields =
        .error (.noConversionPath type source target) := by
  induction steps generalizing start fields with
  | nil => exact .inl rfl
  | cons entry rest ih =>
      obtain ⟨hentry, hrest⟩ := List.forall_mem_cons.mp hdeclared
      rcases hentry.isOps_or type with hops | ⟨-, hnone⟩
      · rw [List.reverse_cons, List.flatMap_append, List.flatMap_singleton,
          FieldOp.upgradeAll_append, ascend, hops.up?_eq type]
        dsimp only
        cases FieldOp.upgradeAll type entry.2.step.changes fields with
        | error e => exact .inl rfl
        | ok fields => exact ih hrest
      · rw [ascend, hnone]
        exact .inr ⟨_, _, rfl⟩

/-- No function of one's own converts objects of this type. -/
def Declared (history : History) : Prop :=
  ∀ entry ∈ history.versions.entries, entry.2.step.Declared

/-- The field changes on the way from one version to another, in the order in which they
are made.  Each is told from the side that the object comes from. -/
def way (history : History) (start goal : UInt32) : List FieldOp :=
  if goal ≤ start then history.changes goal start
  else FieldOp.inverseAll (history.changes start goal)

/-- An object meets the field changes on its way, or there is no way. -/
theorem migrate_eq_or (hdeclared : history.Declared)
    (hregistered : history.versions.contains object.version)
    (hgoal : history.atOrBelow? target = some goal) :
    history.migrate object target =
        (FieldOp.downgradeAll object.name (history.way object.version goal)
          object.fields).map (fun fields => ⟨object.name, goal, fields⟩) ∨
      ∃ source target', history.migrate object target =
        .error (.noConversionPath object.name source target') := by
  have hbelow : ∀ high low, ∀ entry ∈ history.below high low, entry.2.step.Declared :=
    fun high low entry hmem => hdeclared entry (mem_below.mp hmem).1
  rw [way]
  by_cases hle : goal ≤ object.version
  · rw [if_pos hle, migrate_of_ge hregistered hgoal hle]
    rcases descend_eq_or (hbelow object.version goal) with hdescend | ⟨source, target', hnone⟩
    · rw [hdescend]
      exact .inl rfl
    · rw [hnone]
      exact .inr ⟨source, target', rfl⟩
  · rw [if_neg hle, migrate_of_le hregistered hgoal (Std.le_of_lt (Std.not_le.mp hle)),
      above_eq_reverse_below]
    have hsteps := fun entry hmem => hbelow goal object.version entry (List.mem_reverse.mp hmem)
    rcases ascend_eq_or hsteps with hascend | ⟨source, target', hnone⟩
    · rw [hascend, List.reverse_reverse, FieldOp.upgradeAll_eq_downgradeAll]
      exact .inl rfl
    · rw [hnone]
      exact .inr ⟨source, target', rfl⟩

/-- Why an object does not arrive: its version is not registered, there is no way to the
target, or a renaming on the way wants for the field that it takes. -/
inductive FailsWith (history : History) (object : ObjectValue) (target : UInt32) :
    MigrationError → Prop where
  | unknownVersion (hunknown : ¬ history.versions.contains object.version) :
      FailsWith history object target (.unknownVersion object.name object.version)
  | noConversionPath (source goal : UInt32) :
      FailsWith history object target (.noConversionPath object.name source goal)
  | missingField {goal : UInt32} (hgoal : IsGreatest (history.upTo target) goal)
      {field other : String} (hrename : .rename field other ∈ history.way object.version goal) :
      FailsWith history object target (.missingField object.name field)

theorem failsWith_of_migrate (hdeclared : history.Declared)
    (hfails : history.migrate object target = .error e) : history.FailsWith object target e := by
  by_cases hregistered : history.versions.contains object.version
  case neg =>
    simp only [migrate, if_neg hregistered] at hfails
    cases hfails
    exact .unknownVersion hregistered
  cases hgoal : history.atOrBelow? target with
  | none =>
      simp only [migrate, if_pos hregistered, hgoal] at hfails
      cases hfails
      exact .noConversionPath _ _
  | some goal =>
      rcases migrate_eq_or hdeclared hregistered hgoal with hway | ⟨source, target', hnone⟩
      · rw [hway, Outcome.map_eq_error_iff] at hfails
        obtain ⟨field, other, hrename, rfl⟩ := FieldOp.exists_rename_of_downgradeAll hfails
        exact .missingField (isGreatest_upTo_iff.mpr hgoal) hrename
      · cases hnone.symm.trans hfails
        exact .noConversionPath source target'

end History

/-! ## Values -/

/-- No function of one's own converts objects of a registered type. -/
def TypeRegistry.Declared (registry : TypeRegistry) : Prop :=
  ∀ name history, registry.history? name = some history →
    ∀ entry ∈ history.versions.entries, entry.2.step.Declared

/-- The errors that a value on its way ends in where no converter is a function of one's
own. -/
inductive MigrationError.OfValue : MigrationError → Prop where
  | typeNotInProtocol (type : String) : OfValue (.typeNotInProtocol type)
  | noConversionPath (type : String) (source target : UInt32) :
      OfValue (.noConversionPath type source target)
  | unknownVersion (type : String) (version : UInt32) : OfValue (.unknownVersion type version)
  | missingField (type field : String) : OfValue (.missingField type field)
  | endlessNesting (type : String) : OfValue (.endlessNesting type)

namespace MigrationEngine

variable {engine : MigrationEngine} {target : Target} {e : MigrationError}

theorem exists_of_walkItems_eq_error {walk : Value → Except MigrationError Value}
    {items : List Value} (hfails : walkItems walk items = .error e) :
    ∃ item ∈ items, walk item = .error e := by
  induction items with
  | nil => cases hfails
  | cons item rest ih =>
      rw [walkItems] at hfails
      split at hfails
      · rename_i hitem
        cases hfails
        exact ⟨item, List.mem_cons_self, hitem⟩
      · split at hfails
        · rename_i hrest
          cases hfails
          obtain ⟨other, hmem, hother⟩ := ih hrest
          exact ⟨other, List.mem_cons_of_mem _ hmem, hother⟩
        · cases hfails

theorem ofValue_of_migrateObject (hdeclared : engine.registry.Declared) {object : ObjectValue}
    (hfails : engine.migrateObject target object = .error e) : e.OfValue := by
  rw [migrateObject] at hfails
  split at hfails
  · cases hfails
  · rename_i history hhistory
    have hsteps := hdeclared object.name history hhistory
    split at hfails
    · rename_i hgoal
      cases hfails
      cases target with
      | latest => cases hgoal
      | versions versions =>
          rw [goal] at hgoal
          split at hgoal
          · cases hgoal
          · cases hgoal
            exact .typeNotInProtocol _
    · cases History.failsWith_of_migrate hsteps hfails with
      | unknownVersion hunknown => exact .unknownVersion _ _
      | noConversionPath source goal => exact .noConversionPath _ _ _
      | missingField hgoal hrename => exact .missingField _ _

theorem ofValue_of_walk (hdeclared : engine.registry.Declared) {fuel : Nat} {value : Value}
    (hfails : engine.walk target fuel value = .error e) : e.OfValue := by
  induction fuel generalizing value with
  | zero =>
      rcases value.shape with ⟨items, rfl⟩ | ⟨entries, rfl⟩ | ⟨object, rfl⟩ | hdepth
      · cases hfails
        exact .endlessNesting _
      · cases hfails
        exact .endlessNesting _
      · cases hfails
        exact .endlessNesting _
      · rw [walk_of_depth_eq_zero hdepth] at hfails
        cases hfails
  | succ fuel ih =>
      rcases value.shape with ⟨items, rfl⟩ | ⟨entries, rfl⟩ | ⟨object, rfl⟩ | hdepth
      · rw [walk_succ_list, Outcome.map_eq_error_iff] at hfails
        obtain ⟨item, -, hitem⟩ := exists_of_walkItems_eq_error hfails
        exact ih hitem
      · rw [walk_succ_map, Outcome.map_eq_error_iff] at hfails
        obtain ⟨entry, -, hentry⟩ := Entries.exists_of_traverse_eq_error hfails
        exact ih hentry
      · rw [walk_succ_object] at hfails
        split at hfails
        · rename_i hobject
          cases hfails
          exact ofValue_of_migrateObject hdeclared hobject
        · rw [Outcome.map_eq_error_iff] at hfails
          obtain ⟨entry, -, hentry⟩ := Entries.exists_of_traverse_eq_error hfails
          exact ih hentry
      · rw [walk_of_depth_eq_zero hdepth] at hfails
        cases hfails

theorem ofValue_of_migrateValue_upgrade (hdeclared : engine.registry.Declared)
    {protocol : ProtocolVersion} {value : Value}
    (hfails : engine.migrateValue .upgrade protocol value = .error e) : e.OfValue :=
  ofValue_of_walk hdeclared hfails

/-- The engine can tell which versions the protocol understands. -/
def Speaks (engine : MigrationEngine) (protocol : ProtocolVersion) : Prop :=
  ∃ versions, engine.objectVersions protocol = .ok versions

/-- The protocols that can be spoken are those that are offered. -/
theorem speaks_iff_mem_supported {protocol : ProtocolVersion} :
    engine.Speaks protocol ↔ protocol ∈ engine.data.supported := by
  cases protocol with
  | dev => exact iff_of_true ⟨_, rfl⟩ (List.mem_append_right _ List.mem_cons_self)
  | stable n =>
      have hmem : ProtocolVersion.stable n ∈ engine.data.supported ↔
          n ∈ engine.data.protocols.keys := by
        simp [DataProtocol.supported]
      rw [hmem, ← SortedMap.contains_iff_mem_keys, Speaks, objectVersions,
        DataProtocol.objectVersions, SortedMap.contains]
      cases engine.data.protocols.get? n with
      | none => simp
      | some versions => simp

theorem ofValue_of_migrateArguments (hdeclared : engine.registry.Declared)
    {protocol : ProtocolVersion} (hspeaks : engine.Speaks protocol) {direction : Direction}
    {arguments : Arguments}
    (hfails : engine.migrateArguments direction protocol arguments = .error e) : e.OfValue := by
  rw [migrateArguments] at hfails
  split at hfails
  · rename_i htarget
    obtain ⟨versions, hversions⟩ := hspeaks
    cases direction with
    | upgrade => cases htarget
    | downgrade => rw [MigrationEngine.target, hversions] at htarget; cases htarget
  · split at hfails
    · rename_i hargs
      cases hfails
      obtain ⟨value, -, hvalue⟩ := exists_of_walkItems_eq_error hargs
      exact ofValue_of_walk hdeclared hvalue
    · split at hfails
      · rename_i hkwargs
        cases hfails
        obtain ⟨entry, -, hentry⟩ := SortedMap.exists_of_traverse_eq_error hkwargs
        exact ofValue_of_walk hdeclared hentry
      · cases hfails

end MigrationEngine

end RemoteCall
