import RemoteCall.Proofs.Outcome
import RemoteCall.Proofs.SortedMap
import RemoteCall.Proofs.Value.Parts

/-!
# The walk through a value

Each part of a value is walked on its own, an object after it was brought to its
version.  The walk goes as many levels down as the value that comes out has, so
any room for that depth gives the same value.
-/

namespace RemoteCall.MigrationEngine

variable {engine : MigrationEngine} {target : Target} {fuel : Nat} {value value' : Value}

/-- Entries whose values are walked one by one. -/
abbrev WalkedEntries (engine : MigrationEngine) (target : Target) (fuel : Nat) :
    List (String × Value) → List (String × Value) → Prop :=
  List.Forall₂ (Entries.SameKey fun _ value value' =>
    engine.walk target fuel value = .ok value')

theorem walkItems_eq_ok_iff {walk : Value → Except MigrationError Value}
    {items items' : List Value} :
    walkItems walk items = .ok items' ↔
      List.Forall₂ (fun item item' => walk item = .ok item') items items' := by
  induction items generalizing items' with
  | nil => cases items' <;> simp [walkItems]
  | cons item rest ih =>
      cases hhead : walk item with
      | error e => cases items' <;> simp [walkItems, hhead]
      | ok head =>
          cases htail : walkItems walk rest with
          | error e => cases items' <;> simp [walkItems, hhead, htail, ← ih]
          | ok tail => cases items' <;> simp [walkItems, hhead, htail, ← ih]

/-! ## One level -/

variable {items : List Value} {entries : List (String × Value)} {object : ObjectValue}

theorem walk_zero_list : engine.walk target 0 (.list items) = .error (.endlessNesting "list") :=
  rfl

theorem walk_succ_list :
    engine.walk target (fuel + 1) (.list items) =
      (walkItems (engine.walk target fuel) items).map .list :=
  rfl

theorem walk_zero_map : engine.walk target 0 (.map entries) = .error (.endlessNesting "dict") :=
  rfl

theorem walk_succ_map :
    engine.walk target (fuel + 1) (.map entries) =
      (Entries.traverse (fun _ value => engine.walk target fuel value) entries).map .map :=
  rfl

theorem walk_zero_object :
    engine.walk target 0 (.object object) = .error (.endlessNesting object.name) :=
  rfl

theorem walk_succ_object :
    engine.walk target (fuel + 1) (.object object) =
      match engine.migrateObject target object with
      | .error e => .error e
      | .ok object =>
        (Entries.traverse (fun _ value => engine.walk target fuel value) object.fields).map
          fun fields => .object { object with fields } :=
  rfl

theorem walk_list_eq_ok_iff :
    engine.walk target fuel (.list items) = .ok value' ↔
      ∃ below items', fuel = below + 1 ∧ value' = .list items' ∧
        List.Forall₂ (fun item item' => engine.walk target below item = .ok item')
          items items' := by
  cases fuel with
  | zero => simp [walk_zero_list]
  | succ below =>
      simp only [walk_succ_list, Outcome.map_eq_ok_iff, walkItems_eq_ok_iff]
      constructor
      · rintro ⟨items', hitems, rfl⟩
        exact ⟨below, items', rfl, rfl, hitems⟩
      · rintro ⟨_, items', ⟨⟩, rfl, hitems⟩
        exact ⟨items', hitems, rfl⟩

theorem walk_map_eq_ok_iff :
    engine.walk target fuel (.map entries) = .ok value' ↔
      ∃ below entries', fuel = below + 1 ∧ value' = .map entries' ∧
        engine.WalkedEntries target below entries entries' := by
  cases fuel with
  | zero => simp [walk_zero_map]
  | succ below =>
      simp only [walk_succ_map, Outcome.map_eq_ok_iff, Entries.traverse_eq_ok_iff]
      constructor
      · rintro ⟨entries', hentries, rfl⟩
        exact ⟨below, entries', rfl, rfl, hentries⟩
      · rintro ⟨_, entries', ⟨⟩, rfl, hentries⟩
        exact ⟨entries', hentries, rfl⟩

theorem walk_object_eq_ok_iff :
    engine.walk target fuel (.object object) = .ok value' ↔
      ∃ below object' fields', fuel = below + 1 ∧
        engine.migrateObject target object = .ok object' ∧
        value' = .object { object' with fields := fields' } ∧
        engine.WalkedEntries target below object'.fields fields' := by
  cases fuel with
  | zero => simp [walk_zero_object]
  | succ below =>
      rw [walk_succ_object]
      cases hobject : engine.migrateObject target object with
      | error e => simp
      | ok object' =>
          simp only [Outcome.map_eq_ok_iff, Entries.traverse_eq_ok_iff]
          constructor
          · rintro ⟨fields', hfields, rfl⟩
            exact ⟨below, object', fields', rfl, rfl, rfl, hfields⟩
          · rintro ⟨_, _, fields', ⟨⟩, ⟨⟩, rfl, hfields⟩
            exact ⟨fields', hfields, rfl⟩

theorem walk_of_depth_eq_zero (hdepth : value.depth = 0) :
    engine.walk target fuel value = .ok value := by
  cases value with
  | list items => simp [Value.depth] at hdepth
  | map entries => simp [Value.depth] at hdepth
  | object object => simp [Value.depth] at hdepth
  | _ => cases fuel <;> rfl

theorem walk_zero_eq_ok (hwalk : engine.walk target 0 value = .ok value') :
    value.depth = 0 := by
  rcases value.shape with ⟨items, rfl⟩ | ⟨entries, rfl⟩ | ⟨object, rfl⟩ | hdepth
  · simp [walk_zero_list] at hwalk
  · simp [walk_zero_map] at hwalk
  · simp [walk_zero_object] at hwalk
  · exact hdepth

/-- The walk goes as many levels down as the result has. -/
theorem depth_le_of_walk (hwalk : engine.walk target fuel value = .ok value') :
    value'.depth ≤ fuel := by
  induction fuel generalizing value value' with
  | zero =>
      have hdepth := walk_zero_eq_ok hwalk
      rw [walk_of_depth_eq_zero hdepth] at hwalk
      cases hwalk
      exact Nat.le_of_eq hdepth
  | succ fuel ih =>
      have hentries : ∀ {entries entries' : List (String × Value)},
          engine.WalkedEntries target fuel entries entries' →
            ∀ entry' ∈ entries', entry'.2.depth ≤ fuel := by
        intro entries entries' hwalked entry' hmem
        obtain ⟨entry, -, -, hentry⟩ := exists_left_of_mem hwalked hmem
        exact ih hentry
      rcases value.shape with ⟨items, rfl⟩ | ⟨entries, rfl⟩ | ⟨object, rfl⟩ | hdepth
      · obtain ⟨_, items', ⟨⟩, rfl, hitems⟩ := walk_list_eq_ok_iff.mp hwalk
        rw [Value.depth_list_le_iff]
        intro item' hmem
        obtain ⟨item, -, hitem⟩ := exists_left_of_mem hitems hmem
        exact ih hitem
      · obtain ⟨_, entries', ⟨⟩, rfl, hwalked⟩ := walk_map_eq_ok_iff.mp hwalk
        rw [Value.depth_map_le_iff]
        exact hentries hwalked
      · obtain ⟨_, object', fields', ⟨⟩, -, rfl, hwalked⟩ := walk_object_eq_ok_iff.mp hwalk
        rw [Value.depth_object_le_iff]
        exact hentries hwalked
      · rw [walk_of_depth_eq_zero hdepth] at hwalk
        cases hwalk
        omega

/-- A walk that comes to an end comes to it in any room for the result. -/
theorem walk_of_depth_le {room : Nat} (hwalk : engine.walk target fuel value = .ok value')
    (hroom : value'.depth ≤ room) : engine.walk target room value = .ok value' := by
  -- On the room and not on the old bound: the result has a depth at every level,
  -- and the old bound may be greater or smaller.
  induction room generalizing fuel value value' with
  | zero =>
      rcases value.shape with ⟨items, rfl⟩ | ⟨entries, rfl⟩ | ⟨object, rfl⟩ | hdepth
      · obtain ⟨_, items', -, rfl, -⟩ := walk_list_eq_ok_iff.mp hwalk
        simp [Value.depth] at hroom
      · obtain ⟨_, entries', -, rfl, -⟩ := walk_map_eq_ok_iff.mp hwalk
        simp [Value.depth] at hroom
      · obtain ⟨_, object', fields', -, -, rfl, -⟩ := walk_object_eq_ok_iff.mp hwalk
        simp [Value.depth] at hroom
      · rw [walk_of_depth_eq_zero hdepth] at hwalk ⊢
        exact hwalk
  | succ room ih =>
      have hentries : ∀ {below : Nat} {entries entries' : List (String × Value)},
          engine.WalkedEntries target below entries entries' →
            (∀ entry' ∈ entries', entry'.2.depth ≤ room) →
              engine.WalkedEntries target room entries entries' := by
        intro below entries entries' hwalked hdepths
        refine forall₂_of_mem hwalked fun entry _ entry' hmem hentry => ?_
        exact ⟨hentry.1, ih hentry.2 (hdepths entry' hmem)⟩
      rcases value.shape with ⟨items, rfl⟩ | ⟨entries, rfl⟩ | ⟨object, rfl⟩ | hdepth
      · obtain ⟨_, items', -, rfl, hitems⟩ := walk_list_eq_ok_iff.mp hwalk
        rw [Value.depth_list_le_iff] at hroom
        refine walk_list_eq_ok_iff.mpr ⟨room, items', rfl, rfl, ?_⟩
        exact forall₂_of_mem hitems fun _ _ item' hmem hitem => ih hitem (hroom item' hmem)
      · obtain ⟨_, entries', -, rfl, hwalked⟩ := walk_map_eq_ok_iff.mp hwalk
        rw [Value.depth_map_le_iff] at hroom
        exact walk_map_eq_ok_iff.mpr ⟨room, entries', rfl, rfl, hentries hwalked hroom⟩
      · obtain ⟨_, object', fields', -, hobject, rfl, hwalked⟩ :=
          walk_object_eq_ok_iff.mp hwalk
        rw [Value.depth_object_le_iff] at hroom
        exact walk_object_eq_ok_iff.mpr
          ⟨room, object', fields', rfl, hobject, rfl, hentries hwalked hroom⟩
      · rw [walk_of_depth_eq_zero hdepth] at hwalk ⊢
        exact hwalk

/-! ## Arguments -/

/-- Arguments are brought to one target one by one, each in its place. -/
theorem exists_target_of_migrateArguments {direction : Direction} {protocol : ProtocolVersion}
    {arguments migrated : Arguments}
    (hmigrate : engine.migrateArguments direction protocol arguments = .ok migrated) :
    ∃ target, engine.target direction protocol = .ok target ∧
      List.Forall₂ (fun value value' => engine.migrateTo target value = .ok value')
        arguments.args migrated.args ∧
      ∀ name, Option.Rel (fun value value' => engine.migrateTo target value = .ok value')
        (arguments.kwargs.get? name) (migrated.kwargs.get? name) := by
  rw [migrateArguments] at hmigrate
  split at hmigrate
  · cases hmigrate
  · rename_i target htarget
    split at hmigrate
    · cases hmigrate
    · rename_i hargs
      split at hmigrate
      · cases hmigrate
      · rename_i hkwargs
        cases hmigrate
        exact ⟨target, htarget, walkItems_eq_ok_iff.mp hargs,
          fun _ => SortedMap.get?_of_traverse hkwargs⟩

/-- Arguments are migrated one by one, each in its place. -/
theorem migrateArguments_eq_ok {direction : Direction} {protocol : ProtocolVersion}
    {arguments migrated : Arguments}
    (hmigrate : engine.migrateArguments direction protocol arguments = .ok migrated) :
    ∃ target,
      List.Forall₂ (fun value value' => engine.migrateTo target value = .ok value')
        arguments.args migrated.args ∧
      ∀ name, Option.Rel (fun value value' => engine.migrateTo target value = .ok value')
        (arguments.kwargs.get? name) (migrated.kwargs.get? name) := by
  obtain ⟨target, -, hwalked⟩ := exists_target_of_migrateArguments hmigrate
  exact ⟨target, hwalked⟩

/-- For a known target a value alone is brought to it. -/
theorem migrateValue_eq_migrateTo {direction : Direction} {protocol : ProtocolVersion}
    {target : Target} (htarget : engine.target direction protocol = .ok target) :
    engine.migrateValue direction protocol = engine.migrateTo target := by
  funext value
  rw [migrateValue, htarget]

/-- An argument is migrated like a value that stands alone. -/
theorem migrateValue_of_migrateArguments {direction : Direction} {protocol : ProtocolVersion}
    {arguments migrated : Arguments}
    (hmigrate : engine.migrateArguments direction protocol arguments = .ok migrated) :
    List.Forall₂ (fun value value' => engine.migrateValue direction protocol value = .ok value')
        arguments.args migrated.args ∧
      ∀ name, Option.Rel
        (fun value value' => engine.migrateValue direction protocol value = .ok value')
        (arguments.kwargs.get? name) (migrated.kwargs.get? name) := by
  obtain ⟨target, htarget, hwalked⟩ := exists_target_of_migrateArguments hmigrate
  rw [migrateValue_eq_migrateTo htarget]
  exact hwalked

theorem migrateTo_of_depth_eq_zero (hdepth : value.depth = 0) :
    engine.migrateTo target value = .ok value :=
  walk_of_depth_eq_zero hdepth

/-- A remote object has nothing to migrate. -/
theorem eq_of_migrateValue_remote {direction : Direction} {protocol : ProtocolVersion}
    {object : RemoteObject}
    (hmigrate : engine.migrateValue direction protocol (.remote object) = .ok value) :
    value = .remote object := by
  rw [migrateValue] at hmigrate
  split at hmigrate
  · cases hmigrate
  · rw [migrateTo_of_depth_eq_zero rfl] at hmigrate
    cases hmigrate
    rfl

/-- Only a remote object becomes one. -/
theorem eq_of_migrateValue_eq_remote {direction : Direction} {protocol : ProtocolVersion}
    {object : RemoteObject}
    (hmigrate : engine.migrateValue direction protocol value = .ok (.remote object)) :
    value = .remote object := by
  rw [migrateValue] at hmigrate
  split at hmigrate
  · cases hmigrate
  · rcases value.shape with ⟨items, rfl⟩ | ⟨entries, rfl⟩ | ⟨object, rfl⟩ | hdepth
    · obtain ⟨_, _, -, heq, -⟩ := walk_list_eq_ok_iff.mp hmigrate
      cases heq
    · obtain ⟨_, _, -, heq, -⟩ := walk_map_eq_ok_iff.mp hmigrate
      cases heq
    · obtain ⟨_, _, _, -, -, heq, -⟩ := walk_object_eq_ok_iff.mp hmigrate
      cases heq
    · rw [migrateTo_of_depth_eq_zero hdepth] at hmigrate
      cases hmigrate
      rfl

end RemoteCall.MigrationEngine
