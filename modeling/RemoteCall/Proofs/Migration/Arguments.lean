import RemoteCall.Proofs.Migration.Failure
import RemoteCall.Proofs.Signature.FirstFault

/-!
# Arguments one by one

The arguments of a call are migrated together: what they are brought to is looked up once
for all of them.  A value that stands alone has it looked up for itself.  The two agree.
Arguments are migrated if each of them is as a value alone, and then each in its place;
otherwise the error is that of the first one, positional arguments before named ones.  A
protocol that is not known is an error of its own, which needs no arguments.
-/

namespace RemoteCall

open Outcome (inTurn IsFirst)

/-! ## The first failure -/

namespace Entries

variable {κ β γ ε : Type} {f : κ → β → Except ε γ} {entries : List (κ × β)} {e : ε}

/-- Values are replaced like checks are made, one after the other. -/
theorem traverse_eq_error_iff_inTurn :
    traverse f entries = .error e ↔
      inTurn (entries.map fun entry => (entry.1, (f entry.1 entry.2).map fun _ => ())) =
        .error e := by
  induction entries with
  | nil => simp [traverse, inTurn]
  | cons entry rest ih =>
      rw [traverse, List.map_cons]
      cases f entry.1 entry.2 with
      | error e' =>
          change Except.error e' = Except.error e ↔ Except.error e' = Except.error e
          simp
      | ok value =>
          change _ ↔ inTurn (rest.map _) = .error e
          rw [← ih]
          cases traverse f rest <;> simp

/-- Where the keys ascend the error is that of the least key whose value fails. -/
theorem traverse_eq_error_iff (lt : κ → κ → Prop)
    (hasymm : ∀ key other, lt key other → ¬ lt other key)
    (hascending : entries.Pairwise fun entry other => lt entry.1 other.1) :
    traverse f entries = .error e ↔
      IsFirst lt (fun key e => ∃ value, (key, value) ∈ entries ∧ f key value = .error e) e := by
  have hfault : (fun key e => (key, Except.error e) ∈
      entries.map fun entry => (entry.1, (f entry.1 entry.2).map fun _ => ())) =
        fun key e => ∃ value, (key, value) ∈ entries ∧ f key value = .error e := by
    funext key e
    simp [Outcome.map_eq_error_iff]
  rw [traverse_eq_error_iff_inTurn,
    Outcome.inTurn_eq_error_iff hasymm (List.pairwise_map.mpr hascending), hfault]

end Entries

namespace SortedMap

theorem traverse_eq_ok_iff {κ β γ ε : Type} [Ord κ] {f : κ → β → Except ε γ}
    {map : SortedMap κ β} {map' : SortedMap κ γ} :
    map.traverse f = .ok map' ↔
      List.Forall₂ (Entries.SameKey fun key value value' => f key value = .ok value')
        map.entries map'.entries := by
  rw [← Entries.traverse_eq_ok_iff, traverse]
  split <;> rename_i hentries
  · simp [hentries]
  · simp [hentries, SortedMap.ext_iff]

/-- Of the names whose values fail the one that comes first by its bytes is told. -/
theorem traverse_eq_error_iff {β γ ε : Type} {f : String → β → Except ε γ}
    {map : SortedMap String β} {e : ε} :
    map.traverse f = .error e ↔
      IsFirst (fun name other => name.toUTF8.toList < other.toUTF8.toList)
        (fun name e => ∃ value, map.get? name = some value ∧ f name value = .error e) e := by
  have hascending : map.entries.Pairwise fun entry other =>
      entry.1.toUTF8.toList < other.1.toUTF8.toList :=
    map.ascending.imp Text.toUTF8_lt_of_compare
  have hentries : map.traverse f = .error e ↔ Entries.traverse f map.entries = .error e := by
    rw [traverse]
    split <;> rename_i hentries <;> simp [hentries]
  have hfirst := Entries.traverse_eq_error_iff (f := f) (e := e)
    (fun name other => name.toUTF8.toList < other.toUTF8.toList)
    (fun _ _ => List.lt_asymm) hascending
  simpa only [hentries, mem_entries_iff] using hfirst

end SortedMap

namespace MigrationEngine

/-- Items are walked like entries, whatever keys these stand under. -/
theorem walkItems_eq_traverse {κ : Type} {walk : Value → Except MigrationError Value}
    (items : List Value) (key : Nat → κ) :
    walkItems walk items =
      (Entries.traverse (fun _ item => walk item)
        (items.mapIdx fun place item => (key place, item))).map (List.map Prod.snd) := by
  induction items generalizing key with
  | nil => rfl
  | cons item rest ih =>
      rw [walkItems, List.mapIdx_cons, Entries.traverse]
      cases walk item with
      | error e => rfl
      | ok item' =>
          rw [ih fun place => key (place + 1)]
          dsimp only
          cases Entries.traverse _ _ <;> rfl

/-- Of the items that fail the one at the least place is told. -/
theorem walkItems_eq_error_iff {walk : Value → Except MigrationError Value}
    {items : List Value} {e : MigrationError} :
    walkItems walk items = .error e ↔
      IsFirst (· < ·)
        (fun (place : Nat) e => ∃ item, items[place]? = some item ∧ walk item = .error e) e := by
  have hascending : (items.mapIdx fun place item => (place, item)).Pairwise
      fun entry other => entry.1 < other.1 := by
    apply List.pairwise_iff_getElem.mpr
    intro place other hplace hother hlt
    simpa using hlt
  have hmem : ∀ place item, (place, item) ∈ items.mapIdx (fun place item => (place, item)) ↔
      items[place]? = some item := by
    intro place item
    simp [List.mem_mapIdx, List.getElem?_eq_some_iff]
  rw [walkItems_eq_traverse items id, Outcome.map_eq_error_iff]
  have hfirst := Entries.traverse_eq_error_iff (f := fun _ item => walk item) (e := e)
    (· < ·) (fun _ _ => Nat.lt_asymm) hascending
  simpa only [hmem, id_eq] using hfirst

/-- All items can be walked just when none of them fails. -/
theorem exists_walkItems_iff {walk : Value → Except MigrationError Value}
    {items : List Value} :
    (∃ items', walkItems walk items = .ok items') ↔
      ∀ (place : Nat) e, ¬ ∃ item, items[place]? = some item ∧ walk item = .error e := by
  constructor
  · rintro ⟨items', hitems⟩ place e ⟨item, hitem, hfails⟩
    obtain ⟨item', -, hwalk⟩ := exists_right_of_getElem? (walkItems_eq_ok_iff.mp hitems) hitem
    cases hfails.symm.trans hwalk
  · intro hnone
    cases hitems : walkItems walk items with
    | ok items' => exact ⟨items', rfl⟩
    | error e =>
        obtain ⟨place, hfails, -⟩ := walkItems_eq_error_iff.mp hitems
        exact absurd hfails (hnone place e)

/-! ## What arguments are brought to -/

variable {engine : MigrationEngine} {direction : Direction} {protocol : ProtocolVersion}
  {arguments migrated : Arguments} {e : MigrationError}

/-- It is known what values are brought to: on their way in it always is, and on their way
out if the protocol is one of those that can be spoken. -/
def Knows (engine : MigrationEngine) (direction : Direction) (protocol : ProtocolVersion) :
    Prop :=
  direction = .upgrade ∨ protocol ∈ engine.data.supported

theorem exists_target_iff :
    (∃ target, engine.target direction protocol = .ok target) ↔
      engine.Knows direction protocol := by
  cases direction with
  | upgrade => exact iff_of_true ⟨.latest, rfl⟩ (.inl rfl)
  | downgrade => simp [target, Outcome.map_eq_ok_iff, Knows, ← speaks_iff_mem_supported, Speaks]

theorem objectVersions_eq_error (hfails : engine.objectVersions protocol = .error e) :
    e = .unknownProtocol protocol := by
  cases protocol with
  | dev => cases hfails
  | stable n =>
      rw [objectVersions, DataProtocol.objectVersions] at hfails
      split at hfails <;> cases hfails
      rfl

theorem target_eq_error_iff :
    engine.target direction protocol = .error e ↔
      ¬ engine.Knows direction protocol ∧ e = .unknownProtocol protocol := by
  rw [← exists_target_iff]
  cases htarget : engine.target direction protocol with
  | ok target => simp
  | error e' =>
      cases direction with
      | upgrade => cases htarget
      | downgrade =>
          cases objectVersions_eq_error (Outcome.map_eq_error_iff.mp htarget)
          simp [eq_comm]

theorem migrateArguments_eq_bind (hknows : engine.Knows direction protocol) :
    engine.migrateArguments direction protocol arguments =
      (walkItems (engine.migrateValue direction protocol) arguments.args).bind fun args =>
        (arguments.kwargs.traverse fun _ value =>
          engine.migrateValue direction protocol value).map fun kwargs => ⟨args, kwargs⟩ := by
  obtain ⟨target, htarget⟩ := exists_target_iff.mpr hknows
  rw [migrateArguments, htarget, migrateValue_eq_migrateTo htarget]
  dsimp only
  cases walkItems (engine.migrateTo target) arguments.args with
  | error e => rfl
  | ok args =>
      simp only [Except.bind]
      cases arguments.kwargs.traverse fun _ value => engine.migrateTo target value <;> rfl

theorem migrateArguments_of_not_knows (hknows : ¬ engine.Knows direction protocol) :
    engine.migrateArguments direction protocol arguments =
      .error (.unknownProtocol protocol) := by
  rw [migrateArguments, target_eq_error_iff.mpr ⟨hknows, rfl⟩]

/-! ## Value by value -/

/-- Every argument was migrated as a value alone, in its place or under its name. -/
structure MigratedEach (engine : MigrationEngine) (direction : Direction)
    (protocol : ProtocolVersion) (arguments migrated : Arguments) : Prop where
  args : List.Forall₂ (fun value value' => engine.migrateValue direction protocol value =
    .ok value') arguments.args migrated.args
  kwargs : List.Forall₂ (Entries.SameKey fun _ value value' =>
    engine.migrateValue direction protocol value = .ok value')
      arguments.kwargs.entries migrated.kwargs.entries

/-- The positional argument at the place fails as a value alone. -/
def PlaceFails (engine : MigrationEngine) (direction : Direction) (protocol : ProtocolVersion)
    (arguments : Arguments) (place : Nat) (e : MigrationError) : Prop :=
  ∃ value, arguments.args[place]? = some value ∧
    engine.migrateValue direction protocol value = .error e

/-- The argument of the name fails as a value alone. -/
def NameFails (engine : MigrationEngine) (direction : Direction) (protocol : ProtocolVersion)
    (arguments : Arguments) (name : String) (e : MigrationError) : Prop :=
  ∃ value, arguments.kwargs.get? name = some value ∧
    engine.migrateValue direction protocol value = .error e

theorem migrateArguments_eq_ok_iff :
    engine.migrateArguments direction protocol arguments = .ok migrated ↔
      engine.Knows direction protocol ∧
        MigratedEach engine direction protocol arguments migrated := by
  by_cases hknows : engine.Knows direction protocol
  · rw [migrateArguments_eq_bind hknows, Outcome.bind_eq_ok_iff]
    simp only [Outcome.map_eq_ok_iff, walkItems_eq_ok_iff, SortedMap.traverse_eq_ok_iff]
    constructor
    · rintro ⟨args, hargs, kwargs, hkwargs, rfl⟩
      exact ⟨hknows, hargs, hkwargs⟩
    · rintro ⟨-, hargs, hkwargs⟩
      exact ⟨migrated.args, hargs, migrated.kwargs, hkwargs, rfl⟩
  · simp [migrateArguments_of_not_knows hknows, hknows]

theorem migrateArguments_eq_error_iff :
    engine.migrateArguments direction protocol arguments = .error e ↔
      ¬ engine.Knows direction protocol ∧ e = .unknownProtocol protocol ∨
        engine.Knows direction protocol ∧
          (IsFirst (· < ·) (engine.PlaceFails direction protocol arguments) e ∨
            (∀ place e', ¬ engine.PlaceFails direction protocol arguments place e') ∧
              IsFirst (fun name other => name.toUTF8.toList < other.toUTF8.toList)
                (engine.NameFails direction protocol arguments) e) := by
  by_cases hknows : engine.Knows direction protocol
  · rw [migrateArguments_eq_bind hknows, Outcome.bind_eq_error_iff]
    simp only [Outcome.map_eq_error_iff, SortedMap.traverse_eq_error_iff, exists_and_right,
      exists_walkItems_iff, walkItems_eq_error_iff, hknows, not_true, false_and, true_and,
      false_or]
    rfl
  · simp [migrateArguments_of_not_knows hknows, hknows, eq_comm]

/-- Each of the arguments can be migrated as a value alone. -/
def EachMigrates (engine : MigrationEngine) (direction : Direction)
    (protocol : ProtocolVersion) (arguments : Arguments) : Prop :=
  (∀ value ∈ arguments.args, ∃ value', engine.migrateValue direction protocol value = .ok value') ∧
    ∀ name value, arguments.kwargs.get? name = some value →
      ∃ value', engine.migrateValue direction protocol value = .ok value'

theorem MigratedEach.eachMigrates
    (heach : MigratedEach engine direction protocol arguments migrated) :
    engine.EachMigrates direction protocol arguments := by
  constructor
  · intro value hmem
    obtain ⟨value', -, hvalue⟩ := exists_left_of_mem heach.args.flip hmem
    exact ⟨value', hvalue⟩
  · intro name value hfound
    obtain ⟨entry', -, -, hvalue⟩ :=
      exists_left_of_mem heach.kwargs.flip (SortedMap.mem_entries_iff.mpr hfound)
    exact ⟨entry'.2, hvalue⟩

theorem EachMigrates.not_placeFails (heach : engine.EachMigrates direction protocol arguments)
    (place : Nat) : ¬ engine.PlaceFails direction protocol arguments place e := by
  rintro ⟨value, hvalue, hfails⟩
  obtain ⟨value', hok⟩ := heach.1 value (List.mem_of_getElem? hvalue)
  cases hfails.symm.trans hok

theorem EachMigrates.not_nameFails (heach : engine.EachMigrates direction protocol arguments)
    (name : String) : ¬ engine.NameFails direction protocol arguments name e := by
  rintro ⟨value, hvalue, hfails⟩
  obtain ⟨value', hok⟩ := heach.2 name value hvalue
  cases hfails.symm.trans hok

theorem exists_migrateArguments_iff :
    (∃ migrated, engine.migrateArguments direction protocol arguments = .ok migrated) ↔
      engine.Knows direction protocol ∧ engine.EachMigrates direction protocol arguments := by
  constructor
  · rintro ⟨migrated, hmigrated⟩
    obtain ⟨hknows, heach⟩ := migrateArguments_eq_ok_iff.mp hmigrated
    exact ⟨hknows, heach.eachMigrates⟩
  · rintro ⟨hknows, heach⟩
    cases hmigrated : engine.migrateArguments direction protocol arguments with
    | ok migrated => exact ⟨migrated, rfl⟩
    | error e =>
        rcases migrateArguments_eq_error_iff.mp hmigrated with
          ⟨hunknown, -⟩ | ⟨-, ⟨place, hfails, -⟩ | ⟨-, name, hfails, -⟩⟩
        · exact absurd hknows hunknown
        · exact absurd hfails (heach.not_placeFails place)
        · exact absurd hfails (heach.not_nameFails name)

/-- What becomes of arguments is told by what becomes of each of them as a value alone. -/
structure OneByOne (engine : MigrationEngine) (direction : Direction)
    (protocol : ProtocolVersion) (arguments : Arguments) : Prop where
  /-- They are migrated just when it is known to what, and each of them can be. -/
  succeeds_iff : (∃ migrated, engine.migrateArguments direction protocol arguments =
      .ok migrated) ↔
    engine.Knows direction protocol ∧ engine.EachMigrates direction protocol arguments
  /-- Each of them is found in its place or under its name. -/
  migrated_iff : ∀ migrated, engine.migrateArguments direction protocol arguments =
      .ok migrated ↔
    engine.Knows direction protocol ∧ MigratedEach engine direction protocol arguments migrated
  /-- An unknown protocol comes first, then the positional argument at the least place that
  fails, then the one that fails whose name is first by its bytes. -/
  fails_iff : ∀ e, engine.migrateArguments direction protocol arguments = .error e ↔
    ¬ engine.Knows direction protocol ∧ e = .unknownProtocol protocol ∨
      engine.Knows direction protocol ∧
        (IsFirst (· < ·) (engine.PlaceFails direction protocol arguments) e ∨
          (∀ place e', ¬ engine.PlaceFails direction protocol arguments place e') ∧
            IsFirst (fun name other => name.toUTF8.toList < other.toUTF8.toList)
              (engine.NameFails direction protocol arguments) e)

/-- Migrating arguments together and migrating each as a value alone agree, for every
engine. -/
theorem migrateArguments_oneByOne (engine : MigrationEngine) (direction : Direction)
    (protocol : ProtocolVersion) (arguments : Arguments) :
    OneByOne engine direction protocol arguments where
  succeeds_iff := exists_migrateArguments_iff
  migrated_iff := fun _ => migrateArguments_eq_ok_iff
  fails_iff := fun _ => migrateArguments_eq_error_iff

example : empty.migrateArguments .downgrade (.stable 7) ⟨[], .empty⟩ =
    .error (.unknownProtocol (.stable 7)) := rfl

end MigrationEngine

end RemoteCall
