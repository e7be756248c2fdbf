import Mathlib.Order.Bounds.Defs
import RemoteCall.Proofs.Migration.RoundTrip

/-!
# Ways through a history, turn by turn

The way of an object can also be told without knowing it beforehand: look for the
neighbouring version on the side of the goal, convert the fields, and begin anew
from there.  This comes to an end after at most as many turns as there are
versions, and then with the same outcome.  A way that passes a version can
therefore be broken off there and gone on with later, also where it ends in an error.
-/

namespace RemoteCall

namespace History

variable {history : History} {version between goal low high target : UInt32} {type : String}
  {fields : Fields}

/-! ## Taking turns -/

/-- The newest version before `version`. -/
def previous? (history : History) (version : UInt32) : Option UInt32 :=
  (history.versions.filter fun other _ => other < version).lastKey?

/-- The oldest version after `version`, looked for from the next number on. -/
def following? (history : History) (version : UInt32) : Option (UInt32 × VersionEntry) :=
  (history.versions.filter fun other _ => version + 1 ≤ other).entries.head?

/-- Go down one version a turn until the goal is not below any more.  There is no
outcome if this takes more turns than there are, or comes to a version without entry. -/
def descendBy (history : History) (type : String) (goal : UInt32) :
    Nat → UInt32 → Fields → Option (Except MigrationError (UInt32 × Fields))
  | 0, _, _ => none
  | turns + 1, version, fields =>
    if goal < version then
      match history.previous? version with
      | none => some (.error (.noConversionPath type version goal))
      | some previous =>
        match history.versions.get? version with
        | none => none
        | some entry =>
          match entry.step.down? type with
          | none => some (.error (.noConversionPath type version previous))
          | some convert =>
            match convert fields with
            | .error e => some (.error e)
            | .ok fields => descendBy history type goal turns previous fields
    else some (.ok (version, fields))

/-- Go up one version a turn until the goal is not above any more. -/
def ascendBy (history : History) (type : String) (goal : UInt32) :
    Nat → UInt32 → Fields → Option (Except MigrationError (UInt32 × Fields))
  | 0, _, _ => none
  | turns + 1, version, fields =>
    if version < goal then
      match history.following? version with
      | none => some (.error (.noConversionPath type version goal))
      | some (following, entry) =>
        match entry.step.up? type with
        | none => some (.error (.noConversionPath type version following))
        | some convert =>
          match convert fields with
          | .error e => some (.error e)
          | .ok fields => ascendBy history type goal turns following fields
    else some (.ok (version, fields))

/-- Bring an object to the newest version that is at most `target`, with so many turns
for the way down and for the way up. -/
def migrateBy (history : History) (turns : Nat) (object : ObjectValue) (target : UInt32) :
    Option (Except MigrationError ObjectValue) :=
  if history.versions.contains object.version then
    match history.atOrBelow? target with
    | none => some (.error (.noConversionPath object.name object.version target))
    | some goal =>
      match history.descendBy object.name goal turns object.version object.fields with
      | none => none
      | some (.error e) => some (.error e)
      | some (.ok (version, fields)) =>
        (history.ascendBy object.name goal turns version fields).map
          (Except.map fun place => ⟨object.name, place.1, place.2⟩)
  else some (.error (.unknownVersion object.name object.version))

/-! ## The neighbouring versions -/

theorem previous?_eq_some_iff {previous : UInt32} :
    history.previous? version = some previous ↔
      history.versions.contains previous ∧ previous < version ∧
        ∀ other, history.versions.contains other → other < version → other ≤ previous := by
  simp only [previous?, SortedMap.lastKey?_filter_eq_some_iff, decide_eq_true_eq,
    Std.isLE_compare]

theorem contains_of_mem {entry : UInt32 × VersionEntry}
    (hmem : entry ∈ history.versions.entries) : history.versions.contains entry.1 :=
  Option.isSome_of_eq_some (SortedMap.mem_entries_iff.mp hmem)

theorem exists_previous (hlow : history.versions.contains low) (hlt : low < version) :
    ∃ previous, history.previous? version = some previous := by
  obtain ⟨entry, hentry⟩ := Option.isSome_iff_exists.mp hlow
  have hmem : low ∈ (history.versions.filter fun other _ => other < version).keys :=
    SortedMap.mem_keys_filter.mpr
      ⟨entry, SortedMap.mem_entries_iff.mpr hentry, decide_eq_true hlt⟩
  exact Option.isSome_iff_exists.mp (SortedMap.lastKey?_isSome_of_mem hmem)

/-- The next number does not go beyond the greatest one where there is something above. -/
theorem succ_le_iff {other : UInt32} (hlt : version < goal) :
    version + 1 ≤ other ↔ version < other := by
  have hgoal := goal.toNat_lt_size
  rw [UInt32.lt_iff_toNat_lt] at hlt
  rw [UInt32.le_iff_toNat_le, UInt32.lt_iff_toNat_lt, UInt32.toNat_add,
    Nat.mod_eq_of_lt (by simpa using Nat.lt_of_le_of_lt hlt hgoal)]
  exact Nat.succ_le_iff

theorem exists_following (hhigh : history.versions.contains high) (hlt : version < high) :
    ∃ following, history.following? version = some following ∧
      following ∈ history.versions.entries ∧ version < following.1 ∧
      ∀ other, history.versions.contains other → version < other → following.1 ≤ other := by
  have hmem : ∀ {entry : UInt32 × VersionEntry},
      entry ∈ (history.versions.filter fun other _ => version + 1 ≤ other).entries ↔
        entry ∈ history.versions.entries ∧ version < entry.1 := by
    intro entry
    rw [← succ_le_iff hlt]
    simp [SortedMap.filter]
  obtain ⟨entry, hentry⟩ := Option.isSome_iff_exists.mp hhigh
  obtain ⟨following, hfollowing, hfirst, hleast⟩ :=
    SortedMap.exists_head?_of_mem (hmem.mpr ⟨SortedMap.mem_entries_iff.mpr hentry, hlt⟩)
  refine ⟨following, hfollowing, (hmem.mp hfirst).1, (hmem.mp hfirst).2, ?_⟩
  intro other hother habove
  obtain ⟨entry', hentry'⟩ := Option.isSome_iff_exists.mp hother
  exact Std.isLE_compare.mp
    (hleast _ (hmem.mpr ⟨SortedMap.mem_entries_iff.mpr hentry', habove⟩))

/-! ## The way, one version after the other -/

theorem ascending_above (history : History) (low high : UInt32) :
    Entries.Ascending (history.above low high) :=
  Entries.ascending_filter _ history.versions.ascending

theorem mem_above {entry : UInt32 × VersionEntry} :
    entry ∈ history.above low high ↔
      entry ∈ history.versions.entries ∧ low < entry.1 ∧ entry.1 ≤ high := by
  simp [above]

/-- From a version above a registered one, the way down begins at the version itself and
goes on from the one before it. -/
theorem exists_below_eq_cons (hregistered : history.versions.contains version)
    (hbetween : history.versions.contains between) (hlt : between < version) :
    ∃ entry previous, history.versions.get? version = some entry ∧
      history.previous? version = some previous ∧ history.versions.contains previous ∧
      between ≤ previous ∧ ∀ low, low ≤ previous →
        history.below version low = (version, entry) :: history.below previous low := by
  obtain ⟨entry, hentry⟩ := Option.isSome_iff_exists.mp hregistered
  obtain ⟨previous, hprevious⟩ := exists_previous hbetween hlt
  obtain ⟨hcontains, hbefore, hgreatest⟩ := previous?_eq_some_iff.mp hprevious
  refine ⟨entry, previous, hentry, hprevious, hcontains, hgreatest between hbetween hlt,
    fun low hlow => ?_⟩
  have hascending :
      Entries.Ascending (history.above low previous ++ [(version, entry)]) := by
    refine List.pairwise_append.mpr ⟨ascending_above history low previous,
      List.pairwise_singleton _ _, fun left hleft right hright => ?_⟩
    rw [List.mem_singleton.mp hright]
    exact Std.compare_eq_lt.mpr (Std.lt_of_le_of_lt (mem_above.mp hleft).2.2 hbefore)
  have habove : history.above low version =
      history.above low previous ++ [(version, entry)] := by
    refine Entries.eq_of_mem_iff (ascending_above history low version) hascending
      fun other => ?_
    rw [List.mem_append, List.mem_singleton, mem_above, mem_above]
    constructor
    · rintro ⟨hmem, hother, hle⟩
      by_cases hsame : other.1 = version
      · refine .inr (Prod.ext hsame (Option.some.inj ?_))
        rw [← hentry, ← hsame]
        exact (SortedMap.mem_entries_iff.mp hmem).symm
      · exact .inl ⟨hmem, hother,
          hgreatest other.1 (contains_of_mem hmem) (UInt32.lt_of_le_of_ne hle hsame)⟩
    · rintro (⟨hmem, hother, hle⟩ | rfl)
      · exact ⟨hmem, hother, Std.le_of_lt (Std.lt_of_le_of_lt hle hbefore)⟩
      · exact ⟨SortedMap.mem_entries_iff.mpr hentry, Std.lt_of_le_of_lt hlow hbefore,
          UInt32.le_refl _⟩
  rw [above_eq_reverse_below, above_eq_reverse_below] at habove
  simpa using congrArg List.reverse habove

/-- From a version below a registered one, the way up begins at the version after it. -/
theorem exists_above_eq_cons (hbetween : history.versions.contains between)
    (hlt : version < between) :
    ∃ entry following, history.following? version = some (following, entry) ∧
      history.versions.contains following ∧ following ≤ between ∧ ∀ high, following ≤ high →
        history.above version high = (following, entry) :: history.above following high := by
  obtain ⟨⟨following, entry⟩, hfollowing, hmem, habove, hleast⟩ := exists_following hbetween hlt
  refine ⟨entry, following, hfollowing, contains_of_mem hmem, hleast between hbetween hlt,
    fun high hhigh => ?_⟩
  have hascending :
      Entries.Ascending ((following, entry) :: history.above following high) :=
    List.pairwise_cons.mpr ⟨fun other hother => Std.compare_eq_lt.mpr (mem_above.mp hother).2.1,
      ascending_above history following high⟩
  refine Entries.eq_of_mem_iff (ascending_above history version high) hascending fun other => ?_
  rw [List.mem_cons, mem_above, mem_above]
  constructor
  · rintro ⟨hother, hversion, hle⟩
    by_cases hsame : following = other.1
    · refine .inl (Prod.ext hsame.symm (Option.some.inj ?_))
      rw [← SortedMap.mem_entries_iff.mp hother, ← hsame]
      exact SortedMap.mem_entries_iff.mp hmem
    · exact .inr ⟨hother,
        UInt32.lt_of_le_of_ne (hleast other.1 (contains_of_mem hother) hversion) hsame, hle⟩
  · rintro (rfl | ⟨hother, hversion, hle⟩)
    · exact ⟨hmem, habove, hhigh⟩
    · exact ⟨hother, Std.lt_trans habove hversion, hle⟩

/-- The way down from a registered version begins with that version, if there is one. -/
theorem next_below (hregistered : history.versions.contains version)
    (hlow : history.versions.contains low) (hle : low ≤ version) :
    next low (history.below version low) = version := by
  by_cases hsame : low = version
  · rw [hsame, below_eq_nil (UInt32.le_refl version)]
    rfl
  · obtain ⟨entry, previous, -, -, -, hprevious, hbelow⟩ :=
      exists_below_eq_cons hregistered hlow (UInt32.lt_of_le_of_ne hle hsame)
    rw [hbelow low hprevious]
    rfl

/-! ## The end of the way -/

theorem length_below_le (history : History) (version low : UInt32) :
    (history.below version low).length ≤ history.versions.size := by
  rw [below, List.length_reverse]
  exact List.length_filter_le _ _

theorem length_above_le (history : History) (version high : UInt32) :
    (history.above version high).length ≤ history.versions.size :=
  List.length_filter_le _ _

/-- Going down turn by turn ends at the goal, with the fields of the way down. -/
theorem descendBy_eq {turns : Nat} (hregistered : history.versions.contains version)
    (hgoal : history.versions.contains goal) (hle : goal ≤ version)
    (hturns : (history.below version goal).length < turns) :
    history.descendBy type goal turns version fields =
      some ((descend type goal (history.below version goal) fields).map fun fields =>
        (goal, fields)) := by
  induction turns generalizing version fields with
  | zero => cases hturns
  | succ turns ih =>
      by_cases hsame : goal = version
      · subst hsame
        rw [descendBy, if_neg (Std.lt_irrefl), below_eq_nil (UInt32.le_refl goal)]
        rfl
      · have hlt : goal < version := UInt32.lt_of_le_of_ne hle hsame
        obtain ⟨entry, previous, hentry, hprevious, hcontains, hbetween, hbelow⟩ :=
          exists_below_eq_cons hregistered hgoal hlt
        rw [hbelow goal hbetween] at hturns ⊢
        simp only [descendBy, if_pos hlt, hprevious, hentry, descend,
          next_below hcontains hgoal hbetween]
        cases entry.step.down? type with
        | none => rfl
        | some convert =>
            dsimp only
            cases convert fields with
            | error e => rfl
            | ok fields => exact ih hcontains hbetween (Nat.lt_of_succ_lt_succ hturns)

theorem ascendBy_eq {turns : Nat} (hgoal : history.versions.contains goal) (hle : version ≤ goal)
    (hturns : (history.above version goal).length < turns) :
    history.ascendBy type goal turns version fields =
      some ((ascend type version (history.above version goal) fields).map fun fields =>
        (goal, fields)) := by
  induction turns generalizing version fields with
  | zero => cases hturns
  | succ turns ih =>
      by_cases hsame : version = goal
      · subst hsame
        rw [ascendBy, if_neg (Std.lt_irrefl), above_eq_nil (UInt32.le_refl version)]
        rfl
      · have hlt : version < goal := UInt32.lt_of_le_of_ne hle hsame
        obtain ⟨entry, following, hfollowing, -, hbetween, habove⟩ :=
          exists_above_eq_cons hgoal hlt
        rw [habove goal hbetween] at hturns ⊢
        simp only [ascendBy, if_pos hlt, hfollowing, ascend]
        cases entry.step.up? type with
        | none => rfl
        | some convert =>
            dsimp only
            cases convert fields with
            | error e => rfl
            | ok fields => exact ih hbetween (Nat.lt_of_succ_lt_succ hturns)

/-- There are always more turns than needed if there are more than versions. -/
theorem migrateBy_eq {turns : Nat} (history : History) (object : ObjectValue) (target : UInt32)
    (hturns : history.versions.size < turns) :
    history.migrateBy turns object target = some (history.migrate object target) := by
  rw [migrateBy]
  by_cases hregistered : history.versions.contains object.version
  case neg => simp only [migrate, if_neg hregistered]
  rw [if_pos hregistered]
  cases hgoal : history.atOrBelow? target with
  | none => simp only [migrate, if_pos hregistered, hgoal]
  | some goal =>
      have hcontains := (atOrBelow?_eq_some_iff.mp hgoal).1
      have hbelow := Nat.lt_of_le_of_lt (history.length_below_le object.version goal) hturns
      have habove := Nat.lt_of_le_of_lt (history.length_above_le object.version goal) hturns
      rcases Std.le_total (a := goal) (b := object.version) with hle | hle
      · rw [migrate_of_ge hregistered hgoal hle]
        simp only [descendBy_eq hregistered hcontains hle hbelow]
        cases descend object.name goal (history.below object.version goal) object.fields with
        | error e => rfl
        | ok fields =>
            have hnil : history.above goal goal = [] := above_eq_nil (UInt32.le_refl goal)
            have hnone : (history.above goal goal).length < turns := by
              rw [hnil]
              exact Nat.zero_lt_of_lt hturns
            simp only [Except.map]
            rw [ascendBy_eq hcontains (UInt32.le_refl goal) hnone, hnil]
            rfl
      · have hstay : history.descendBy object.name goal turns object.version object.fields =
            some (.ok (object.version, object.fields)) := by
          obtain ⟨turns, rfl⟩ := Nat.exists_eq_succ_of_ne_zero (Nat.ne_zero_of_lt hturns)
          rw [descendBy, if_neg (Std.not_lt.mpr hle)]
        rw [migrate_of_le hregistered hgoal hle]
        simp only [hstay, ascendBy_eq hcontains hle habove]
        cases ascend object.name object.version (history.above object.version goal)
          object.fields <;> rfl

/-! ## A stop on the way -/

theorem descend_between (hregistered : history.versions.contains version)
    (hbetween : history.versions.contains between) (hlow : history.versions.contains low)
    (hle : between ≤ version) (hle' : low ≤ between) :
    descend type low (history.below version low) fields =
      (descend type between (history.below version between) fields).bind
        (descend type low (history.below between low)) := by
  induction hsteps : history.below version between generalizing version fields with
  | nil =>
      have hsame := next_below hregistered hbetween hle
      rw [hsteps, next] at hsame
      rw [hsame]
      rfl
  | cons step rest ih =>
      have hlt : between < version := by
        refine UInt32.lt_of_le_of_ne hle fun hsame => ?_
        rw [below_eq_nil (hsame ▸ UInt32.le_refl between)] at hsteps
        cases hsteps
      obtain ⟨entry, previous, -, -, hcontains, hprevious, hbelow⟩ :=
        exists_below_eq_cons hregistered hbetween hlt
      rw [hbelow between hprevious] at hsteps
      cases hsteps
      rw [hbelow low (UInt32.le_trans hle' hprevious), descend, descend,
        next_below hcontains hlow (UInt32.le_trans hle' hprevious),
        next_below hcontains hbetween hprevious]
      cases entry.step.down? type with
      | none => rfl
      | some convert =>
          dsimp only
          cases convert fields with
          | error e => rfl
          | ok fields => exact ih hcontains hprevious rfl

theorem ascend_between (hbetween : history.versions.contains between)
    (hle : version ≤ between) (hle' : between ≤ high) :
    ascend type version (history.above version high) fields =
      (ascend type version (history.above version between) fields).bind
        (ascend type between (history.above between high)) := by
  induction hsteps : history.above version between generalizing version fields with
  | nil =>
      have hsame : version = between := by
        by_contra hne
        obtain ⟨_, _, -, -, hfollowing, habove⟩ :=
          exists_above_eq_cons hbetween (UInt32.lt_of_le_of_ne hle hne)
        rw [habove between hfollowing] at hsteps
        cases hsteps
      rw [hsame]
      rfl
  | cons step rest ih =>
      have hlt : version < between := by
        refine UInt32.lt_of_le_of_ne hle fun hsame => ?_
        rw [above_eq_nil (hsame ▸ UInt32.le_refl version)] at hsteps
        cases hsteps
      obtain ⟨entry, following, -, -, hfollowing, habove⟩ := exists_above_eq_cons hbetween hlt
      rw [habove between hfollowing] at hsteps
      cases hsteps
      rw [habove high (UInt32.le_trans hfollowing hle'), ascend, ascend]
      cases entry.step.up? type with
      | none => rfl
      | some convert =>
          dsimp only
          cases convert fields with
          | error e => rfl
          | ok fields => exact ih hfollowing rfl

/-- `between` lies on the way from a version to the goal, up or down. -/
def OnTheWay (version between goal : UInt32) : Prop :=
  version ≤ between ∧ between ≤ goal ∨ goal ≤ between ∧ between ≤ version

/-- The registered versions that are at most `target`. -/
def upTo (history : History) (target : UInt32) : Set UInt32 :=
  {version | history.versions.contains version ∧ version ≤ target}

theorem isGreatest_upTo_iff :
    IsGreatest (history.upTo target) goal ↔ history.atOrBelow? target = some goal := by
  rw [atOrBelow?_eq_some_iff, ← and_assoc]
  exact and_congr_right fun _ =>
    ⟨fun hbound _ hcontains hle => hbound ⟨hcontains, hle⟩,
      fun hbound _ hmem => hbound _ hmem.1 hmem.2⟩

variable {object : ObjectValue} {first second : UInt32}

/-- A version on the way is a place to stop. -/
theorem migrate_eq_bind (hfirst : history.atOrBelow? first = some between)
    (hsecond : history.atOrBelow? second = some goal)
    (hway : OnTheWay object.version between goal) :
    history.migrate object second =
      (history.migrate object first).bind fun object => history.migrate object second := by
  have hbetween := (atOrBelow?_eq_some_iff.mp hfirst).1
  have hgoal := (atOrBelow?_eq_some_iff.mp hsecond).1
  by_cases hregistered : history.versions.contains object.version
  case neg =>
    simp only [migrate, if_neg hregistered]
    rfl
  rcases hway with ⟨hle, hle'⟩ | ⟨hle', hle⟩
  · rw [migrate_of_le hregistered hsecond (UInt32.le_trans hle hle'),
      migrate_of_le hregistered hfirst hle, ascend_between hbetween hle hle']
    cases ascend object.name object.version (history.above object.version between)
        object.fields with
    | error e => rfl
    | ok fields =>
        symm
        change history.migrate ⟨object.name, between, fields⟩ second = _
        exact migrate_of_le hbetween hsecond hle'
  · rw [migrate_of_ge hregistered hsecond (UInt32.le_trans hle' hle),
      migrate_of_ge hregistered hfirst hle, descend_between hregistered hbetween hgoal hle hle']
    cases descend object.name between (history.below object.version between)
        object.fields with
    | error e => rfl
    | ok fields =>
        symm
        change history.migrate ⟨object.name, between, fields⟩ second = _
        exact migrate_of_ge hbetween hsecond hle'

/-- At its goal an object stays as it is. -/
theorem migrate_self (hgoal : history.atOrBelow? target = some object.version) :
    history.migrate object target = .ok object := by
  have hregistered := (atOrBelow?_eq_some_iff.mp hgoal).1
  rw [migrate_of_ge hregistered hgoal (UInt32.le_refl object.version),
    below_eq_nil (UInt32.le_refl object.version)]
  rfl

end History

namespace TypeRegistry

variable {registry : TypeRegistry} {history : History} {object : ObjectValue}

/-- A version on the way to the goal is a place to stop, for objects that arrive as for
those that do not.  What arrives is of the newest version that is at most the target, and
stays there.  One version a turn, the way ends after as many turns as there are versions. -/
theorem migrateObject_stepwise (hhistory : registry.history? object.name = some history) :
    (∀ first second between goal, IsGreatest (history.upTo first) between →
      IsGreatest (history.upTo second) goal → History.OnTheWay object.version between goal →
        registry.migrateObject object second =
          (registry.migrateObject object first).bind fun object =>
            registry.migrateObject object second) ∧
    (∀ target object', registry.migrateObject object target = .ok object' →
      IsGreatest (history.upTo target) object'.version ∧
        registry.migrateObject object' target = .ok object') ∧
    ∀ target turns, history.versions.size < turns →
      history.migrateBy turns object target = some (registry.migrateObject object target) := by
  have hmigrate : ∀ {object' : ObjectValue} (target : UInt32), object'.name = object.name →
      registry.migrateObject object' target = history.migrate object' target := by
    intro object' target hname
    exact migrateObject_eq_migrate (hname ▸ hhistory)
  refine ⟨fun first second between goal hfirst hsecond hway => ?_, fun target object' harrive => ?_,
    fun target turns hturns => ?_⟩
  · rw [hmigrate second rfl, hmigrate first rfl,
      History.migrate_eq_bind (History.isGreatest_upTo_iff.mp hfirst)
        (History.isGreatest_upTo_iff.mp hsecond) hway]
    cases hstop : history.migrate object first with
    | error e => rfl
    | ok object' =>
        exact (hmigrate second (History.name_and_version_of_migrate hstop).1).symm
  · rw [hmigrate target rfl] at harrive
    obtain ⟨hname, hgoal⟩ := History.name_and_version_of_migrate harrive
    refine ⟨History.isGreatest_upTo_iff.mpr hgoal, ?_⟩
    rw [hmigrate target hname, History.migrate_self hgoal]
  · rw [hmigrate target rfl, history.migrateBy_eq object target hturns]

/-- A widget stops at the version in the middle on its way to the oldest one, and goes to
the newest from the greatest number there is. -/
theorem migrateObject_stepwise_widgets :
    (widgets.migrateObject widget 2 =
      (widgets.migrateObject widget 5).bind fun object => widgets.migrateObject object 2) ∧
    (∃ older, widgets.migrateObject widget 5 = .ok older ∧
      IsGreatest (widgetHistory.upTo 5) older.version ∧
        widgets.migrateObject older 5 = .ok older) ∧
    widgetHistory.migrateBy 4 oldWidget 0xffffffff =
      some (widgets.migrateObject oldWidget 0xffffffff) := by
  obtain ⟨hstop, harrive, -⟩ :=
    @migrateObject_stepwise widgets widgetHistory widget history?_widgets
  obtain ⟨-, -, hends⟩ :=
    @migrateObject_stepwise widgets widgetHistory oldWidget history?_widgets
  have hmiddle : widgetHistory.atOrBelow? 5 = some 3 := rfl
  have holdest : widgetHistory.atOrBelow? 2 = some 1 := rfl
  refine ⟨hstop 5 2 3 1 (History.isGreatest_upTo_iff.mpr hmiddle)
      (History.isGreatest_upTo_iff.mpr holdest) (.inr (by decide)), ?_,
    hends _ 4 (by decide)⟩
  obtain ⟨older, holder⟩ : ∃ older, widgets.migrateObject widget 5 = .ok older := ⟨_, rfl⟩
  exact ⟨older, holder, harrive 5 older holder⟩

end TypeRegistry

end RemoteCall
