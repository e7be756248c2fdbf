import RemoteCall.Proofs.Outcome
import RemoteCall.Proofs.Signature.Binding
import RemoteCall.Proofs.Text.ByteOrder

/-!
# The first fault

Arguments are checked one after the other, and the check ends with the first of them
that is at fault.  Which one that is can be told without going through them: of the
named arguments at fault the one whose name comes first by its bytes, and if there are
none, of the positional ones at fault the one at the least place.
-/

namespace RemoteCall

/-! ## Checks one after the other -/

namespace Outcome

variable {κ ε : Type} {checks : List (κ × Except ε Unit)}

/-- Make checks one after the other; the first that fails is the answer. -/
def inTurn : List (κ × Except ε Unit) → Except ε Unit
  | [] => .ok ()
  | (_, .error e) :: _ => .error e
  | (_, .ok ()) :: rest => inTurn rest

theorem exists_eq_ok_iff {outcome : Except ε Unit} :
    (∃ passed, outcome = .ok passed) ↔ outcome = .ok () :=
  ⟨fun ⟨(), hpassed⟩ => hpassed, fun hpassed => ⟨(), hpassed⟩⟩

theorem inTurn_eq_ok_iff : inTurn checks = .ok () ↔ ∀ key e, (key, .error e) ∉ checks := by
  induction checks with
  | nil => simp [inTurn]
  | cons check rest ih =>
      obtain ⟨key, error | ⟨⟨⟩⟩⟩ := check
      · simp only [inTurn, reduceCtorEq, false_iff, not_forall, not_not]
        exact ⟨key, error, List.mem_cons_self⟩
      · simp [inTurn, ih]

/-- The order of the checks counts, and not the keys that they stand under. -/
theorem inTurn_map_key {κ' : Type} (f : κ → κ') :
    inTurn (checks.map fun check => (f check.1, check.2)) = inTurn checks := by
  induction checks with
  | nil => rfl
  | cons check rest ih =>
      obtain ⟨key, error | ⟨⟨⟩⟩⟩ := check
      · rfl
      · exact ih

/-- The error of a key before which no key has one. -/
def IsFirst (lt : κ → κ → Prop) (fault : κ → ε → Prop) (e : ε) : Prop :=
  ∃ key, fault key e ∧ ∀ other, lt other key → ∀ e', ¬ fault other e'

/-- Where the keys ascend the first check that fails is that of the least key. -/
theorem inTurn_eq_error_iff {lt : κ → κ → Prop}
    (hasymm : ∀ key other, lt key other → ¬ lt other key)
    (hascending : checks.Pairwise fun check other => lt check.1 other.1) {e : ε} :
    inTurn checks = .error e ↔ IsFirst lt (fun key e => (key, .error e) ∈ checks) e := by
  induction checks with
  | nil => simp [inTurn, IsFirst]
  | cons check rest ih =>
      obtain ⟨hfirst, hrest⟩ := List.pairwise_cons.mp hascending
      obtain ⟨key, error | ⟨⟨⟩⟩⟩ := check
      · simp only [inTurn, Except.error.injEq]
        constructor
        · rintro rfl
          apply Exists.intro key
          apply And.intro List.mem_cons_self
          intro other hlt e' hmem
          rcases List.mem_cons.mp hmem with hhead | htail
          · cases hhead
            exact hasymm key key hlt hlt
          · exact hasymm key other (hfirst _ htail) hlt
        · rintro ⟨other, hmem, hleast⟩
          rcases List.mem_cons.mp hmem with hhead | htail
          · cases hhead
            rfl
          · -- This key is before any later one.
            exact absurd List.mem_cons_self (hleast key (hfirst _ htail) error)
      · have hmem : ∀ other e', (other, Except.error e') ∈ (key, Except.ok ()) :: rest ↔
            (other, Except.error e') ∈ rest := by
          simp
        simp only [inTurn, ih hrest, IsFirst, hmem]

end Outcome

/-! ## Faults -/

namespace Signature

open Outcome (inTurn IsFirst)

/-- What is wrong with the argument of the given name. -/
inductive NamedFault (signature : Signature) (arguments : Arguments) (name : String) :
    ValidationError → Prop where
  /-- No parameter takes it. -/
  | unknown {value : Value} (hvalue : arguments.kwargs.get? name = some value)
      (hname : ∀ param ∈ signature.params, param.name = name → ¬ param.acceptsKeyword)
      (hrest : ∀ param ∈ signature.params, param.kind ≠ .varKeyword) :
      NamedFault signature arguments name (.unknownParameter name signature.names)
  /-- It is not of the type of the parameter of its name. -/
  | mismatch {value : Value} {param : Param}
      (hvalue : arguments.kwargs.get? name = some value)
      (hparam : signature.param? name = some param) (hmismatch : ¬ param.type.accepts value) :
      NamedFault signature arguments name
        (.typeMismatch name (toString param.type) value.typeName)

/-- What is wrong with the argument at the given place. -/
inductive PlaceFault (signature : Signature) (arguments : Arguments) (place : Nat) :
    ValidationError → Prop where
  /-- It is not of the type of the parameter that it is bound to. -/
  | mismatch {value : Value} {param : Param} (hvalue : arguments.args[place]? = some value)
      (hparam : signature.binding? arguments.kwargs place = some param)
      (hmismatch : ¬ param.type.accepts value) :
      PlaceFault signature arguments place
        (.typeMismatch param.name (toString param.type) value.typeName)
  /-- There is no parameter for it. -/
  | surplus {value : Value} (hvalue : arguments.args[place]? = some value)
      (hparam : signature.binding? arguments.kwargs place = none) :
      PlaceFault signature arguments place (.tooManyPositional arguments.args.length
        (signature.openPositionals arguments.kwargs).length)

variable {signature : Signature} {arguments : Arguments} {name : String} {place : Nat}
  {e : ValidationError}

theorem checkType_eq_error_iff {value : Value} {type : TypeExpr} :
    checkType name value type = .error e ↔
      ¬ type.accepts value ∧ .typeMismatch name (toString type) value.typeName = e := by
  by_cases haccepts : type.accepts value <;> simp [checkType, haccepts]

/-! ## Named arguments -/

theorem param?_eq_none_iff :
    signature.param? name = none ↔
      ∀ param ∈ signature.params, param.name = name → ¬ param.acceptsKeyword := by
  simp [param?]

theorem varKeyword?_eq_none_iff :
    signature.varKeyword? = none ↔ ∀ param ∈ signature.params, param.kind ≠ .varKeyword := by
  simp [varKeyword?]

theorem checkKeyword_eq_error_iff {value : Value}
    (hvalue : arguments.kwargs.get? name = some value) :
    signature.checkKeyword name value = .error e ↔ NamedFault signature arguments name e := by
  rw [checkKeyword]
  constructor
  · intro hfails
    split at hfails
    · rename_i param hparam
      obtain ⟨hmismatch, rfl⟩ := checkType_eq_error_iff.mp hfails
      exact .mismatch hvalue hparam hmismatch
    · rename_i hparam
      split at hfails
      · cases hfails
      · rename_i hrest
        cases hfails
        exact .unknown hvalue (param?_eq_none_iff.mp hparam)
          (varKeyword?_eq_none_iff.mp (Option.not_isSome_iff_eq_none.mp hrest))
  · intro hfault
    cases hfault with
    | unknown _ hname hrest =>
        rw [param?_eq_none_iff.mpr hname, varKeyword?_eq_none_iff.mpr hrest]
        rfl
    | mismatch hvalue' hparam hmismatch =>
        cases hvalue.symm.trans hvalue'
        rw [hparam]
        exact checkType_eq_error_iff.mpr ⟨hmismatch, rfl⟩

/-- The checks of named arguments, each under its name. -/
def namedChecks (signature : Signature) (entries : List (String × Value)) :
    List (String × Except ValidationError Unit) :=
  entries.map fun entry => (entry.1, signature.checkKeyword entry.1 entry.2)

theorem checkKeywords_eq_inTurn (entries : List (String × Value)) :
    signature.checkKeywords entries = inTurn (signature.namedChecks entries) := by
  induction entries with
  | nil => rfl
  | cons entry rest ih =>
      obtain ⟨name, value⟩ := entry
      rw [checkKeywords, namedChecks, List.map_cons]
      dsimp only
      cases signature.checkKeyword name value with
      | error e => rfl
      | ok checked => exact ih

theorem mem_namedChecks_iff :
    (name, .error e) ∈ signature.namedChecks arguments.kwargs.entries ↔
      NamedFault signature arguments name e := by
  rw [namedChecks, List.mem_map]
  constructor
  · rintro ⟨⟨name', value⟩, hmem, hsame⟩
    obtain ⟨rfl, hfails⟩ := Prod.ext_iff.mp hsame
    exact (checkKeyword_eq_error_iff (SortedMap.mem_entries_iff.mp hmem)).mp hfails
  · intro hfault
    obtain ⟨value, hvalue⟩ : ∃ value, arguments.kwargs.get? name = some value := by
      cases hfault with
      | unknown hvalue => exact ⟨_, hvalue⟩
      | mismatch hvalue => exact ⟨_, hvalue⟩
    exact ⟨(name, value), SortedMap.mem_entries_iff.mpr hvalue,
      Prod.ext rfl ((checkKeyword_eq_error_iff hvalue).mpr hfault)⟩

theorem namedFault_eq :
    NamedFault signature arguments =
      fun name e => (name, .error e) ∈ signature.namedChecks arguments.kwargs.entries := by
  funext name e
  exact propext mem_namedChecks_iff.symm

theorem pairwise_namedChecks :
    (signature.namedChecks arguments.kwargs.entries).Pairwise
      fun check other => check.1.toUTF8.toList < other.1.toUTF8.toList := by
  apply List.pairwise_map.mpr
  exact arguments.kwargs.ascending.imp Text.toUTF8_lt_of_compare

theorem checkKeywords_eq_error_iff :
    signature.checkKeywords arguments.kwargs.entries = .error e ↔
      IsFirst (fun name other => name.toUTF8.toList < other.toUTF8.toList)
        (NamedFault signature arguments) e := by
  rw [checkKeywords_eq_inTurn, namedFault_eq]
  exact Outcome.inTurn_eq_error_iff (fun _ _ => List.lt_asymm) pairwise_namedChecks

theorem checkKeywords_eq_ok_iff :
    signature.checkKeywords arguments.kwargs.entries = .ok () ↔
      ∀ name e, ¬ NamedFault signature arguments name e := by
  rw [checkKeywords_eq_inTurn, namedFault_eq]
  exact Outcome.inTurn_eq_ok_iff

/-! ## Positional arguments -/

/-- The check of a value against the parameter that it is bound to, if there is one. -/
def checkBound (surplus : ValidationError) (bound : Option Param) (value : Value) :
    Except ValidationError Unit :=
  match bound with
  | none => .error surplus
  | some param => checkType param.name value param.type

/-- The checks of positional arguments, each under its place. -/
def placeChecks (surplus : ValidationError) (rest : Option Param) (params : List Param)
    (values : List Value) : List (Nat × Except ValidationError Unit) :=
  values.mapIdx fun place value => (place, checkBound surplus (params[place]?.or rest) value)

theorem pairwise_placeChecks (surplus : ValidationError) (rest : Option Param)
    (params : List Param) (values : List Value) :
    (placeChecks surplus rest params values).Pairwise fun check other => check.1 < other.1 := by
  apply List.pairwise_iff_getElem.mpr
  intro place other hplace hother hlt
  simpa [placeChecks] using hlt

theorem placeChecks_cons (surplus : ValidationError) (rest : Option Param)
    (params : List Param) (value : Value) (values : List Value) :
    placeChecks surplus rest params (value :: values) =
      (0, checkBound surplus (params[0]?.or rest) value) ::
        (placeChecks surplus rest params.tail values).map
          fun check => (check.1 + 1, check.2) := by
  rw [placeChecks, List.mapIdx_cons]
  congr 1
  apply List.ext_getElem
  · simp [placeChecks]
  · intro place _ _
    simp [placeChecks]

theorem checkPositionals_cons (surplus : ValidationError) (rest : Option Param)
    (params : List Param) (value : Value) (values : List Value) :
    checkPositionals surplus rest params (value :: values) =
      (checkBound surplus (params[0]?.or rest) value).bind fun _ =>
        checkPositionals surplus rest params.tail values := by
  cases params with
  | cons param params =>
      change _ = (checkType param.name value param.type).bind _
      rw [checkPositionals]
      cases checkType param.name value param.type <;> rfl
  | nil =>
      cases rest with
      | none => rfl
      | some param =>
          change _ = (checkType param.name value param.type).bind _
          rw [checkPositionals]
          cases checkType param.name value param.type <;> rfl

theorem checkPositionals_eq_inTurn (surplus : ValidationError) (rest : Option Param)
    (params : List Param) (values : List Value) :
    checkPositionals surplus rest params values =
      inTurn (placeChecks surplus rest params values) := by
  induction values generalizing params with
  | nil => cases params <;> rfl
  | cons value values ih =>
      rw [checkPositionals_cons, placeChecks_cons]
      cases checkBound surplus (params[0]?.or rest) value with
      | error e => rfl
      | ok checked =>
          -- The other checks stand under places that are one greater.
          rw [inTurn, Outcome.inTurn_map_key (· + 1), ← ih]
          rfl

/-- The checks that are made of positional arguments. -/
def positionalChecks (signature : Signature) (arguments : Arguments) :
    List (Nat × Except ValidationError Unit) :=
  let params := signature.openPositionals arguments.kwargs
  placeChecks (.tooManyPositional arguments.args.length params.length)
    signature.varPositional? params arguments.args

theorem mem_positionalChecks_iff :
    (place, .error e) ∈ signature.positionalChecks arguments ↔
      PlaceFault signature arguments place e := by
  rw [positionalChecks, placeChecks, List.mem_mapIdx]
  constructor
  · rintro ⟨place', hlt, hcheck⟩
    obtain ⟨rfl, hfails⟩ := Prod.ext_iff.mp hcheck
    have hvalue : arguments.args[place']? = some arguments.args[place'] :=
      List.getElem?_eq_getElem hlt
    change checkBound _ (signature.binding? arguments.kwargs place') _ = .error e at hfails
    cases hbound : signature.binding? arguments.kwargs place' with
    | none =>
        rw [hbound] at hfails
        cases hfails
        exact .surplus hvalue hbound
    | some param =>
        rw [hbound] at hfails
        obtain ⟨hmismatch, rfl⟩ := checkType_eq_error_iff.mp hfails
        exact .mismatch hvalue hbound hmismatch
  · intro hfault
    cases hfault with
    | mismatch hvalue hbound hmismatch =>
        obtain ⟨hlt, rfl⟩ := List.getElem?_eq_some_iff.mp hvalue
        apply Exists.intro place
        apply Exists.intro hlt
        change (place, checkBound _ (signature.binding? arguments.kwargs place) _) = _
        rw [hbound, checkBound, checkType_eq_error_iff.mpr ⟨hmismatch, rfl⟩]
    | surplus hvalue hbound =>
        obtain ⟨hlt, rfl⟩ := List.getElem?_eq_some_iff.mp hvalue
        apply Exists.intro place
        apply Exists.intro hlt
        change (place, checkBound _ (signature.binding? arguments.kwargs place) _) = _
        rw [hbound, checkBound]

theorem placeFault_eq :
    PlaceFault signature arguments =
      fun place e => (place, .error e) ∈ signature.positionalChecks arguments := by
  funext place e
  exact propext mem_positionalChecks_iff.symm

/-! ## The whole check -/

/-- Positional arguments are looked at only where all named ones passed. -/
theorem validate_eq (signature : Signature) (arguments : Arguments) :
    signature.validate arguments =
      (signature.checkKeywords arguments.kwargs.entries).bind fun _ =>
        (inTurn (signature.positionalChecks arguments)).map fun _ => arguments := by
  rw [validate, positionalChecks, ← checkPositionals_eq_inTurn]
  cases signature.checkKeywords arguments.kwargs.entries with
  | error e => rfl
  | ok checked =>
      dsimp only
      split <;> rename_i hpositionals <;> rw [hpositionals] <;> rfl

theorem inTurn_positionalChecks_eq_error_iff :
    inTurn (signature.positionalChecks arguments) = .error e ↔
      IsFirst (· < ·) (PlaceFault signature arguments) e := by
  rw [placeFault_eq]
  exact Outcome.inTurn_eq_error_iff (fun _ _ => Nat.lt_asymm) (pairwise_placeChecks _ _ _ _)

theorem inTurn_positionalChecks_eq_ok_iff :
    inTurn (signature.positionalChecks arguments) = .ok () ↔
      ∀ place e, ¬ PlaceFault signature arguments place e := by
  rw [placeFault_eq]
  exact Outcome.inTurn_eq_ok_iff

theorem validate_eq_error_iff :
    signature.validate arguments = .error e ↔
      signature.checkKeywords arguments.kwargs.entries = .error e ∨
        signature.checkKeywords arguments.kwargs.entries = .ok () ∧
          inTurn (signature.positionalChecks arguments) = .error e := by
  simp [validate_eq, Outcome.bind_eq_error_iff, Outcome.map_eq_error_iff,
    Outcome.exists_eq_ok_iff]

theorem validate_eq_ok_iff {checked : Arguments} :
    signature.validate arguments = .ok checked ↔
      signature.checkKeywords arguments.kwargs.entries = .ok () ∧
        inTurn (signature.positionalChecks arguments) = .ok () ∧ arguments = checked := by
  simp [validate_eq, Outcome.bind_eq_ok_iff, Outcome.map_eq_ok_iff, Outcome.exists_eq_ok_iff]

/-- Arguments are refused for the named one at fault whose name is first by its bytes, or
where no named one is at fault for the positional one at the least place, and otherwise
pass as they are. -/
theorem validate_firstFault (signature : Signature) (arguments : Arguments) :
    (∀ e, signature.validate arguments = .error e ↔
      IsFirst (fun name other => name.toUTF8.toList < other.toUTF8.toList)
          (NamedFault signature arguments) e ∨
        (∀ name e', ¬ NamedFault signature arguments name e') ∧
          IsFirst (· < ·) (PlaceFault signature arguments) e) ∧
      ∀ checked, signature.validate arguments = .ok checked ↔
        (∀ name e, ¬ NamedFault signature arguments name e) ∧
          (∀ place e, ¬ PlaceFault signature arguments place e) ∧ arguments = checked := by
  constructor
  · intro e
    rw [validate_eq_error_iff, checkKeywords_eq_error_iff, checkKeywords_eq_ok_iff,
      inTurn_positionalChecks_eq_error_iff]
  · intro checked
    rw [validate_eq_ok_iff, checkKeywords_eq_ok_iff, inTurn_positionalChecks_eq_ok_iff]

end Signature

end RemoteCall
