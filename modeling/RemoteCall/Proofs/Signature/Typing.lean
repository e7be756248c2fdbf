import RemoteCall.Proofs.Signature.FirstFault

/-!
# The types of accepted arguments

Arguments that pass the check are of the types of the parameters that they are bound to,
with one exception.  What the parameter for named arguments left over takes is not looked
at, so it is of that parameter's type only where the caller saw to it.
-/

namespace RemoteCall.Signature

variable {signature : Signature} {arguments checked : Arguments} {name : String}
  {value : Value}

/-- The parameter that the named argument of a name is bound to. -/
def namedBinding? (signature : Signature) (name : String) : Option Param :=
  (signature.param? name).or signature.varKeyword?

/-- The value has a parameter and is of its type. -/
def HasTypeOf (bound : Option Param) (value : Value) : Prop :=
  ∃ param, bound = some param ∧ param.type.accepts value

/-- Every argument is of the type of the parameter that it is bound to. -/
structure Typed (signature : Signature) (arguments : Arguments) : Prop where
  positional : ∀ (place : Nat) (value : Value), arguments.args[place]? = some value →
    HasTypeOf (signature.binding? arguments.kwargs place) value
  named : ∀ (name : String) (value : Value), arguments.kwargs.get? name = some value →
    HasTypeOf (signature.namedBinding? name) value

/-- Every named argument that is left over is of the type of the parameter that takes
it. -/
def RestTyped (signature : Signature) (arguments : Arguments) : Prop :=
  ∀ (name : String) (value : Value), arguments.kwargs.get? name = some value →
    signature.param? name = none →
      ∀ rest, signature.varKeyword? = some rest → rest.type.accepts value

/-! ## Named arguments -/

/-- Where names are declared once the parameter of a name is told by it. -/
theorem param?_eq_some_iff (hnames : signature.names.Nodup) {param : Param} :
    signature.param? name = some param ↔
      param ∈ signature.params ∧ param.name = name ∧ param.acceptsKeyword := by
  constructor
  · intro hfound
    have hholds := List.find?_some hfound
    rw [Bool.and_eq_true, beq_iff_eq] at hholds
    exact ⟨List.mem_of_find?_eq_some hfound, hholds⟩
  · rintro ⟨hmem, rfl, haccepts⟩
    cases hfound : signature.param? param.name with
    | none => exact absurd haccepts (param?_eq_none_iff.mp hfound param hmem rfl)
    | some other =>
        have hholds := List.find?_some hfound
        rw [Bool.and_eq_true, beq_iff_eq] at hholds
        have hother : other ∈ signature.params := List.mem_of_find?_eq_some hfound
        rw [List.inj_on_of_nodup_map hnames hother hmem hholds.1]

theorem namedBinding?_of_param {param : Param} (hparam : signature.param? name = some param) :
    signature.namedBinding? name = some param := by
  rw [namedBinding?, hparam, Option.some_or]

theorem namedBinding?_of_rest {rest : Param} (hparam : signature.param? name = none)
    (hrest : signature.varKeyword? = some rest) : signature.namedBinding? name = some rest := by
  rw [namedBinding?, hparam, hrest, Option.none_or]

/-- A named argument that passed is of the type of the parameter of its name, and if there
is none it is left over. -/
theorem hasTypeOf_or_rest_of_validate (hvalidate : signature.validate arguments = .ok checked)
    (hvalue : arguments.kwargs.get? name = some value) :
    HasTypeOf (signature.param? name) value ∨
      signature.param? name = none ∧ ∃ rest, signature.varKeyword? = some rest := by
  obtain ⟨hnamed, -⟩ := validate_eq_ok_iff.mp hvalidate
  have hfaultless := checkKeywords_eq_ok_iff.mp hnamed name
  cases hparam : signature.param? name with
  | some param =>
      apply Or.inl
      apply Exists.intro param
      apply And.intro rfl
      by_contra hmismatch
      exact hfaultless _ (.mismatch hvalue hparam hmismatch)
  | none =>
      apply Or.inr
      apply And.intro rfl
      by_contra hrest
      rw [← Option.isSome_iff_exists, Option.not_isSome_iff_eq_none] at hrest
      exact hfaultless _ (.unknown hvalue (param?_eq_none_iff.mp hparam)
        (varKeyword?_eq_none_iff.mp hrest))

/-- The arguments that passed are of their parameters' types just if those left over are. -/
theorem typed_iff_restTyped (hvalidate : signature.validate arguments = .ok checked) :
    signature.Typed arguments ↔ signature.RestTyped arguments := by
  constructor
  · intro htyped name value hvalue hparam rest hrest
    obtain ⟨param, hbound, haccepts⟩ := htyped.named name value hvalue
    cases (namedBinding?_of_rest hparam hrest).symm.trans hbound
    exact haccepts
  · intro hresttyped
    constructor
    · intro place value hplace
      exact exists_binding_of_validate hvalidate hplace
    · intro name value hvalue
      rcases hasTypeOf_or_rest_of_validate hvalidate hvalue with
        ⟨param, hparam, haccepts⟩ | ⟨hparam, rest, hrest⟩
      · exact ⟨param, namedBinding?_of_param hparam, haccepts⟩
      · exact ⟨rest, namedBinding?_of_rest hparam hrest,
          hresttyped name value hvalue hparam rest hrest⟩

/-- Arguments that pass the check of a signature are taken as they are.  The positional
ones are of the types of the parameters that they are bound to, and so are those that
parameters take by name.  The others have the parameter for what is left over, and its
type just if all arguments are typed. -/
theorem typed_of_validate (hcheck : signature.check = .ok ())
    (hvalidate : signature.validate arguments = .ok checked) :
    checked = arguments ∧
      (∀ (place : Nat) (value : Value), arguments.args[place]? = some value →
        HasTypeOf (signature.binding? arguments.kwargs place) value) ∧
      (∀ param ∈ signature.params, param.acceptsKeyword →
        ∀ value, arguments.kwargs.get? param.name = some value →
          signature.namedBinding? param.name = some param ∧ param.type.accepts value) ∧
      (∀ (name : String) (value : Value), arguments.kwargs.get? name = some value →
        (signature.namedBinding? name).isSome) ∧
      (signature.Typed arguments ↔ signature.RestTyped arguments) := by
  obtain ⟨hnames, -⟩ := check_eq_ok_iff.mp hcheck
  have hnamed := fun name value (hvalue : arguments.kwargs.get? name = some value) =>
    hasTypeOf_or_rest_of_validate hvalidate hvalue
  refine ⟨eq_of_validate hvalidate, fun place value => exists_binding_of_validate hvalidate,
    ?_, ?_, typed_iff_restTyped hvalidate⟩
  · intro param hmem haccepts value hvalue
    have hparam := (param?_eq_some_iff hnames).mpr ⟨hmem, rfl, haccepts⟩
    rcases hnamed param.name value hvalue with ⟨other, hother, htype⟩ | ⟨hnone, -⟩
    · cases hparam.symm.trans hother
      exact ⟨namedBinding?_of_param hparam, htype⟩
    · cases hparam.symm.trans hnone
  · intro name value hvalue
    rcases hnamed name value hvalue with ⟨param, hparam, -⟩ | ⟨hparam, rest, hrest⟩
    · exact Option.isSome_of_eq_some (namedBinding?_of_param hparam)
    · exact Option.isSome_of_eq_some (namedBinding?_of_rest hparam hrest)

/-! ## One parameter of each kind -/

/-- A signature with all kinds of parameters, in no special order. -/
def surveySignature : Signature where
  params := [.varKeyword "options" (.primitive .int), .positional "name" (.primitive .str),
    .varPositional "depths" (.primitive .int), .positional "start" (.primitive .int),
    .keyword "mode" (.optional (.primitive .str))]
  returns := none

/-- Of the positional arguments the first is the name, and the others are depths, since
the start is given by name. -/
def surveyArguments : Arguments where
  args := [.str "reef", .int 12, .int 30]
  kwargs := SortedMap.ofList [("start", .int 5), ("mode", .none), ("speed", .int 4)]

/-- Of the named arguments only the speed is left over, and it is a whole number. -/
theorem restTyped_survey : surveySignature.RestTyped surveyArguments := by
  intro name value hvalue hparam rest hrest
  have hmem : (name, value) ∈ [("mode", .none), ("speed", .int 4), ("start", .int 5)] :=
    SortedMap.mem_entries_iff.mpr hvalue
  rcases List.mem_cons.mp hmem with hmode | hmem
  · cases hmode
    cases hparam
  · rcases List.mem_pair.mp hmem with hspeed | hstart
    · cases hspeed
      cases hrest
      rfl
    · cases hstart
      cases hparam

theorem typed_of_validate_survey :
    surveySignature.check = .ok () ∧
      surveySignature.validate surveyArguments = .ok surveyArguments ∧
      surveySignature.Typed surveyArguments := by
  have hcheck : surveySignature.check = .ok () := rfl
  have hvalidate : surveySignature.validate surveyArguments = .ok surveyArguments := rfl
  obtain ⟨-, -, -, -, htyped⟩ := typed_of_validate hcheck hvalidate
  exact ⟨hcheck, hvalidate, htyped.mpr restTyped_survey⟩

/-! ## An argument of another type -/

/-- A signature that takes any named whole numbers. -/
def optionsSignature : Signature := ⟨[.varKeyword "options" (.primitive .int)], none⟩

/-- A named argument that is not a whole number. -/
def optionsArguments : Arguments := ⟨[], .ofList [("depth", .str "deep")]⟩

/-- A named argument that is left over is accepted though it is not of the type that the
signature declares for it. -/
theorem not_typed_options :
    optionsSignature.check = .ok () ∧
      optionsSignature.validate optionsArguments = .ok optionsArguments ∧
      ¬ optionsSignature.Typed optionsArguments := by
  refine ⟨rfl, rfl, fun htyped => ?_⟩
  obtain ⟨param, hbound, haccepts⟩ := htyped.named "depth" (.str "deep") rfl
  cases hbound
  cases haccepts

end RemoteCall.Signature
