import Mathlib.Data.List.Nodup
import RemoteCall.Proofs.SortedMap
import RemoteCall.Signature.Arguments

/-!
# Which parameter an argument is bound to

A positional argument is bound to the parameter at its place among those that no
named argument takes, and beyond them to the parameter for what is left over.
More named arguments can only take parameters away.  They leave every argument
with its parameter just if they take none of those that arguments are bound to:
the arguments from the first such parameter on would move up.
-/

namespace RemoteCall.Signature

variable {signature : Signature} {arguments checked : Arguments}
  {kwargs more : SortedMap String Value}

/-- The parameter that the positional argument at a place is bound to, beside the
given named arguments. -/
def binding? (signature : Signature) (kwargs : SortedMap String Value) (place : Nat) :
    Option Param :=
  (signature.openPositionals kwargs)[place]?.or signature.varPositional?

/-! ## Checking follows the bindings -/

theorem checkType_eq_ok_iff (name : String) {value : Value} {type : TypeExpr} :
    checkType name value type = .ok () ↔ type.accepts value := by
  by_cases haccepts : type.accepts value <;> simp [checkType, haccepts]

theorem checkPositionals_eq_ok_iff {surplus : ValidationError} {rest : Option Param}
    {params : List Param} {values : List Value} :
    checkPositionals surplus rest params values = .ok () ↔
      ∀ (place : Nat) (value : Value), values[place]? = some value →
        ∃ param, params[place]?.or rest = some param ∧ param.type.accepts value := by
  induction values generalizing params with
  | nil => cases params <;> simp [checkPositionals]
  | cons value values ih =>
      -- The first value against the parameter `bound`, the others against `params'`.
      have hstep : ∀ (bound : Param) (params' : List Param),
          (∀ place : Nat, params[place + 1]? = params'[place]?) → params[0]?.or rest = some bound →
          ((bound.type.accepts value ∧
              checkPositionals surplus rest params' values = .ok ()) ↔
            ∀ (place : Nat) (value' : Value), (value :: values)[place]? = some value' →
              ∃ param, params[place]?.or rest = some param ∧ param.type.accepts value') := by
        intro bound params' htail hhead
        rw [ih]
        constructor
        · rintro ⟨hvalue, hvalues⟩ place value' hplace
          cases place with
          | zero =>
              cases hplace
              exact ⟨bound, hhead, hvalue⟩
          | succ place =>
              rw [htail]
              exact hvalues place value' hplace
        · intro hvalues
          refine ⟨?_, fun place value' hplace => ?_⟩
          · obtain ⟨param, hparam, haccepts⟩ := hvalues 0 value rfl
            rw [hhead] at hparam
            cases hparam
            exact haccepts
          · have hlater := hvalues (place + 1) value' hplace
            rwa [htail] at hlater
      cases params with
      | cons param params =>
          rw [← hstep param params (fun _ => rfl) rfl, checkPositionals,
            ← checkType_eq_ok_iff param.name]
          cases checkType param.name value param.type <;> simp
      | nil =>
          cases rest with
          | none =>
              simp only [checkPositionals, reduceCtorEq, List.getElem?_nil, Option.or_none,
                false_and, exists_false, false_iff, not_forall]
              exact ⟨0, value, rfl, id⟩
          | some param =>
              rw [← hstep param [] (fun _ => rfl) rfl, checkPositionals,
                ← checkType_eq_ok_iff param.name]
              cases checkType param.name value param.type <;> simp

theorem eq_of_validate (hvalidate : signature.validate arguments = .ok checked) :
    checked = arguments := by
  rw [validate] at hvalidate
  split at hvalidate
  · cases hvalidate
  · dsimp only at hvalidate
    split at hvalidate <;> cases hvalidate
    rfl

/-- Every positional argument that passed is of the type of the parameter that it is
bound to. -/
theorem exists_binding_of_validate (hvalidate : signature.validate arguments = .ok checked)
    {place : Nat} {value : Value} (hplace : arguments.args[place]? = some value) :
    ∃ param, signature.binding? arguments.kwargs place = some param ∧
      param.type.accepts value := by
  rw [validate] at hvalidate
  split at hvalidate
  · cases hvalidate
  · dsimp only at hvalidate
    split at hvalidate
    · cases hvalidate
    · rename_i hpositionals
      exact checkPositionals_eq_ok_iff.mp hpositionals place value hplace

/-! ## More named arguments -/

/-- Taking members out of a list leaves the first places as they are just if none of
the members there is taken out.  Places beyond the list hold `rest`. -/
theorem filter_places_eq_iff {params : List Param} {keep : Param → Bool} {rest : Option Param}
    (hnodup : params.Nodup) (hrest : ∀ param ∈ params, rest ≠ some param) (count : Nat) :
    (∀ place < count, (params.filter keep)[place]?.or rest = params[place]?.or rest) ↔
      ∀ param ∈ params.take count, keep param := by
  induction params generalizing count with
  | nil => simp
  | cons param params ih =>
      cases count with
      | zero => simp
      | succ count =>
          obtain ⟨hfresh, hnodup⟩ := List.nodup_cons.mp hnodup
          rw [List.forall_mem_cons] at hrest
          by_cases hkeep : keep param
          · rw [List.filter_cons_of_pos hkeep, List.take_succ_cons, List.forall_mem_cons,
              ← ih hnodup hrest.2, and_iff_right hkeep]
            constructor
            · intro hplaces place hlt
              exact hplaces (place + 1) (Nat.succ_lt_succ hlt)
            · intro hplaces place hlt
              cases place with
              | zero => rfl
              | succ place => exact hplaces place (Nat.lt_of_succ_lt_succ hlt)
          · -- Whatever stands first now is not the parameter that was taken out.
            refine iff_of_false (fun hplaces => ?_) fun hall =>
              hkeep (hall param List.mem_cons_self)
            have hfirst := hplaces 0 (Nat.succ_pos count)
            rw [List.filter_cons_of_neg hkeep] at hfirst
            change _ = some param at hfirst
            rcases Option.or_eq_some_iff.mp hfirst with hfound | ⟨-, hrest'⟩
            · exact hfresh (List.mem_of_mem_filter (List.mem_of_getElem? hfound))
            · exact hrest.1 hrest'

theorem nodup_openPositionals (hnames : signature.names.Nodup) :
    (signature.openPositionals kwargs).Nodup := by
  have hparams : signature.params.Nodup := List.Nodup.of_map _ hnames
  exact (hparams.filter _).filter _

theorem varPositional?_ne_of_mem {param : Param}
    (hmem : param ∈ signature.openPositionals kwargs) :
    signature.varPositional? ≠ some param := by
  intro hvar
  have hpositional := (List.mem_filter.mp (List.mem_of_mem_filter hmem)).2
  have hkind := List.find?_some hvar
  rw [beq_iff_eq] at hpositional hkind
  rw [hpositional] at hkind
  cases hkind

theorem openPositionals_of_more (hmore : ∀ name, kwargs.contains name → more.contains name) :
    signature.openPositionals more =
      (signature.openPositionals kwargs).filter fun param => !more.contains param.name := by
  rw [openPositionals, openPositionals, List.filter_filter]
  refine List.filter_congr fun param _ => ?_
  cases hcontains : kwargs.contains param.name with
  | false => simp
  | true => simp [hmore _ hcontains]

/-- Beside more named arguments the first positional arguments keep their parameters
just if none of those parameters is named. -/
theorem binding?_eq_iff (hnames : signature.names.Nodup)
    (hmore : ∀ name, kwargs.contains name → more.contains name) (count : Nat) :
    (∀ place < count, signature.binding? more place = signature.binding? kwargs place) ↔
      ∀ param ∈ (signature.openPositionals kwargs).take count, ¬ more.contains param.name := by
  simp only [binding?, openPositionals_of_more hmore]
  rw [filter_places_eq_iff (nodup_openPositionals hnames)
    fun param => varPositional?_ne_of_mem]
  simp

/-! ## Names declared once -/

theorem firstFault?_eq_none_iff {seen : List String} {params : List Param} :
    firstFault? seen params = none ↔
      (params.map Param.name).Nodup ∧
        ∀ param ∈ params, param.name ≠ RemoteCall.reservedKeyword ∧ param.name ∉ seen := by
  induction params generalizing seen with
  | nil => simp [firstFault?]
  | cons param params ih =>
      rw [firstFault?, List.map_cons, List.nodup_cons, List.forall_mem_cons]
      by_cases hreserved : param.name = RemoteCall.reservedKeyword
      · simp [hreserved]
      · by_cases hseen : param.name ∈ seen
        · simp [hreserved, hseen]
        · rw [if_neg hreserved, if_neg hseen, ih]
          -- What is not among the names seen now is not this name, and was not seen before.
          simp only [List.mem_cons, not_or, List.mem_map, not_exists, not_and]
          grind

/-- A signature can be used just if its names are told apart and none is reserved. -/
theorem check_eq_ok_iff :
    signature.check = .ok () ↔
      signature.names.Nodup ∧ RemoteCall.reservedKeyword ∉ signature.names := by
  have hnone : signature.check = .ok () ↔ firstFault? [] signature.params = none := by
    rw [check]
    split <;> simp_all
  rw [hnone, firstFault?_eq_none_iff, names, List.mem_map]
  simp only [List.not_mem_nil, not_false_eq_true, and_true, not_exists, not_and, ne_eq]

theorem nodup_names_withoutReceiver {hasSelf : Bool} (hnames : signature.names.Nodup) :
    (signature.withoutReceiver hasSelf).names.Nodup := by
  refine hnames.sublist (List.Sublist.map _ ?_)
  refine List.Sublist.trans List.filter_sublist ?_
  split
  · rename_i hparams
    rw [hparams]
    split
    · exact List.sublist_cons_self _ _
    · exact List.Sublist.refl _
  · exact List.nil_sublist _

end RemoteCall.Signature
