import RemoteCall.Migration.Conversion
import RemoteCall.Proofs.Outcome
import RemoteCall.Proofs.SortedMap

/-!
# Undoing field changes

A field change can be told from either version's side, and going up is going
down the change told from the other side.  Where a change meets the fields that
it describes, undoing it brings every field back, but for a removed one, which
comes back with the default.  Along a list of changes the same holds, since the
list is undone from its end; what has become of a field is then a matter of the
name that it has at each place in the list.
-/

namespace RemoteCall

open Entries (Ascending Related)

namespace Converter

theorem all_append (first second : List Converter) (fields : Fields) :
    Converter.all (first ++ second) fields =
      (Converter.all first fields).bind (Converter.all second) := by
  induction first generalizing fields with
  | nil => rfl
  | cons convert rest ih =>
      simp only [List.cons_append, Converter.all]
      cases convert fields with
      | error e => rfl
      | ok fields' => exact ih fields'

end Converter

namespace FieldOp

/-- The change told from the older version's side. -/
def inverse : FieldOp → FieldOp
  | .rename newer older => .rename older newer
  | .remove name default => .add name default
  | .add name default => .remove name default

@[simp]
theorem inverse_inverse (op : FieldOp) : op.inverse.inverse = op := by
  cases op <;> rfl

theorem upgrade_eq_downgrade_inverse (type : String) (op : FieldOp) :
    op.upgrade type = op.inverse.downgrade type := by
  cases op <;> rfl

/-- Whether the fields are as the change describes them: what it takes is there,
and where it puts something nothing is yet. -/
def Fits (fields : Fields) : FieldOp → Prop
  | .rename newer older =>
    (Entries.find? newer fields).isSome ∧ Entries.find? older fields = none
  | .remove name _ => (Entries.find? name fields).isSome
  | .add name _ => Entries.find? name fields = none

/-- Whether the change drops no field, and where it puts something nothing is
yet. -/
def Lossless (fields : Fields) : FieldOp → Prop
  | .rename _ older => Entries.find? older fields = none
  | .remove _ _ => False
  | .add name _ => Entries.find? name fields = none

/-- What a relation between the older fields says of the newer ones, by name.  A
removed field comes back with the default, whatever it was. -/
def carry (R : String → Value → Value → Prop) : FieldOp → String → Value → Value → Prop
  | .rename newer older, name => if name = newer then R older else R name
  | .remove removed default, name =>
    if name = removed then fun _ value => value = default else R name
  | .add _ _, name => R name

/-! ## One change -/

section

variable {type : String} {op : FieldOp} {fields fields' : Fields}

theorem move_eq_ok_iff {source target : String} :
    move type source target fields = .ok fields' ↔
      ∃ value, Entries.find? source fields = some value ∧
        Entries.insert target value (Entries.erase source fields) = fields' := by
  rw [move]
  cases Entries.find? source fields with
  | none => simp
  | some value => simp

theorem exists_downgrade (type : String) (hfits : op.Fits fields) :
    ∃ fields', op.downgrade type fields = .ok fields' := by
  cases op with
  | rename newer older =>
      obtain ⟨value, hvalue⟩ := Option.isSome_iff_exists.mp hfits.1
      exact ⟨_, move_eq_ok_iff.mpr ⟨value, hvalue, rfl⟩⟩
  | remove name default => exact ⟨_, rfl⟩
  | add name default => exact ⟨_, rfl⟩

theorem ascending_downgrade (hascending : Ascending fields)
    (hdown : op.downgrade type fields = .ok fields') : Ascending fields' := by
  cases op with
  | rename newer older =>
      obtain ⟨value, -, rfl⟩ := move_eq_ok_iff.mp hdown
      exact Entries.ascending_insert (Entries.ascending_erase hascending)
  | remove name default =>
      cases hdown
      exact Entries.ascending_erase hascending
  | add name default =>
      cases hdown
      exact Entries.ascending_insertIfNew hascending

theorem fits_of_lossless (hlossless : op.Lossless fields)
    (hdown : op.downgrade type fields = .ok fields') : op.Fits fields := by
  cases op with
  | rename newer older =>
      obtain ⟨value, hvalue, -⟩ := move_eq_ok_iff.mp hdown
      exact ⟨Option.isSome_iff_exists.mpr ⟨value, hvalue⟩, hlossless⟩
  | remove name default => exact hlossless.elim
  | add name default => exact hlossless

theorem carry_of_lossless {S : Value → Value → Prop} (hlossless : op.Lossless fields) :
    op.carry (fun _ => S) = fun _ => S := by
  funext name
  cases op with
  | rename newer older => simp [carry]
  | remove removed default => exact hlossless.elim
  | add added default => rfl

/-- Undoing a change keeps to what is known of the older fields. -/
theorem exists_upgrade {right' : Fields} {R : String → Value → Value → Prop}
    (hfits : op.Fits fields) (hdown : op.downgrade type fields = .ok fields')
    (hrelated : Related R fields' right') :
    ∃ right, op.upgrade type right' = .ok right ∧ Related (op.carry R) fields right := by
  cases op with
  | rename newer older =>
      obtain ⟨hnewer, holder⟩ := hfits
      obtain ⟨value, hvalue, rfl⟩ := move_eq_ok_iff.mp hdown
      have hmoved : Entries.find? older
          (Entries.insert older value (Entries.erase newer fields)) = some value := by
        rw [Entries.find?_insert_eq_ite, if_pos rfl]
      obtain ⟨value', hvalue', hR⟩ := hrelated.exists_right hmoved
      refine ⟨_, move_eq_ok_iff.mpr ⟨value', hvalue', rfl⟩, fun name => ?_⟩
      rw [Entries.find?_insert_eq_ite, Entries.find?_erase_eq_ite]
      -- Three names to tell apart: where the value goes back to, the name that it
      -- leaves, which was free before, and any other, which neither move touches.
      by_cases hname : name = newer
      · subst name
        simp only [hvalue, carry, if_true]
        exact .some hR
      · by_cases hname' : name = older
        · subst name
          rw [holder, if_neg hname, if_pos rfl]
          exact .none
        · have hother := hrelated name
          rw [Entries.find?_insert_eq_ite, Entries.find?_erase_eq_ite, if_neg hname',
            if_neg hname] at hother
          simpa only [carry, hname, hname', if_false] using hother
  | remove removed default =>
      cases hdown
      -- The default goes in, since nothing can have come to stand under the name.
      have habsent : Entries.find? removed right' = none :=
        hrelated.find?_eq_none (by rw [Entries.find?_erase_eq_ite, if_pos rfl])
      refine ⟨_, rfl, fun name => ?_⟩
      rw [Entries.insertIfNew_of_find?_eq_none habsent, Entries.find?_insert_eq_ite]
      by_cases hname : name = removed
      · subst name
        obtain ⟨value, hvalue⟩ := Option.isSome_iff_exists.mp hfits
        simp only [hvalue, carry, if_true]
        exact .some rfl
      · have hother := hrelated name
        rw [Entries.find?_erase_eq_ite, if_neg hname] at hother
        simpa only [carry, hname, if_false] using hother
  | add added default =>
      cases hdown
      refine ⟨_, rfl, fun name => ?_⟩
      rw [Entries.find?_erase_eq_ite]
      by_cases hname : name = added
      · subst name
        rw [if_pos rfl, show Entries.find? added fields = none from hfits]
        exact .none
      · have hother := hrelated name
        rw [Entries.insertIfNew_of_find?_eq_none hfits, Entries.find?_insert_eq_ite,
          if_neg hname] at hother
        rwa [if_neg hname]

end

/-! ## Lists of changes -/

/-- Apply changes one after the other. -/
def downgradeAll (type : String) (changes : List FieldOp) : Converter :=
  Converter.all (changes.map (downgrade type))

/-- Undo changes, the last one first. -/
def upgradeAll (type : String) (changes : List FieldOp) : Converter :=
  Converter.all (changes.reverse.map (upgrade type))

/-- The list of changes told from the older version's side. -/
def inverseAll (changes : List FieldOp) : List FieldOp := changes.reverse.map inverse

/-- Whether `P` holds of each change and of the fields that it meets. -/
def Along (P : Fields → FieldOp → Prop) (type : String) : List FieldOp → Fields → Prop
  | [], _ => True
  | op :: rest, fields =>
    P fields op ∧ ∀ fields', op.downgrade type fields = .ok fields' → Along P type rest fields'

/-- `carry` through a list of changes. -/
def carryAll (R : String → Value → Value → Prop) (changes : List FieldOp) :
    String → Value → Value → Prop :=
  changes.foldr (fun op R => op.carry R) R

/-- The default that a field comes back with, if the changes drop it.  The name
is followed through the renamings up to where the field is dropped. -/
def dropped : List FieldOp → String → Option Value
  | [], _ => none
  | .rename newer older :: rest, name => dropped rest (if name = newer then older else name)
  | .remove removed default :: rest, name =>
    if name = removed then some default else dropped rest name
  | .add _ _ :: rest, name => dropped rest name

theorem downgradeAll_append {type : String} {first second : List FieldOp} {fields : Fields} :
    downgradeAll type (first ++ second) fields =
      (downgradeAll type first fields).bind (downgradeAll type second) := by
  rw [downgradeAll, List.map_append, Converter.all_append]
  rfl

theorem upgradeAll_append {type : String} {first second : List FieldOp} {fields : Fields} :
    upgradeAll type (first ++ second) fields =
      (upgradeAll type second fields).bind (upgradeAll type first) := by
  rw [upgradeAll, List.reverse_append, List.map_append, Converter.all_append]
  rfl

theorem downgradeAll_singleton (type : String) (op : FieldOp) :
    downgradeAll type [op] = op.downgrade type := by
  funext fields
  simp only [downgradeAll, List.map_cons, List.map_nil, Converter.all]
  cases op.downgrade type fields <;> rfl

theorem upgradeAll_singleton (type : String) (op : FieldOp) :
    upgradeAll type [op] = op.upgrade type := by
  funext fields
  simp only [upgradeAll, List.reverse_singleton, List.map_cons, List.map_nil, Converter.all]
  cases op.upgrade type fields <;> rfl

theorem downgradeAll_cons {type : String} {op : FieldOp} {rest : List FieldOp}
    {fields : Fields} :
    downgradeAll type (op :: rest) fields =
      (op.downgrade type fields).bind (downgradeAll type rest) := by
  rw [← List.singleton_append, downgradeAll_append, downgradeAll_singleton]

theorem downgradeAll_cons_eq_ok_iff {type : String} {op : FieldOp} {rest : List FieldOp}
    {fields fields' : Fields} :
    downgradeAll type (op :: rest) fields = .ok fields' ↔
      ∃ between, op.downgrade type fields = .ok between ∧
        downgradeAll type rest between = .ok fields' := by
  rw [downgradeAll_cons, Outcome.bind_eq_ok_iff]

theorem upgradeAll_cons {type : String} {op : FieldOp} {rest : List FieldOp}
    {fields : Fields} :
    upgradeAll type (op :: rest) fields =
      (upgradeAll type rest fields).bind (op.upgrade type) := by
  rw [← List.singleton_append, upgradeAll_append, upgradeAll_singleton]

theorem upgradeAll_eq_downgradeAll (type : String) (changes : List FieldOp) :
    upgradeAll type changes = downgradeAll type (inverseAll changes) := by
  rw [upgradeAll, downgradeAll, inverseAll, List.map_map]
  congr 2
  funext op
  exact upgrade_eq_downgrade_inverse type op

@[simp]
theorem inverseAll_inverseAll (changes : List FieldOp) :
    inverseAll (inverseAll changes) = changes := by
  simp [inverseAll, Function.comp_def]

section

variable {type : String} {changes : List FieldOp} {fields fields' : Fields}

theorem exists_downgradeAll (hfits : Along (fun fields op => op.Fits fields) type changes fields) :
    ∃ fields', downgradeAll type changes fields = .ok fields' := by
  induction changes generalizing fields with
  | nil => exact ⟨fields, rfl⟩
  | cons op rest ih =>
      obtain ⟨hop, hrest⟩ := hfits
      obtain ⟨between, hbetween⟩ := exists_downgrade type hop
      obtain ⟨fields', hfields'⟩ := ih (hrest between hbetween)
      exact ⟨fields', downgradeAll_cons_eq_ok_iff.mpr ⟨between, hbetween, hfields'⟩⟩

theorem ascending_downgradeAll (hascending : Ascending fields)
    (hdown : downgradeAll type changes fields = .ok fields') : Ascending fields' := by
  induction changes generalizing fields with
  | nil =>
      cases hdown
      exact hascending
  | cons op rest ih =>
      obtain ⟨between, hbetween, hrest⟩ := downgradeAll_cons_eq_ok_iff.mp hdown
      exact ih (ascending_downgrade hascending hbetween) hrest

theorem ascending_upgradeAll (hascending : Ascending fields)
    (hup : upgradeAll type changes fields = .ok fields') : Ascending fields' := by
  rw [upgradeAll_eq_downgradeAll] at hup
  exact ascending_downgradeAll hascending hup

theorem exists_upgradeAll {right' : Fields} {R : String → Value → Value → Prop}
    (hfits : Along (fun fields op => op.Fits fields) type changes fields)
    (hdown : downgradeAll type changes fields = .ok fields')
    (hrelated : Related R fields' right') :
    ∃ right, upgradeAll type changes right' = .ok right ∧
      Related (carryAll R changes) fields right := by
  induction changes generalizing fields with
  | nil =>
      cases hdown
      exact ⟨right', rfl, hrelated⟩
  | cons op rest ih =>
      obtain ⟨hop, hrest⟩ := hfits
      obtain ⟨between, hbetween⟩ := exists_downgrade type hop
      rw [downgradeAll_cons, hbetween] at hdown
      obtain ⟨back, hback, hbackRelated⟩ := ih (hrest between hbetween) hdown
      obtain ⟨right, hright, hrightRelated⟩ := exists_upgrade hop hbetween hbackRelated
      refine ⟨right, ?_, hrightRelated⟩
      rw [upgradeAll_cons, hback]
      exact hright

/-- Where nothing is dropped, what holds of all fields is carried along as it is. -/
theorem fits_and_carryAll_of_lossless {S : Value → Value → Prop}
    (hlossless : Along (fun fields op => op.Lossless fields) type changes fields)
    (hdown : downgradeAll type changes fields = .ok fields') :
    Along (fun fields op => op.Fits fields) type changes fields ∧
      carryAll (fun _ => S) changes = fun _ => S := by
  induction changes generalizing fields with
  | nil => exact ⟨trivial, rfl⟩
  | cons op rest ih =>
      obtain ⟨hop, hlater⟩ := hlossless
      obtain ⟨between, hbetween, hrest⟩ := downgradeAll_cons_eq_ok_iff.mp hdown
      obtain ⟨hfits, hcarry⟩ := ih (hlater between hbetween) hrest
      refine ⟨⟨fits_of_lossless hop hbetween, ?_⟩, ?_⟩
      · intro between' hbetween'
        cases hbetween.symm.trans hbetween'
        exact hfits
      · calc
          carryAll (fun _ => S) (op :: rest) = op.carry (carryAll (fun _ => S) rest) := rfl
          _ = op.carry (fun _ => S) := by rw [hcarry]
          _ = fun _ => S := carry_of_lossless hop

end

theorem carryAll_eq_iff {changes : List FieldOp} {name : String} {value value' : Value} :
    carryAll (fun _ left right => right = left) changes name value value' ↔
      value' = (dropped changes name).getD value := by
  induction changes generalizing name with
  | nil => rfl
  | cons op rest ih =>
      cases op with
      | rename newer older =>
          simp only [carryAll, List.foldr_cons, carry, dropped]
          split <;> exact ih
      | remove removed default =>
          simp only [carryAll, List.foldr_cons, carry, dropped]
          split
          · rfl
          · exact ih
      | add added default => exact ih

theorem related_dropped_iff {changes : List FieldOp} {fields back : Fields} :
    Related (carryAll (fun _ left right => right = left) changes) fields back ↔
      ∀ name, Entries.find? name back =
        (Entries.find? name fields).map fun value => (dropped changes name).getD value := by
  refine forall_congr' fun name => ?_
  cases hfields : Entries.find? name fields with
  | none => cases hback : Entries.find? name back <;> simp
  | some value =>
      cases hback : Entries.find? name back with
      | none => simp
      | some value' => simp [carryAll_eq_iff]

/-- Changes that meet the fields that they describe, and undoing them, keep every
field that is not dropped on the way. -/
theorem exists_downgradeAll_upgradeAll {type : String} {changes : List FieldOp}
    {fields : Fields}
    (hfits : Along (fun fields op => op.Fits fields) type changes fields) :
    ∃ fields' back, downgradeAll type changes fields = .ok fields' ∧
      upgradeAll type changes fields' = .ok back ∧
        ∀ name, Entries.find? name back =
          (Entries.find? name fields).map fun value => (dropped changes name).getD value := by
  obtain ⟨fields', hfields'⟩ := exists_downgradeAll hfits
  have hrefl : Related (fun _ left right => right = left) fields' fields' := by
    intro name
    cases Entries.find? name fields' with
    | none => exact .none
    | some value => exact .some rfl
  obtain ⟨back, hback, hrelated⟩ := exists_upgradeAll hfits hfields' hrefl
  exact ⟨fields', back, hfields', hback, related_dropped_iff.mp hrelated⟩

end FieldOp

end RemoteCall
