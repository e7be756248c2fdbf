import RemoteCall.Proofs.Json.Reordered

/-!
# The limit of nesting

What is read of a text and denotes a value is nested no deeper than the reader allows, for
what is nested deeper denotes nothing.  A number is never nested, whatever it denotes.
-/

namespace RemoteCall.Json

open RemoteCall.Json.Parser

variable {name : List Unit16 → Option String} {text rest : List Char} {tree : Json} {room : Nat}

/-! ## Numbers -/

theorem depth_floatOf (negative : Bool) (digits : Nat) (exponent : Int) :
    (floatOf negative digits exponent).depth = 0 := by
  rw [floatOf]
  split <;> rfl

theorem depth_integerOf (negative : Bool) (n : Nat) : (integerOf negative n).depth = 0 := by
  rw [integerOf]
  split
  · split
    · exact depth_floatOf _ _ _
    · rfl
  · split
    · rfl
    · exact depth_floatOf _ _ _

theorem depth_of_unsigned? {negative : Bool}
    (hread : unsigned? negative text = some (tree, rest)) : tree.depth = 0 := by
  rw [unsigned?] at hread
  split at hread
  · cases hread
  · split at hread
    · cases hread
    · split at hread
      · cases hread
      · dsimp only at hread
        split at hread
        · cases hread
          exact depth_integerOf _ _
        · cases hread
          exact depth_floatOf _ _ _

theorem depth_of_number? (hread : number? text = some (tree, rest)) : tree.depth = 0 := by
  rw [number?.eq_def] at hread
  split at hread <;> exact depth_of_unsigned? hread

/-! ## Arrays and objects -/

/-- Where there is no room, nothing is denoted. -/
theorem depth_nested_le {value : Json} (hreadable : (nested room value).isReadable)
    (hdepth : value.isReadable → value.depth ≤ 1 + (room - 1)) :
    (nested room value).depth ≤ room := by
  by_cases hroom : room = 0
  · simp [nested, hroom, isReadable] at hreadable
  · simp only [nested, if_neg hroom] at hreadable ⊢
    have hvalue := hdepth hreadable
    omega

theorem depth_arr_le {items : List Json}
    (hitems : ∀ item ∈ items, item.isReadable → item.depth ≤ room)
    (hreadable : (arr items).isReadable) : (arr items).depth ≤ 1 + room := by
  have hbound : depthItems items ≤ room := depthItems_le_iff.mpr fun item hmem =>
    hitems item hmem (areReadable_iff.mp hreadable item hmem)
  exact Nat.add_le_add_left hbound 1

/-- Whatever is among the results is the result of something. -/
theorem exists_of_mem_mapM {α β : Type} {f : α → Option β} {list : List α} {results : List β}
    (hresults : list.mapM f = some results) : ∀ b ∈ results, ∃ a ∈ list, f a = some b := by
  induction list generalizing results with
  | nil =>
      cases hresults
      exact nofun
  | cons a rest ih =>
      simp only [List.mapM_cons, Option.bind_eq_bind, Option.bind_eq_some_iff, Option.pure_def,
        Option.some.injEq] at hresults
      obtain ⟨b, hb, tail, htail, rfl⟩ := hresults
      refine List.forall_mem_cons.mpr ⟨⟨a, List.mem_cons_self, hb⟩, fun b' hmem => ?_⟩
      obtain ⟨a', hmem', hb'⟩ := ih htail b' hmem
      exact ⟨a', List.mem_cons_of_mem _ hmem', hb'⟩

theorem depth_objectOf_le {members : List (Option String × Json)}
    (hmembers : ∀ member ∈ members, member.2.isReadable → member.2.depth ≤ room)
    (hreadable : (objectOf members).isReadable) : (objectOf members).depth ≤ 1 + room := by
  cases hnamed : members.mapM fun member => member.1.map fun name => (name, member.2) with
  | none =>
      rw [objectOf, hnamed] at hreadable
      cases hreadable
  | some named =>
      rw [objectOf, hnamed] at hreadable ⊢
      have hbound : depthMembers named ≤ room := by
        refine depthMembers_le_iff.mpr fun member hmem => ?_
        have hvalue : member.2.isReadable := membersReadable_iff.mp hreadable member hmem
        obtain ⟨other, hother, hname⟩ := exists_of_mem_mapM hnamed member hmem
        obtain ⟨name, -, rfl⟩ := Option.map_eq_some_iff.mp hname
        exact hmembers other hother hvalue
      exact Nat.add_le_add_left hbound 1

/-! ## Texts -/

/-- With so many steps no value is read that is nested deeper than there is room for. -/
def BoundsValues (name : List Unit16 → Option String) (steps : Nat) : Prop :=
  ∀ ⦃room text tree rest⦄, value? name steps room text = some (tree, rest) →
    tree.isReadable → tree.depth ≤ room

/-- With so many steps no item is read that is nested deeper than there is room for. -/
def BoundsItems (name : List Unit16 → Option String) (steps : Nat) : Prop :=
  ∀ ⦃room text items rest⦄, items? name steps room text = some (items, rest) →
    ∀ item ∈ items, item.isReadable → item.depth ≤ room

/-- With so many steps no member is read that is nested deeper than there is room for. -/
def BoundsMembers (name : List Unit16 → Option String) (steps : Nat) : Prop :=
  ∀ ⦃room text members rest⦄, Parser.members? name steps room text = some (members, rest) →
    ∀ member ∈ members, member.2.isReadable → member.2.depth ≤ room

variable {steps : Nat}

/-- Inside an array or an object there is room for one level less. -/
theorem boundsValues_succ (hitems : BoundsItems name steps) (hmembers : BoundsMembers name steps) :
    BoundsValues name (steps + 1) := by
  intro room text tree rest hread hreadable
  rw [value?.eq_def] at hread
  dsimp only at hread
  split at hread
  · split at hread
    · cases hread
      exact depth_nested_le hreadable fun _ => Nat.le_add_right 1 _
    · split at hread
      · rename_i hinside
        cases hread
        exact depth_nested_le hreadable (depth_objectOf_le (hmembers hinside))
      · cases hread
  · split at hread
    · cases hread
      exact depth_nested_le hreadable fun _ => Nat.le_add_right 1 _
    · split at hread
      · rename_i hinside
        cases hread
        exact depth_nested_le hreadable (depth_arr_le (hitems hinside))
      · cases hread
  · split at hread <;> cases hread <;> exact Nat.zero_le _
  · cases hread
    exact Nat.zero_le _
  · cases hread
    exact Nat.zero_le _
  · cases hread
    exact Nat.zero_le _
  · rw [depth_of_number? hread]
    exact Nat.zero_le _

theorem boundsItems_succ (hvalues : BoundsValues name steps) (hitems : BoundsItems name steps) :
    BoundsItems name (steps + 1) := by
  intro room text items rest hread
  rw [items?] at hread
  split at hread
  · cases hread
  · rename_i hvalue
    split at hread
    · cases hread
      exact List.forall_mem_singleton.mpr (hvalues hvalue)
    · split at hread
      · rename_i hmore
        cases hread
        exact List.forall_mem_cons.mpr ⟨hvalues hvalue, hitems hmore⟩
      · cases hread
    · cases hread

theorem boundsMembers_succ (hvalues : BoundsValues name steps)
    (hmembers : BoundsMembers name steps) : BoundsMembers name (steps + 1) := by
  intro room text members rest hread
  rw [Parser.members?.eq_def] at hread
  dsimp only at hread
  split at hread
  · split at hread
    · cases hread
    · split at hread
      · split at hread
        · cases hread
        · rename_i hvalue
          split at hread
          · cases hread
            exact List.forall_mem_singleton.mpr (hvalues hvalue)
          · split at hread
            · rename_i hmore
              cases hread
              exact List.forall_mem_cons.mpr ⟨hvalues hvalue, hmembers hmore⟩
            · cases hread
          · cases hread
      · cases hread
  · cases hread

/-- All three readers keep to the room there is, with however many steps. -/
theorem bounds_of_steps (name : List Unit16 → Option String) (steps : Nat) :
    BoundsValues name steps ∧ BoundsItems name steps ∧ BoundsMembers name steps := by
  induction steps with
  | zero => exact ⟨nofun, nofun, nofun⟩
  | succ steps ih =>
      obtain ⟨hvalues, hitems, hmembers⟩ := ih
      exact ⟨boundsValues_succ hitems hmembers, boundsItems_succ hvalues hitems,
        boundsMembers_succ hvalues hmembers⟩

/-- A text that denotes a value does not nest more than the reader allows. -/
theorem depth_le_of_ofText? {text : String} (hread : ofText? text = some tree)
    (hreadable : tree.isReadable) : tree.depth ≤ nestingLimit := by
  rw [ofText?, parse?, parseWithin?, parseBy?] at hread
  split at hread
  · rename_i hvalue
    split at hread
    · cases hread
      exact (bounds_of_steps _ _).1 hvalue hreadable
    · cases hread
  · cases hread

end RemoteCall.Json
