import Mathlib.Data.List.Perm.Basic
import RemoteCall.Proofs.Json.Reordered
import RemoteCall.Value.Plain

/-!
# Trees that come back as they were typed

Values are typed and shown as plain trees.  A tree that has no numbers but whole ones of
64 bits comes back when it is shown: as it is if the names in its objects are in order, and
otherwise with its members in order.  So no two trees stand for one value, but for the
order of members.
-/

namespace RemoteCall

/-- Pairs with keys of their own are stored alike just when they are the same pairs. -/
theorem Entries.ofList_eq_ofList_iff {κ β : Type} [Ord κ] [Std.TransOrd κ] [Std.LawfulEqOrd κ]
    {left right : List (κ × β)} (hleft : (left.map Prod.fst).Nodup)
    (hright : (right.map Prod.fst).Nodup) : ofList left = ofList right ↔ left.Perm right := by
  constructor
  · intro heq
    exact (ofList_perm hleft).symm.trans (heq ▸ ofList_perm hright)
  · intro hperm
    exact ofList_eq_of_perm (ascending_ofList right) (hperm.trans (ofList_perm hright).symm)

namespace Json

variable {items : List Json} {members : List (String × Json)}

mutual

/-- Every part of the tree denotes a value, and every number in it is a whole one that fits
into 64 bits with its sign. -/
def Whole : Json → Prop
  | .int n => Int64.minValue.toInt ≤ n ∧ n ≤ Int64.maxValue.toInt
  | .float _ => False
  | .unreadable => False
  | .arr items => WholeItems items
  | .obj members => WholeMembers members
  | _ => True

def WholeItems : List Json → Prop
  | [] => True
  | item :: rest => Whole item ∧ WholeItems rest

def WholeMembers : List (String × Json) → Prop
  | [] => True
  | (_, value) :: rest => Whole value ∧ WholeMembers rest

end

mutual

/-- Names of members ascend at every depth. -/
def Ordered : Json → Prop
  | .arr items => OrderedItems items
  | .obj members => Entries.Ascending members ∧ OrderedMembers members
  | _ => True

def OrderedItems : List Json → Prop
  | [] => True
  | item :: rest => Ordered item ∧ OrderedItems rest

def OrderedMembers : List (String × Json) → Prop
  | [] => True
  | (_, value) :: rest => Ordered value ∧ OrderedMembers rest

end

theorem whole_arr_iff : Whole (.arr items) ↔ ∀ item ∈ items, item.Whole := by
  change WholeItems items ↔ _
  induction items with
  | nil => simp [WholeItems]
  | cons item rest ih => rw [WholeItems, ih, List.forall_mem_cons]

theorem whole_obj_iff : Whole (.obj members) ↔ ∀ member ∈ members, member.2.Whole := by
  change WholeMembers members ↔ _
  induction members with
  | nil => simp [WholeMembers]
  | cons member rest ih => rw [WholeMembers, ih, List.forall_mem_cons]

theorem ordered_arr_iff : Ordered (.arr items) ↔ ∀ item ∈ items, item.Ordered := by
  change OrderedItems items ↔ _
  induction items with
  | nil => simp [OrderedItems]
  | cons item rest ih => rw [OrderedItems, ih, List.forall_mem_cons]

theorem ordered_obj_iff :
    Ordered (.obj members) ↔
      Entries.Ascending members ∧ ∀ member ∈ members, member.2.Ordered := by
  have hmembers : OrderedMembers members ↔ ∀ member ∈ members, member.2.Ordered := by
    induction members with
    | nil => simp [OrderedMembers]
    | cons member rest ih => rw [OrderedMembers, ih, List.forall_mem_cons]
  rw [Ordered, hmembers]

end Json

namespace Value

open Json (Reordered IsLeaf Regular)

variable {tree tree' : Json} {items : List Json} {members : List (String × Json)}

theorem ofPlain_arr (items : List Json) : ofPlain (.arr items) = .list (items.map ofPlain) := by
  have hitems : ofPlainItems items = items.map ofPlain := by
    induction items with
    | nil => rfl
    | cons item rest ih => rw [ofPlainItems, ih, List.map_cons]
  rw [ofPlain, hitems]

theorem ofPlain_obj (members : List (String × Json)) :
    ofPlain (.obj members) =
      .map (Entries.ofList (members.map fun member => (member.1, ofPlain member.2))) := by
  have hmembers : ofPlainMembers members =
      members.map fun member => (member.1, ofPlain member.2) := by
    induction members with
    | nil => rfl
    | cons member rest ih => rw [ofPlainMembers, ih, List.map_cons]
  rw [ofPlain, hmembers, mapOf]

theorem toPlain_list (items : List Value) : toPlain (.list items) = .arr (items.map toPlain) := by
  have hitems : toPlainItems items = items.map toPlain := by
    induction items with
    | nil => rfl
    | cons item rest ih => rw [toPlainItems, ih, List.map_cons]
  rw [toPlain, hitems]

theorem toPlainEntries_eq_map (entries : List (String × Value)) :
    toPlainEntries entries = entries.map fun entry => (entry.1, toPlain entry.2) := by
  induction entries with
  | nil => rfl
  | cons entry rest ih => rw [toPlainEntries, ih, List.map_cons]

theorem toPlain_map (entries : List (String × Value)) :
    toPlain (.map entries) = .obj (entries.map fun entry => (entry.1, toPlain entry.2)) := by
  rw [toPlain, toPlainEntries_eq_map]

/-! ## There and back -/

theorem ofPlain_int {n : Int} (hwhole : (Json.int n).Whole) :
    ofPlain (.int n) = .int (Int64.ofInt n) := by
  have hread : Json.int64? (.int n) = some (Int64.ofInt n) := if_pos hwhole
  rw [ofPlain, hread]

theorem toPlain_ofPlain_of_isLeaf (hleaf : IsLeaf tree) (hwhole : tree.Whole) :
    toPlain (ofPlain tree) = tree := by
  cases tree with
  | int n =>
      have hback : (Int64.ofInt n).toInt = n :=
        Int64.toInt_ofInt_of_le hwhole.1 (Int.lt_add_one_of_le hwhole.2)
      rw [ofPlain_int hwhole, toPlain, hback]
  | float x => exact hwhole.elim
  | unreadable => exact hwhole.elim
  | arr items => exact hleaf.elim
  | obj members => exact hleaf.elim
  | _ => rfl

/-- A tree whose names are in order is shown as it was typed. -/
theorem toPlain_ofPlain_of_ordered (hwhole : tree.Whole) (hordered : tree.Ordered) :
    toPlain (ofPlain tree) = tree := by
  induction tree using Json.tree_induction with
  | leaf tree hleaf => exact toPlain_ofPlain_of_isLeaf hleaf hwhole
  | arr items ih =>
      have hitems : ∀ item ∈ items, (toPlain ∘ ofPlain) item = id item := fun item hmem =>
        ih item hmem (Json.whole_arr_iff.mp hwhole item hmem)
          (Json.ordered_arr_iff.mp hordered item hmem)
      rw [ofPlain_arr, toPlain_list, List.map_map, List.map_congr_left hitems, List.map_id]
  | obj members ih =>
      obtain ⟨hascending, hvalues⟩ := Json.ordered_obj_iff.mp hordered
      have hkept : Entries.ofList (members.map fun member => (member.1, ofPlain member.2)) =
          members.map fun member => (member.1, ofPlain member.2) :=
        Entries.ofList_eq_of_perm (Entries.ascending_of_keys (by simp) hascending) (.refl _)
      have hmembers : ∀ member ∈ members, ((fun entry => (entry.1, toPlain entry.2)) ∘
          fun member => (member.1, ofPlain member.2)) member = id member := fun member hmem =>
        Prod.ext rfl (ih member hmem (Json.whole_obj_iff.mp hwhole member hmem)
          (hvalues member hmem))
      rw [ofPlain_obj, toPlain_map, hkept, List.map_map, List.map_congr_left hmembers,
        List.map_id]

/-- Names of their own are all kept, and only the order of members may be another. -/
theorem reordered_toPlain_ofPlain (hwhole : tree.Whole) (hregular : tree.Regular) :
    Reordered tree (toPlain (ofPlain tree)) := by
  induction tree using Json.tree_induction with
  | leaf tree hleaf =>
      exact (Json.reordered_leaf_iff hleaf).mpr (toPlain_ofPlain_of_isLeaf hleaf hwhole)
  | arr items ih =>
      rw [ofPlain_arr, toPlain_list, List.map_map]
      refine Json.reordered_arr_iff.mpr ⟨_, rfl, List.forall₂_map_right_iff.mpr ?_⟩
      exact List.forall₂_same.mpr fun item hmem =>
        ih item hmem (Json.whole_arr_iff.mp hwhole item hmem)
          (Json.regularItems_iff.mp hregular item hmem)
  | obj members ih =>
      have hnodup : ((members.map fun member => (member.1, ofPlain member.2)).map
          Prod.fst).Nodup := by
        rw [List.map_map]
        exact hregular.1
      rw [ofPlain_obj, toPlain_map]
      refine Json.reordered_obj_iff.mpr ⟨_, _, rfl, ?_, (Entries.ofList_perm hnodup).map _⟩
      rw [List.map_map]
      refine List.forall₂_map_right_iff.mpr (List.forall₂_same.mpr fun member hmem => ?_)
      exact ⟨rfl, ih member hmem (Json.whole_obj_iff.mp hwhole member hmem)
        (Json.regularMembers_iff.mp hregular.2 member hmem)⟩

/-- What is shown of what was typed has its names in order. -/
theorem ordered_toPlain_ofPlain (tree : Json) : (toPlain (ofPlain tree)).Ordered := by
  induction tree using Json.tree_induction with
  | leaf tree hleaf =>
      cases tree with
      | int n =>
          rw [ofPlain]
          split
          · trivial
          · rw [toPlain]
            split <;> trivial
      | float x =>
          rw [ofPlain, toPlain]
          split <;> trivial
      | arr items => exact hleaf.elim
      | obj members => exact hleaf.elim
      | _ => trivial
  | arr items ih =>
      rw [ofPlain_arr, toPlain_list, List.map_map, Json.ordered_arr_iff]
      exact List.forall_mem_map.mpr ih
  | obj members ih =>
      rw [ofPlain_obj, toPlain_map, Json.ordered_obj_iff]
      refine ⟨Entries.ascending_of_keys (List.map_map ..) (Entries.ascending_ofList _), ?_⟩
      refine List.forall_mem_map.mpr fun entry hmem => ?_
      obtain ⟨member, hmember, rfl⟩ := List.mem_map.mp (Entries.mem_ofList hmem)
      exact ih member hmember

/-! ## Trees of one value -/

/-- What comes of items is the same place by place. -/
theorem map_eq_map_iff_forall₂ {α β : Type} {f : α → β} {R : α → α → Prop} {left right : List α}
    (hsame : ∀ a ∈ left, ∀ b ∈ right, (f b = f a ↔ R a b)) :
    right.map f = left.map f ↔ List.Forall₂ R left right := by
  have hmap : right.map f = left.map f ↔ List.Forall₂ (fun a b => f b = f a) left right := by
    rw [eq_comm, ← List.forall₂_eq_eq_eq, List.forall₂_map_left_iff, List.forall₂_map_right_iff]
    simp only [eq_comm]
  rw [hmap]
  constructor
  · intro hplaces
    exact forall₂_of_mem hplaces fun a ha b hb => (hsame a ha b hb).mp
  · intro hplaces
    exact forall₂_of_mem hplaces fun a ha b hb => (hsame a ha b hb).mpr

/-- What comes of items is the same but for its order. -/
theorem perm_map_iff_forall₂ {α β : Type} {f : α → β} {R : α → α → Prop} {left right : List α}
    (hsame : ∀ a ∈ left, ∀ b ∈ right, (f b = f a ↔ R a b)) :
    (right.map f).Perm (left.map f) ↔
      ∃ between, List.Forall₂ R left between ∧ right.Perm between := by
  have hbetween : (left.map f).Perm (right.map f) ↔
      ∃ between : List α, left.map f = between.map f ∧ between.Perm right :=
    iff_of_eq (congrFun (congrFun (List.eq_map_comp_perm f) (left.map f)) right).symm
  rw [List.perm_comm, hbetween]
  refine exists_congr fun between => ?_
  rw [@List.perm_comm _ right between, and_congr_left_iff, eq_comm]
  intro hperm
  exact map_eq_map_iff_forall₂ fun a ha b hb => hsame a ha b (hperm.mem_iff.mp hb)

/-- No other tree stands for the value of a leaf: those of arrays and objects are shown as
arrays and objects. -/
theorem ofPlain_eq_iff_of_isLeaf (hleaf : IsLeaf tree) (hwhole : tree.Whole)
    (hwhole' : tree'.Whole) : ofPlain tree' = ofPlain tree ↔ tree' = tree := by
  refine ⟨fun heq => ?_, congrArg ofPlain⟩
  have hshown : toPlain (ofPlain tree') = tree := by
    rw [heq, toPlain_ofPlain_of_isLeaf hleaf hwhole]
  cases tree' with
  | arr items' =>
      rw [ofPlain_arr, toPlain_list] at hshown
      rw [← hshown] at hleaf
      exact hleaf.elim
  | obj members' =>
      rw [ofPlain_obj, toPlain_map] at hshown
      rw [← hshown] at hleaf
      exact hleaf.elim
  | _ => exact (toPlain_ofPlain_of_isLeaf (by trivial) hwhole').symm.trans hshown

/-- Two trees stand for one value just when they differ in the order of members only. -/
theorem ofPlain_eq_iff_reordered (hwhole : tree.Whole) (hregular : tree.Regular)
    (hwhole' : tree'.Whole) (hregular' : tree'.Regular) :
    ofPlain tree' = ofPlain tree ↔ Reordered tree tree' := by
  induction tree using Json.tree_induction generalizing tree' with
  | leaf tree hleaf =>
      rw [Json.reordered_leaf_iff hleaf, ofPlain_eq_iff_of_isLeaf hleaf hwhole hwhole']
  | arr items ih =>
      cases tree' with
      | arr items' =>
          rw [ofPlain_arr, ofPlain_arr, Value.list.injEq, Json.reordered_arr_iff]
          simp only [Json.arr.injEq, exists_eq_left']
          apply map_eq_map_iff_forall₂
          intro item hmem item' hmem'
          exact ih item hmem (Json.whole_arr_iff.mp hwhole item hmem)
            (Json.regularItems_iff.mp hregular item hmem)
            (Json.whole_arr_iff.mp hwhole' item' hmem')
            (Json.regularItems_iff.mp hregular' item' hmem')
      | int n =>
          rw [ofPlain_int hwhole', ofPlain_arr]
          simp [Json.reordered_arr_iff]
      | _ => simp [Json.reordered_arr_iff, ofPlain, mapOf]
  | obj members ih =>
      cases tree' with
      | obj members' =>
          rw [ofPlain_obj, ofPlain_obj, Value.map.injEq, Json.reordered_obj_iff]
          rw [Entries.ofList_eq_ofList_iff (by simpa [Function.comp_def] using hregular'.1)
            (by simpa [Function.comp_def] using hregular.1),
            perm_map_iff_forall₂ (R := Entries.SameKey fun _ => Reordered)]
          · simp only [Json.obj.injEq, exists_eq_left']
          · intro member hmem member' hmem'
            have hvalues := ih member hmem (Json.whole_obj_iff.mp hwhole member hmem)
              (Json.regularMembers_iff.mp hregular.2 member hmem)
              (Json.whole_obj_iff.mp hwhole' member' hmem')
              (Json.regularMembers_iff.mp hregular'.2 member' hmem')
            rw [Prod.mk.injEq, Entries.SameKey, hvalues]
      | int n =>
          rw [ofPlain_int hwhole', ofPlain_obj]
          simp [Json.reordered_obj_iff]
      | _ => simp [Json.reordered_obj_iff, ofPlain, mapOf]

end Value

end RemoteCall
