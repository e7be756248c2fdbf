import RemoteCall.Json.Parser

/-!
# Trees that are told by their texts

A tree without floating-point numbers is told by its text.  Where there is too little room
for it, what is nested too deep denotes nothing.
-/

namespace RemoteCall.Json

open RemoteCall.Json.Parser

mutual

/-- The tree is told by its text: there is no floating-point number in it, no whole number
beyond 64 bits, and nothing unreadable. -/
def Exact : Json → Prop
  | .int n => Int64.minValue.toInt ≤ n ∧ n < UInt64.size
  | .float _ => False
  | .unreadable => False
  | .arr items => ExactItems items
  | .obj members => ExactMembers members
  | _ => True

def ExactItems : List Json → Prop
  | [] => True
  | item :: rest => Exact item ∧ ExactItems rest

def ExactMembers : List (String × Json) → Prop
  | [] => True
  | (_, value) :: rest => Exact value ∧ ExactMembers rest

end

theorem exact_natCast {n : Nat} (hlt : n < UInt64.size) : (Json.int n).Exact :=
  ⟨Int.le_trans (by decide) (Int.natCast_nonneg n), Int.ofNat_lt.mpr hlt⟩

mutual

/-- What is read of a tree where `room` arrays and objects may be nested. -/
def truncate (room : Nat) : Json → Json
  | .arr items => nested room (.arr (truncateItems (room - 1) items))
  | .obj members => nested room (.obj (truncateMembers (room - 1) members))
  | other => other

def truncateItems (room : Nat) : List Json → List Json
  | [] => []
  | item :: rest => truncate room item :: truncateItems room rest

def truncateMembers (room : Nat) : List (String × Json) → List (String × Json)
  | [] => []
  | (name, value) :: rest => (name, truncate room value) :: truncateMembers room rest

end

/-! ## Trees that are not too deep -/

theorem depthItems_le_iff {items : List Json} {limit : Nat} :
    depthItems items ≤ limit ↔ ∀ item ∈ items, item.depth ≤ limit := by
  induction items with
  | nil => simp [depthItems]
  | cons item rest ih => rw [depthItems, Nat.max_le, ih, List.forall_mem_cons]

theorem depthMembers_le_iff {members : List (String × Json)} {limit : Nat} :
    depthMembers members ≤ limit ↔ ∀ member ∈ members, member.2.depth ≤ limit := by
  induction members with
  | nil => simp [depthMembers]
  | cons member rest ih => rw [depthMembers, Nat.max_le, ih, List.forall_mem_cons]

mutual

theorem truncate_of_depth_le : ∀ (tree : Json) {room : Nat}, tree.depth ≤ room →
    truncate room tree = tree
  | .null, _, _ => rfl
  | .bool _, _, _ => rfl
  | .int _, _, _ => rfl
  | .float _, _, _ => rfl
  | .str _, _, _ => rfl
  | .unreadable, _, _ => rfl
  | .arr items, room, hdepth => by
      rw [depth] at hdepth
      rw [truncate, truncateItems_of_depth_le items (by omega), nested, if_neg (by omega)]
  | .obj members, room, hdepth => by
      rw [depth] at hdepth
      rw [truncate, truncateMembers_of_depth_le members (by omega), nested, if_neg (by omega)]

theorem truncateItems_of_depth_le : ∀ (items : List Json) {room : Nat},
    depthItems items ≤ room → truncateItems room items = items
  | [], _, _ => rfl
  | item :: rest, room, hdepth => by
      rw [depthItems, Nat.max_le] at hdepth
      rw [truncateItems, truncate_of_depth_le item hdepth.1,
        truncateItems_of_depth_le rest hdepth.2]

theorem truncateMembers_of_depth_le : ∀ (members : List (String × Json)) {room : Nat},
    depthMembers members ≤ room → truncateMembers room members = members
  | [], _, _ => rfl
  | (name, value) :: rest, room, hdepth => by
      rw [depthMembers, Nat.max_le] at hdepth
      rw [truncateMembers, truncate_of_depth_le value hdepth.1,
        truncateMembers_of_depth_le rest hdepth.2]

end

mutual

/-- Where there is too little room, something is unreadable. -/
theorem isReadable_truncate_iff : ∀ (tree : Json) {room : Nat}, tree.isReadable →
    ((truncate room tree).isReadable ↔ tree.depth ≤ room)
  | .null, _, _ => by simp [truncate, isReadable, depth]
  | .bool _, _, _ => by simp [truncate, isReadable, depth]
  | .int _, _, _ => by simp [truncate, isReadable, depth]
  | .float _, _, _ => by simp [truncate, isReadable, depth]
  | .str _, _, _ => by simp [truncate, isReadable, depth]
  | .unreadable, _, hreadable => by simp [isReadable] at hreadable
  | .arr items, room, hreadable => by
      have hitems : areReadable (truncateItems (room - 1) items) ↔ depthItems items ≤ room - 1 :=
        areReadable_truncate_iff items hreadable
      rw [truncate, nested, depth]
      split
      · simp [isReadable]
        omega
      · rw [isReadable, hitems]
        omega
  | .obj members, room, hreadable => by
      have hmembers : membersReadable (truncateMembers (room - 1) members) ↔
          depthMembers members ≤ room - 1 :=
        membersReadable_truncate_iff members hreadable
      rw [truncate, nested, depth]
      split
      · simp [isReadable]
        omega
      · rw [isReadable, hmembers]
        omega

theorem areReadable_truncate_iff : ∀ (items : List Json) {room : Nat}, areReadable items →
    (areReadable (truncateItems room items) ↔ depthItems items ≤ room)
  | [], _, _ => by simp [truncateItems, areReadable, depthItems]
  | item :: rest, room, hreadable => by
      rw [areReadable, Bool.and_eq_true] at hreadable
      rw [truncateItems, areReadable, Bool.and_eq_true, depthItems, Nat.max_le,
        isReadable_truncate_iff item hreadable.1, areReadable_truncate_iff rest hreadable.2]

theorem membersReadable_truncate_iff : ∀ (members : List (String × Json)) {room : Nat},
    membersReadable members →
      (membersReadable (truncateMembers room members) ↔ depthMembers members ≤ room)
  | [], _, _ => by simp [truncateMembers, membersReadable, depthMembers]
  | (name, value) :: rest, room, hreadable => by
      rw [membersReadable, Bool.and_eq_true] at hreadable
      rw [truncateMembers, membersReadable, Bool.and_eq_true, depthMembers, Nat.max_le,
        isReadable_truncate_iff value hreadable.1,
        membersReadable_truncate_iff rest hreadable.2]

end

mutual

theorem isReadable_of_exact : ∀ (tree : Json), tree.Exact → tree.isReadable
  | .null, _ => rfl
  | .bool _, _ => rfl
  | .int _, _ => rfl
  | .float _, _ => rfl
  | .str _, _ => rfl
  | .unreadable, hexact => hexact.elim
  | .arr items, hexact => areReadable_of_exact items hexact
  | .obj members, hexact => membersReadable_of_exact members hexact

theorem areReadable_of_exact : ∀ (items : List Json), ExactItems items → areReadable items
  | [], _ => rfl
  | item :: rest, hexact => by
      rw [areReadable, isReadable_of_exact item hexact.1, areReadable_of_exact rest hexact.2]
      rfl

theorem membersReadable_of_exact : ∀ (members : List (String × Json)), ExactMembers members →
    membersReadable members
  | [], _ => rfl
  | (name, value) :: rest, hexact => by
      rw [membersReadable, isReadable_of_exact value hexact.1,
        membersReadable_of_exact rest hexact.2]
      rfl

end

mutual

theorem nonFinite?_of_exact : ∀ (tree : Json), tree.Exact → tree.nonFinite? = none
  | .null, _ => rfl
  | .bool _, _ => rfl
  | .int _, _ => rfl
  | .float _, hexact => hexact.elim
  | .str _, _ => rfl
  | .unreadable, _ => rfl
  | .arr items, hexact => nonFiniteItem?_of_exact items hexact
  | .obj members, hexact => nonFiniteMember?_of_exact members hexact

theorem nonFiniteItem?_of_exact : ∀ (items : List Json), ExactItems items →
    nonFiniteItem? items = none
  | [], _ => rfl
  | item :: rest, hexact => by
      rw [nonFiniteItem?, nonFinite?_of_exact item hexact.1,
        nonFiniteItem?_of_exact rest hexact.2]
      rfl

theorem nonFiniteMember?_of_exact : ∀ (members : List (String × Json)), ExactMembers members →
    nonFiniteMember? members = none
  | [], _ => rfl
  | (name, value) :: rest, hexact => by
      rw [nonFiniteMember?, nonFinite?_of_exact value hexact.1,
        nonFiniteMember?_of_exact rest hexact.2]
      rfl

end

end RemoteCall.Json
