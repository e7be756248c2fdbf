import RemoteCall.Proofs.Value.RoundTrip

/-!
# Values that nest too deep

Of a tree that nests too deep, what lies beyond the limit is unreadable.  A value has no
part that is skipped when it is read, so a tree that is read as a value, with some room
for arrays and objects, is one that fits in there.
-/

namespace RemoteCall

open Json (canonical canonicalItems canonicalMembers arrange truncate truncateItems
  truncateMembers)

/-! ## What is read of a tree -/

namespace Json

variable {α : Type} {read : Json → Option α} {room : Nat} {items : List Json}
  {members : List (String × Json)}

theorem truncateItems_eq_map : truncateItems room items = items.map (truncate room) := by
  induction items with
  | nil => rfl
  | cons item rest ih => rw [truncateItems, ih, List.map_cons]

theorem truncateMembers_eq_map :
    truncateMembers room members =
      members.map fun member => (member.1, truncate room member.2) := by
  induction members with
  | nil => rfl
  | cons member rest ih => rw [truncateMembers, ih, List.map_cons]

/-- Where every element of a list has to be read, each of them is. -/
theorem isSome_of_mapM {β : Type} {f : α → Option β} {list : List α}
    (hread : (list.mapM f).isSome) : ∀ a ∈ list, (f a).isSome := by
  induction list with
  | nil => exact fun _ hmem => nomatch hmem
  | cons a rest ih =>
      rw [List.mapM_cons] at hread
      cases ha : f a with
      | none => simp [ha] at hread
      | some b =>
          cases hrest : rest.mapM f with
          | none => simp [ha, hrest] at hread
          | some bs =>
              rw [hrest] at ih
              exact List.forall_mem_cons.mpr ⟨by rw [ha]; rfl, ih rfl⟩

theorem exists_of_list?_truncate (hread : (list? read (truncate room (.arr items))).isSome) :
    ∃ less, room = less + 1 ∧ ∀ item ∈ items, (read (truncate less item)).isSome := by
  cases room with
  | zero => cases hread
  | succ less =>
      refine ⟨less, rfl, fun item hmem => isSome_of_mapM hread _ ?_⟩
      rw [truncateItems_eq_map]
      exact List.mem_map_of_mem hmem

theorem exists_of_members?_truncate (hnodup : (members.map Prod.fst).Nodup)
    (hread : (members? read (truncate room (.obj (arrange members)))).isSome) :
    ∃ less, room = less + 1 ∧ ∀ member ∈ members, (read (truncate less member.2)).isSome := by
  cases room with
  | zero => cases hread
  | succ less =>
      refine ⟨less, rfl, fun member hmem => ?_⟩
      have hmem : (member.1, truncate less member.2) ∈ truncateMembers less (arrange members) := by
        rw [truncateMembers_eq_map]
        exact List.mem_map_of_mem ((arrange_perm hnodup).mem_iff.mpr hmem)
      have hmember := isSome_of_mapM hread _ hmem
      rwa [Option.isSome_map] at hmember

theorem exists_of_fields?_truncate {names : List String} {fields : List (Option Json)}
    (hnodup : (members.map Prod.fst).Nodup)
    (hfields : fields? names (truncate room (.obj (arrange members))) = some fields) :
    ∃ less, room = less + 1 ∧
      fields? names (.obj (members.map fun member => (member.1, truncate less member.2))) =
        some fields := by
  cases room with
  | zero => cases hfields
  | succ less =>
      have hkeys : (members.map fun member => (member.1, truncate less member.2)).map Prod.fst =
          members.map Prod.fst := by
        rw [List.map_map]
        rfl
      have hperm : (truncateMembers less (arrange members)).Perm
          (members.map fun member => (member.1, truncate less member.2)) := by
        rw [truncateMembers_eq_map]
        exact (arrange_perm hnodup).map _
      refine ⟨less, rfl, ?_⟩
      rw [← fields?_of_perm (hkeys ▸ hnodup) hperm]
      exact hfields

end Json

/-! ## Values -/

namespace Value

/-- The tree is read as a value, with some bound for its depth, whether it was taken in
before its use or not. -/
def IsRead (tree : Json) : Prop := ∃ fuel waited, (ofJsonWithin? fuel waited tree).isSome

variable {room : Nat}

theorem isRead_of_ofJson? {tree : Json} (hread : (ofJson? tree).isSome) : IsRead tree :=
  ⟨tree.depth + 1, false, hread⟩

theorem exists_of_tagged_truncate {kind : String} {content : Json} (hkind : kind ≠ "none")
    (hread : IsRead (truncate room (tagged kind content))) :
    ∃ less fuel waited, room = less + 1 ∧
      (holding? (ofJsonWithin? fuel waited) kind (truncate less content)).isSome := by
  obtain ⟨_ | fuel, waited, hread⟩ := hread
  · cases hread
  · cases room with
    | zero => cases hread
    | succ less =>
        have htruncate : truncate (less + 1) (tagged kind content) =
            tagged kind (truncate less content) := rfl
        rw [htruncate, ofJsonWithin?_tagged hkind] at hread
        exact ⟨less, fuel, waited, rfl, hread⟩

theorem depth_tagged (kind : String) (content : Json) :
    (tagged kind content).depth = 1 + content.depth := by
  simp [tagged, Json.depth, Json.depthMembers]

theorem depth_objectJson (name : String) (version : UInt32) (members : List (String × Json)) :
    (objectJson name version members).depth = 2 + Json.depthMembers members := by
  simp only [objectJson, Json.depth, Json.depthMembers]
  omega

theorem depth_le_of_leaf {kind : String} {content : Json} (hkind : kind ≠ "none")
    (hleaf : content.depth = 0)
    (hread : IsRead (truncate room (canonical (tagged kind content)))) :
    (tagged kind content).depth ≤ room := by
  rw [canonical_tagged] at hread
  obtain ⟨less, _, _, rfl, -⟩ := exists_of_tagged_truncate hkind hread
  rw [depth_tagged, hleaf]
  omega

/-- Items that are read as a list are read one by one. -/
theorem exists_of_items_truncate {read : Json → Option Value} {items : List Value}
    (hread : (Json.list? read
      (truncate room (.arr (canonicalItems (itemsToJson items))))).isSome) :
    ∃ less, room = less + 1 ∧
      ∀ item ∈ items, (read (truncate less (canonical (toJson item)))).isSome := by
  obtain ⟨less, hroom, hitems⟩ := Json.exists_of_list?_truncate hread
  rw [canonicalItems_itemsToJson, List.forall_mem_map] at hitems
  exact ⟨less, hroom, hitems⟩

/-- Entries that are read as a map are read one by one. -/
theorem exists_of_entries_truncate {read : Json → Option Value}
    {entries : List (String × Value)} (hascending : Entries.Ascending entries)
    (hread : (Json.members? read (truncate room
      (.obj (arrange (canonicalMembers (entriesToJson entries)))))).isSome) :
    ∃ less, room = less + 1 ∧
      ∀ entry ∈ entries, (read (truncate less (canonical (toJson entry.2)))).isSome := by
  have hnodup : ((canonicalMembers (entriesToJson entries)).map Prod.fst).Nodup :=
    keys_canonicalMembers entries ▸ Entries.nodup_keys hascending
  obtain ⟨less, hroom, hmembers⟩ := Json.exists_of_members?_truncate hnodup hread
  rw [canonicalMembers_entriesToJson, List.forall_mem_map] at hmembers
  exact ⟨less, hroom, hmembers⟩

theorem exists_of_object_truncate {read : Json → Option Value} {name : String}
    {version : UInt32} {members : List (String × Json)}
    (hread : (objectOfJson? read
      (truncate room (canonical (objectJson name version members)))).isSome) :
    ∃ less, room = less + 1 ∧ (Json.members? read
      (truncate less (.obj (arrange (canonicalMembers members))))).isSome := by
  rw [canonical_objectJson] at hread
  cases hfields : Json.fields? ["canonical_name", "version", "fields"] (truncate room
      (.obj (arrange [("canonical_name", .str name), ("version", .int version.toNat),
        ("fields", .obj (arrange (canonicalMembers members)))]))) with
  | none => simp [objectOfJson?, hfields] at hread
  | some fields =>
      obtain ⟨less, rfl, heq⟩ := Json.exists_of_fields?_truncate (by simp) hfields
      cases heq
      refine ⟨less, rfl, ?_⟩
      rw [objectOfJson?, hfields] at hread
      cases hmembers : Json.members? read
          (truncate less (.obj (arrange (canonicalMembers members)))) with
      | none => simp [Json.orElse, hmembers] at hread
      | some entries => rfl

mutual

/-- A value that is read from its tree, cut off at some depth, does not nest deeper. -/
theorem depth_le_of_isRead : ∀ (value : Value) {room : Nat}, value.Ordered →
    IsRead (truncate room (canonical (toJson value))) → (toJson value).depth ≤ room
  | .none, room => by
      intro _ hread
      have hdepth : (toJson .none).depth = 1 := rfl
      -- Without any room the whole tree is unreadable.
      have hroom : room ≠ 0 := by
        rintro rfl
        obtain ⟨_ | _, _, hread⟩ := hread <;> cases hread
      omega
  | .bool _, _ => fun _ hread => depth_le_of_leaf (by decide) rfl hread
  | .int _, _ => fun _ hread => depth_le_of_leaf (by decide) rfl hread
  | .float _, _ => fun _ hread => depth_le_of_leaf (by decide) rfl hread
  | .str _, _ => fun _ hread => depth_le_of_leaf (by decide) rfl hread
  | .uid _, _ => fun _ hread => depth_le_of_leaf (by decide) rfl hread
  | .pointer _, _ => fun _ hread => depth_le_of_leaf (by decide) rfl hread
  | .bytes data, room => by
      intro _ hread
      rw [toJson, canonical_tagged] at hread
      obtain ⟨less, _, _, rfl, hheld⟩ := exists_of_tagged_truncate (by decide) hread
      change ((Json.list? _ (truncate less (.arr _))).map _).isSome at hheld
      rw [Option.isSome_map] at hheld
      obtain ⟨less, rfl, -⟩ := Json.exists_of_list?_truncate hheld
      have hdepth : Json.depthItems (data.map fun byte => .int byte.toNat) ≤ 0 :=
        Json.depthItems_le_iff.mpr (List.forall_mem_map.mpr fun _ _ => Nat.le_refl 0)
      rw [toJson, depth_tagged, Json.depth]
      omega
  | .list items, room => by
      intro hordered hread
      rw [toJson, canonical_tagged] at hread
      obtain ⟨less, fuel, waited, rfl, hheld⟩ := exists_of_tagged_truncate (by decide) hread
      change ((Json.list? _ (truncate less (.arr _))).map _).isSome at hheld
      rw [Option.isSome_map] at hheld
      obtain ⟨less, rfl, hitems⟩ := exists_of_items_truncate hheld
      have hdepth := depthItems_le_of_isRead items hordered fun item hmem =>
        ⟨fuel, waited, hitems item hmem⟩
      rw [toJson, depth_tagged, Json.depth]
      omega
  | .map entries, room => by
      intro hordered hread
      rw [toJson, canonical_tagged] at hread
      obtain ⟨less, fuel, waited, rfl, hheld⟩ := exists_of_tagged_truncate (by decide) hread
      change ((Json.members? _ (truncate less (.obj (arrange _)))).map _).isSome at hheld
      rw [Option.isSome_map] at hheld
      obtain ⟨less, rfl, hentries⟩ := exists_of_entries_truncate hordered.1 hheld
      have hdepth := depthMembers_le_of_isRead entries hordered.2 fun entry hmem =>
        ⟨fuel, waited, hentries entry hmem⟩
      rw [toJson, depth_tagged, Json.depth]
      omega
  | .object ⟨name, version, fields⟩, room => by
      intro hordered hread
      rw [toJson, canonical_tagged] at hread
      obtain ⟨less, fuel, waited, rfl, hheld⟩ := exists_of_tagged_truncate (by decide) hread
      rw [holding?_object, Option.isSome_map] at hheld
      -- The object and its fields take one level each.
      obtain ⟨less, rfl, hfields⟩ := exists_of_object_truncate hheld
      obtain ⟨less, rfl, hentries⟩ := exists_of_entries_truncate hordered.1 hfields
      have hdepth := depthMembers_le_of_isRead fields hordered.2 fun entry hmem =>
        ⟨fuel, waited, hentries entry hmem⟩
      rw [toJson, depth_tagged, depth_objectJson]
      omega
  | .remote there, room => by
      intro _ hread
      rw [toJson, canonical_tagged] at hread
      obtain ⟨less, _, _, rfl, hheld⟩ := exists_of_tagged_truncate (by decide) hread
      rw [holding?_remote, Option.isSome_map] at hheld
      cases less with
      | zero => cases hheld
      | succ less =>
          have hdepth : (Json.toJson there).depth = 1 := rfl
          rw [toJson, depth_tagged, hdepth]
          omega

theorem depthItems_le_of_isRead : ∀ (items : List Value) {room : Nat}, OrderedItems items →
    (∀ item ∈ items, IsRead (truncate room (canonical (toJson item)))) →
      Json.depthItems (itemsToJson items) ≤ room
  | [], room => fun _ _ => Nat.zero_le room
  | item :: rest, _ => fun hordered hread => by
      rw [itemsToJson, Json.depthItems, Nat.max_le]
      rw [List.forall_mem_cons] at hread
      exact ⟨depth_le_of_isRead item hordered.1 hread.1,
        depthItems_le_of_isRead rest hordered.2 hread.2⟩

theorem depthMembers_le_of_isRead : ∀ (entries : List (String × Value)) {room : Nat},
    OrderedEntries entries →
      (∀ entry ∈ entries, IsRead (truncate room (canonical (toJson entry.2)))) →
      Json.depthMembers (entriesToJson entries) ≤ room
  | [], room => fun _ _ => Nat.zero_le room
  | (name, value) :: rest, _ => fun hordered hread => by
      rw [entriesToJson, Json.depthMembers, Nat.max_le]
      rw [List.forall_mem_cons] at hread
      exact ⟨depth_le_of_isRead value hordered.1 hread.1,
        depthMembers_le_of_isRead rest hordered.2 hread.2⟩

end

/-- Rearranging the members of a value's tree loses none of its depth. -/
theorem depth_le_canonical {value : Value} (hordered : value.Ordered) :
    (toJson value).depth ≤ (canonical (toJson value)).depth :=
  Nat.le_of_eq (Json.depth_of_reordered
    (Json.reordered_canonical (regular_toJson value hordered))).symm

end Value

end RemoteCall
