import RemoteCall.Json.Reader
import RemoteCall.Proofs.Json.RoundTrip
import RemoteCall.Proofs.SortedMap

/-!
# Trees in canonical order

The members of an object are written in the order of their quoted names.  Nothing is
lost by that, as long as every name occurs once: what is written is a rearrangement of
what there was.
-/

namespace RemoteCall.Json

variable {members : List (String × Json)}

/-- The names that members are arranged by. -/
theorem map_quoted_eq (members : List (String × Json)) :
    (members.map fun member => (String.ofList (quote member.1), member)).map Prod.fst =
      (members.map Prod.fst).map fun name => String.ofList (quote name) := by
  rw [List.map_map, List.map_map]
  rfl

theorem mem_of_mem_arrange {member : String × Json} (hmem : member ∈ arrange members) :
    member ∈ members := by
  obtain ⟨entry, hentry, rfl⟩ := List.mem_map.mp hmem
  obtain ⟨member, hmember, rfl⟩ := List.mem_map.mp (Entries.mem_ofList hentry)
  exact hmember

/-- Members with names of their own are rearranged. -/
theorem arrange_perm (hnodup : (members.map Prod.fst).Nodup) :
    (arrange members).Perm members := by
  have hquoted : ((members.map fun member => (String.ofList (quote member.1), member)).map
      Prod.fst).Nodup := by
    -- Quoting keeps names apart, so none replaces another.
    rw [map_quoted_eq, List.Nodup, List.pairwise_map]
    exact hnodup.imp fun hne heq => hne (quote_injective (String.ofList_injective heq))
  have hperm := (Entries.ofList_perm hquoted).map Prod.snd
  rwa [List.map_map, Function.comp_def, List.map_id'] at hperm

theorem exactItems_iff {items : List Json} : ExactItems items ↔ ∀ item ∈ items, item.Exact := by
  induction items with
  | nil => simp [ExactItems]
  | cons item rest ih => rw [ExactItems, ih, List.forall_mem_cons]

theorem exactMembers_iff : ExactMembers members ↔ ∀ member ∈ members, member.2.Exact := by
  induction members with
  | nil => simp [ExactMembers]
  | cons member rest ih => rw [ExactMembers, ih, List.forall_mem_cons]

mutual

theorem exact_canonical : ∀ {tree : Json}, tree.Exact → (canonical tree).Exact
  | .null, hexact => hexact
  | .bool _, hexact => hexact
  | .int _, hexact => hexact
  | .float _, hexact => hexact
  | .str _, hexact => hexact
  | .unreadable, hexact => hexact
  | .arr items, hexact => exactItems_canonical items hexact
  | .obj members, hexact => exactMembers_iff.mpr fun member hmem =>
      exactMembers_iff.mp (exactMembers_canonical members hexact) member (mem_of_mem_arrange hmem)

theorem exactItems_canonical : ∀ (items : List Json), ExactItems items →
    ExactItems (canonicalItems items)
  | [], hexact => hexact
  | _ :: rest, hexact => ⟨exact_canonical hexact.1, exactItems_canonical rest hexact.2⟩

theorem exactMembers_canonical : ∀ (members : List (String × Json)), ExactMembers members →
    ExactMembers (canonicalMembers members)
  | [], hexact => hexact
  | _ :: rest, hexact => ⟨exact_canonical hexact.1, exactMembers_canonical rest hexact.2⟩

end

mutual

theorem depth_canonical_le : ∀ (tree : Json), (canonical tree).depth ≤ tree.depth
  | .null => Nat.le_refl _
  | .bool _ => Nat.le_refl _
  | .int _ => Nat.le_refl _
  | .float _ => Nat.le_refl _
  | .str _ => Nat.le_refl _
  | .unreadable => Nat.le_refl _
  | .arr items => Nat.add_le_add_left (depthItems_canonical_le items) 1
  | .obj members => by
      have hmembers := depthMembers_le_iff.mp (depthMembers_canonical_le members)
      exact Nat.add_le_add_left (depthMembers_le_iff.mpr fun member hmem =>
        hmembers member (mem_of_mem_arrange hmem)) 1

theorem depthItems_canonical_le : ∀ (items : List Json),
    depthItems (canonicalItems items) ≤ depthItems items
  | [] => Nat.le_refl _
  | item :: rest => by
      rw [canonicalItems, depthItems, depthItems]
      have hitem := depth_canonical_le item
      have hrest := depthItems_canonical_le rest
      omega

theorem depthMembers_canonical_le : ∀ (members : List (String × Json)),
    depthMembers (canonicalMembers members) ≤ depthMembers members
  | [] => Nat.le_refl _
  | (name, value) :: rest => by
      rw [canonicalMembers, depthMembers, depthMembers]
      have hvalue := depth_canonical_le value
      have hrest := depthMembers_canonical_le rest
      omega

end

/-- Every member is less deep than the object that it was put into. -/
theorem depth_lt_of_mem_arrange {room : Nat} (hnodup : (members.map Prod.fst).Nodup)
    (hdepth : (Json.obj (arrange members)).depth ≤ room) :
    ∀ member ∈ members, member.2.depth < room := by
  intro member hmem
  have hle := depthMembers_le_iff.mp (Nat.le_refl (depthMembers (arrange members))) member
    ((arrange_perm hnodup).mem_iff.mpr hmem)
  rw [depth] at hdepth
  omega

/-- The canonical text of a tree is read as the tree in canonical order, cut off where it
is too deep. -/
theorem parse?_canonicalText {tree : Json} (hexact : tree.Exact) :
    parse? (String.ofList (canonicalText tree)).toUTF8.toList =
      some (truncate nestingLimit (canonical tree)) :=
  parseWithin?_render (exact_canonical hexact) nestingLimit

theorem truncate_canonical {tree : Json} {room : Nat} (hdepth : tree.depth ≤ room) :
    truncate room (canonical tree) = canonical tree :=
  truncate_of_depth_le _ (Nat.le_trans (depth_canonical_le tree) hdepth)

/-! ## Reading members in any order -/

theorem fieldOf_of_perm {members' : List (String × Json)}
    (hnodup : (members.map Prod.fst).Nodup) (hperm : members'.Perm members) (name : String) :
    fieldOf members' name = fieldOf members name := by
  have hfilter := hperm.filter fun member => member.1 == name
  have hlength : (members.filter fun member => member.1 == name).length ≤ 1 := by
    have hcount : (members.map Prod.fst).count name ≤ 1 := List.nodup_iff_count.mp hnodup name
    rwa [List.count, List.countP_map, List.countP_eq_length_filter] at hcount
  have heq : (members'.filter fun member => member.1 == name) =
      members.filter fun member => member.1 == name := by
    rcases hmembers : members.filter fun member => member.1 == name with
      _ | ⟨member, _ | ⟨_, _⟩⟩ <;> rw [hmembers] at hfilter hlength
    · rw [hmembers, hfilter.eq_nil]
    · rw [hmembers, List.perm_singleton.mp hfilter]
    · exact absurd hlength (by simp)
  rw [fieldOf, fieldOf, heq]

theorem fields?_of_perm {members' : List (String × Json)}
    (hnodup : (members.map Prod.fst).Nodup) (hperm : members'.Perm members)
    (names : List String) : fields? names (.obj members') = fields? names (.obj members) := by
  rw [fields?, fields?]
  exact congrArg names.mapM (funext (fieldOf_of_perm hnodup hperm))

theorem mapM_of_perm {α β : Type} {f : α → Option β} {left right : List α} {results : List β}
    (hperm : left.Perm right) (hright : right.mapM f = some results) :
    ∃ results', left.mapM f = some results' ∧ results'.Perm results := by
  induction hperm generalizing results with
  | nil => exact ⟨results, hright, .refl _⟩
  | cons a _ ih =>
      simp only [List.mapM_cons, Option.bind_eq_bind, Option.bind_eq_some_iff, Option.pure_def,
        Option.some.injEq] at hright
      obtain ⟨b, hb, rest, hrest, rfl⟩ := hright
      obtain ⟨rest', hrest', hperm⟩ := ih hrest
      exact ⟨b :: rest', by simp [hb, hrest'], hperm.cons b⟩
  | swap a a' rest =>
      simp only [List.mapM_cons, Option.bind_eq_bind, Option.bind_eq_some_iff, Option.pure_def,
        Option.some.injEq] at hright
      obtain ⟨b, hb, _, ⟨b', hb', rest, hrest, rfl⟩, rfl⟩ := hright
      exact ⟨b' :: b :: rest, by simp [hb, hb', hrest], .swap _ _ _⟩
  | trans _ _ ihLeft ihRight =>
      obtain ⟨between, hbetween, hperm⟩ := ihRight hright
      obtain ⟨results', hresults', hperm'⟩ := ihLeft hbetween
      exact ⟨results', hresults', hperm'.trans hperm⟩

end RemoteCall.Json
