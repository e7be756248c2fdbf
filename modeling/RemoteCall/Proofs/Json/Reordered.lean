import RemoteCall.Proofs.Json.Canonical

/-!
# Trees with their members in another order

The members of an object say the same in whatever order they stand.  A tree is read as
something if all trees are read so that differ from it in the order of members, at any
depth.  The canonical text of a tree is that of one of these, if every name occurs once.
-/

namespace RemoteCall.Json

/-! ## Going through a tree -/

/-- The tree is neither an array nor an object. -/
def IsLeaf : Json → Prop
  | .arr _ => False
  | .obj _ => False
  | _ => True

/-- What holds of leaves, and of arrays and objects if it holds of their parts, holds of
every tree. -/
theorem tree_induction {P : Json → Prop} (leaf : ∀ tree, IsLeaf tree → P tree)
    (arr : ∀ items, (∀ item ∈ items, P item) → P (.arr items))
    (obj : ∀ members, (∀ member ∈ members, P member.2) → P (.obj members)) (tree : Json) :
    P tree :=
  @Json.rec P (fun items => ∀ item ∈ items, P item) (fun members => ∀ member ∈ members, P member.2)
    (fun member => P member.2) (leaf .null trivial) (fun b => leaf (.bool b) trivial)
    (fun n => leaf (.int n) trivial) (fun x => leaf (.float x) trivial)
    (fun s => leaf (.str s) trivial) arr obj (leaf .unreadable trivial) nofun
    (fun _ _ hitem hrest => List.forall_mem_cons.mpr ⟨hitem, hrest⟩) nofun
    (fun _ _ hmember hrest => List.forall_mem_cons.mpr ⟨hmember, hrest⟩) (fun _ _ htree => htree)
    tree

/-! ## Reordering -/

mutual

/-- The second tree is the first with the members of its objects in another order. -/
def Reordered : Json → Json → Prop
  | .arr items, tree => ∃ items', tree = .arr items' ∧ ReorderedItems items items'
  | .obj members, tree => ∃ between members',
      tree = .obj members' ∧ ReorderedMembers members between ∧ members'.Perm between
  | other, tree => tree = other

def ReorderedItems : List Json → List Json → Prop
  | [], items' => items' = []
  | item :: rest, items' => ∃ item' rest',
      items' = item' :: rest' ∧ Reordered item item' ∧ ReorderedItems rest rest'

/-- Every value is reordered, in its own place. -/
def ReorderedMembers : List (String × Json) → List (String × Json) → Prop
  | [], members' => members' = []
  | (name, value) :: rest, members' => ∃ value' rest',
      members' = (name, value') :: rest' ∧ Reordered value value' ∧ ReorderedMembers rest rest'

end

variable {tree tree' : Json} {items items' : List Json} {members members' : List (String × Json)}

theorem reordered_leaf_iff (hleaf : IsLeaf tree) : Reordered tree tree' ↔ tree' = tree := by
  cases tree with
  | arr items => exact hleaf.elim
  | obj members => exact hleaf.elim
  | _ => exact Iff.rfl

theorem reorderedItems_iff : ReorderedItems items items' ↔ List.Forall₂ Reordered items items' := by
  induction items generalizing items' with
  | nil =>
      rw [ReorderedItems, List.forall₂_nil_left_iff]
  | cons item rest ih =>
      rw [ReorderedItems, List.forall₂_cons_left_iff]
      constructor
      · rintro ⟨item', rest', heq, hitem, hrest⟩
        exact ⟨item', rest', hitem, ih.mp hrest, heq⟩
      · rintro ⟨item', rest', hitem, hrest, heq⟩
        exact ⟨item', rest', heq, hitem, ih.mpr hrest⟩

theorem reorderedMembers_iff : ReorderedMembers members members' ↔
    List.Forall₂ (Entries.SameKey fun _ => Reordered) members members' := by
  induction members generalizing members' with
  | nil => rw [ReorderedMembers, List.forall₂_nil_left_iff]
  | cons member rest ih =>
      rw [ReorderedMembers, List.forall₂_cons_left_iff]
      constructor
      · rintro ⟨value', rest', heq, hvalue, hrest⟩
        exact ⟨(member.1, value'), rest', ⟨rfl, hvalue⟩, ih.mp hrest, heq⟩
      · rintro ⟨⟨name, value'⟩, rest', ⟨hname, hvalue⟩, hrest, heq⟩
        cases hname
        exact ⟨value', rest', heq, hvalue, ih.mpr hrest⟩

theorem reordered_arr_iff : Reordered (.arr items) tree ↔
    ∃ items', tree = .arr items' ∧ List.Forall₂ Reordered items items' := by
  simp only [Reordered, reorderedItems_iff]

theorem reordered_obj_iff : Reordered (.obj members) tree ↔
    ∃ between members', tree = .obj members' ∧
      List.Forall₂ (Entries.SameKey fun _ => Reordered) members between ∧
        members'.Perm between := by
  simp only [Reordered, reorderedMembers_iff]

theorem Reordered.refl (tree : Json) : Reordered tree tree := by
  induction tree using tree_induction with
  | leaf tree hleaf => exact (reordered_leaf_iff hleaf).mpr rfl
  | arr items ih => exact reordered_arr_iff.mpr ⟨items, rfl, List.forall₂_same.mpr ih⟩
  | obj members ih =>
      exact reordered_obj_iff.mpr ⟨members, members, rfl,
        List.forall₂_same.mpr fun member hmem => ⟨rfl, ih member hmem⟩, .refl _⟩

/-! ### What does not depend on the order -/

theorem exact_of_reordered (hreordered : Reordered tree tree') (hexact : tree.Exact) :
    tree'.Exact := by
  induction tree using tree_induction generalizing tree' with
  | leaf tree hleaf =>
      rw [(reordered_leaf_iff hleaf).mp hreordered]
      exact hexact
  | arr items ih =>
      obtain ⟨items', rfl, hitems⟩ := reordered_arr_iff.mp hreordered
      refine exactItems_iff.mpr fun item' hmem' => ?_
      obtain ⟨item, hmem, hitem⟩ := exists_left_of_mem hitems hmem'
      exact ih item hmem hitem (exactItems_iff.mp hexact item hmem)
  | obj members ih =>
      obtain ⟨between, members', rfl, hmembers, hperm⟩ := reordered_obj_iff.mp hreordered
      refine exactMembers_iff.mpr fun member' hmem' => ?_
      obtain ⟨member, hmem, -, hmember⟩ := exists_left_of_mem hmembers (hperm.mem_iff.mp hmem')
      exact ih member hmem hmember (exactMembers_iff.mp hexact member hmem)

theorem depthMembers_eq_of_perm (hperm : members'.Perm members) :
    depthMembers members' = depthMembers members := by
  apply Nat.le_antisymm
  · exact depthMembers_le_iff.mpr fun member hmem =>
      depthMembers_le_iff.mp (Nat.le_refl _) member (hperm.mem_iff.mp hmem)
  · exact depthMembers_le_iff.mpr fun member hmem =>
      depthMembers_le_iff.mp (Nat.le_refl _) member (hperm.mem_iff.mpr hmem)

theorem depthItems_eq_of_forall₂
    (hitems : List.Forall₂ (fun item item' => depth item' = item.depth) items items') :
    depthItems items' = depthItems items := by
  induction hitems with
  | nil => rfl
  | cons hitem _ ih => rw [depthItems, depthItems, hitem, ih]

theorem depthMembers_eq_of_forall₂
    (hmembers : List.Forall₂ (fun member member' => depth (Prod.snd member') = depth member.2)
      members members') :
    depthMembers members' = depthMembers members := by
  induction hmembers with
  | nil => rfl
  | cons hmember _ ih => rw [depthMembers, depthMembers, hmember, ih]

theorem depth_of_reordered (hreordered : Reordered tree tree') : tree'.depth = tree.depth := by
  induction tree using tree_induction generalizing tree' with
  | leaf tree hleaf => rw [(reordered_leaf_iff hleaf).mp hreordered]
  | arr items ih =>
      obtain ⟨items', rfl, hitems⟩ := reordered_arr_iff.mp hreordered
      exact congrArg (1 + ·) (depthItems_eq_of_forall₂
        (forall₂_of_mem hitems fun item hmem _ _ hitem => ih item hmem hitem))
  | obj members ih =>
      obtain ⟨between, members', rfl, hmembers, hperm⟩ := reordered_obj_iff.mp hreordered
      exact congrArg (1 + ·) ((depthMembers_eq_of_perm hperm).trans (depthMembers_eq_of_forall₂
        (forall₂_of_mem hmembers fun member hmem _ _ hmember => ih member hmem hmember.2)))

/-! ### Regular trees -/

mutual

/-- Every part of the tree denotes a value, and no object has two members of one name. -/
def Regular : Json → Prop
  | .unreadable => False
  | .arr items => RegularItems items
  | .obj members => (members.map Prod.fst).Nodup ∧ RegularMembers members
  | _ => True

def RegularItems : List Json → Prop
  | [] => True
  | item :: rest => Regular item ∧ RegularItems rest

def RegularMembers : List (String × Json) → Prop
  | [] => True
  | (_, value) :: rest => Regular value ∧ RegularMembers rest

end

theorem regularItems_iff : RegularItems items ↔ ∀ item ∈ items, item.Regular := by
  induction items with
  | nil => simp [RegularItems]
  | cons item rest ih => rw [RegularItems, ih, List.forall_mem_cons]

theorem regularMembers_iff : RegularMembers members ↔ ∀ member ∈ members, member.2.Regular := by
  induction members with
  | nil => simp [RegularMembers]
  | cons member rest ih => rw [RegularMembers, ih, List.forall_mem_cons]

theorem areReadable_iff : areReadable items ↔ ∀ item ∈ items, item.isReadable := by
  induction items with
  | nil => simp [areReadable]
  | cons item rest ih => rw [areReadable, Bool.and_eq_true, ih, List.forall_mem_cons]

theorem membersReadable_iff :
    membersReadable members ↔ ∀ member ∈ members, member.2.isReadable := by
  induction members with
  | nil => simp [membersReadable]
  | cons member rest ih => rw [membersReadable, Bool.and_eq_true, ih, List.forall_mem_cons]

/-- Of a regular tree every part can be read, wherever it stands. -/
theorem isReadable_of_reordered (hreordered : Reordered tree tree') (hregular : tree.Regular) :
    tree'.isReadable := by
  induction tree using tree_induction generalizing tree' with
  | leaf tree hleaf =>
      rw [(reordered_leaf_iff hleaf).mp hreordered]
      cases tree with
      | unreadable => exact hregular.elim
      | arr items => exact hleaf.elim
      | obj members => exact hleaf.elim
      | _ => rfl
  | arr items ih =>
      obtain ⟨items', rfl, hitems⟩ := reordered_arr_iff.mp hreordered
      refine areReadable_iff.mpr fun item' hmem' => ?_
      obtain ⟨item, hmem, hitem⟩ := exists_left_of_mem hitems hmem'
      exact ih item hmem hitem (regularItems_iff.mp hregular item hmem)
  | obj members ih =>
      obtain ⟨between, members', rfl, hmembers, hperm⟩ := reordered_obj_iff.mp hreordered
      refine membersReadable_iff.mpr fun member' hmem' => ?_
      obtain ⟨member, hmem, -, hmember⟩ := exists_left_of_mem hmembers (hperm.mem_iff.mp hmem')
      exact ih member hmem hmember (regularMembers_iff.mp hregular.2 member hmem)

theorem canonicalItems_eq_map (items : List Json) :
    canonicalItems items = items.map canonical := by
  induction items with
  | nil => rfl
  | cons item rest ih => rw [canonicalItems, ih, List.map_cons]

theorem canonicalMembers_eq_map (members : List (String × Json)) :
    canonicalMembers members = members.map fun member => (member.1, canonical member.2) := by
  induction members with
  | nil => rfl
  | cons member rest ih => rw [canonicalMembers, ih, List.map_cons]

/-- The canonical order is one of all orders. -/
theorem reordered_canonical (hregular : tree.Regular) : Reordered tree (canonical tree) := by
  induction tree using tree_induction with
  | leaf tree hleaf =>
      refine (reordered_leaf_iff hleaf).mpr ?_
      cases tree with
      | arr items => exact hleaf.elim
      | obj members => exact hleaf.elim
      | _ => rfl
  | arr items ih =>
      refine reordered_arr_iff.mpr ⟨_, rfl, ?_⟩
      rw [canonicalItems_eq_map, List.forall₂_map_right_iff]
      exact List.forall₂_same.mpr fun item hmem =>
        ih item hmem (regularItems_iff.mp hregular item hmem)
  | obj members ih =>
      have hkeys : (canonicalMembers members).map Prod.fst = members.map Prod.fst := by
        rw [canonicalMembers_eq_map, List.map_map]
        rfl
      refine reordered_obj_iff.mpr ⟨canonicalMembers members, _, rfl, ?_,
        arrange_perm (hkeys ▸ hregular.1)⟩
      rw [canonicalMembers_eq_map, List.forall₂_map_right_iff]
      exact List.forall₂_same.mpr fun member hmem =>
        ⟨rfl, ih member hmem (regularMembers_iff.mp hregular.2 member hmem)⟩

/-! ### Plain trees -/

/-- The tree is told by its text, and every name occurs once in its object. -/
structure Plain (tree : Json) : Prop where
  exact : tree.Exact
  regular : tree.Regular

@[simp] theorem plain_str (s : String) : Plain (.str s) := ⟨trivial, trivial⟩

@[simp] theorem plain_bool (b : Bool) : Plain (.bool b) := ⟨trivial, trivial⟩

theorem plain_natCast {n : Nat} (hlt : n < UInt64.size) : Plain (.int n) :=
  ⟨exact_natCast hlt, trivial⟩

theorem plain_arr (hitems : ∀ item ∈ items, Plain item) : Plain (.arr items) where
  exact := exactItems_iff.mpr fun item hmem => (hitems item hmem).exact
  regular := regularItems_iff.mpr fun item hmem => (hitems item hmem).regular

theorem plain_obj (hnodup : (members.map Prod.fst).Nodup)
    (hmembers : ∀ member ∈ members, Plain member.2) : Plain (.obj members) where
  exact := exactMembers_iff.mpr fun member hmem => (hmembers member hmem).exact
  regular := ⟨hnodup, regularMembers_iff.mpr fun member hmem => (hmembers member hmem).regular⟩

theorem plain_map {α : Type} {write : α → Json} {map : SortedMap String α}
    (hentries : ∀ entry ∈ map.entries, Plain (write entry.2)) :
    Plain (.obj (map.entries.map fun entry => (entry.1, write entry.2))) := by
  refine plain_obj ?_ (List.forall_mem_map.mpr hentries)
  rw [List.map_map]
  exact Entries.nodup_keys map.ascending

/-- The text of a tree that is not too deep is parsed as the tree. -/
theorem parse?_render (hexact : tree.Exact) (hdepth : tree.depth ≤ nestingLimit) :
    parse? (String.ofList (render tree)).toUTF8.toList = some tree := by
  rw [parse?, parseWithin?_render hexact, truncate_of_depth_le tree hdepth]

/-! ## Reading -/

variable {α β : Type} {read : Json → Option α} {a : α}

/-- The tree is read as a value, in whatever order the members of its objects stand. -/
def ReadAs (read : Json → Option α) (tree : Json) (a : α) : Prop :=
  ∀ tree', Reordered tree tree' → read tree' = some a

theorem readAs_of_isLeaf (hleaf : IsLeaf tree) (hread : read tree = some a) :
    ReadAs read tree a := by
  intro tree' hreordered
  rw [(reordered_leaf_iff hleaf).mp hreordered, hread]

theorem readAs_str? (s : String) : ReadAs str? (.str s) s := readAs_of_isLeaf trivial rfl

theorem readAs_bool? (b : Bool) : ReadAs bool? (.bool b) b := readAs_of_isLeaf trivial rfl

theorem ReadAs.map (hread : ReadAs read tree a) (f : α → β) :
    ReadAs (fun tree => (read tree).map f) tree (f a) := by
  intro tree' hreordered
  dsimp only
  rw [hread tree' hreordered, Option.map_some]

/-- A list is read if its items are. -/
theorem readAs_list? {write : α → Json} {list : List α}
    (hlist : ∀ a ∈ list, ReadAs read (write a) a) :
    ReadAs (list? read) (.arr (list.map write)) list := by
  intro tree' hreordered
  obtain ⟨items', rfl, hitems⟩ := reordered_arr_iff.mp hreordered
  rw [List.forall₂_map_left_iff] at hitems
  clear hreordered
  change items'.mapM read = some list
  induction hitems with
  | nil => rfl
  | cons hitem _ ih =>
      obtain ⟨hhead, hrest⟩ := List.forall_mem_cons.mp hlist
      rw [List.mapM_cons, hhead _ hitem, ih hrest]
      rfl

/-- The entries of a map are read back if their values are. -/
theorem readAs_members? {write : α → Json} {entries : List (String × α)}
    (hascending : Entries.Ascending entries)
    (hentries : ∀ entry ∈ entries, ReadAs read (write entry.2) entry.2) :
    ReadAs (fun tree => (members? read tree).map Entries.ofList)
      (.obj (entries.map fun entry => (entry.1, write entry.2))) entries := by
  intro tree' hreordered
  obtain ⟨between, members', rfl, hmembers, hperm⟩ := reordered_obj_iff.mp hreordered
  rw [List.forall₂_map_left_iff] at hmembers
  have hbetween : members? read (.obj between) = some entries := by
    clear hreordered hperm hascending
    induction hmembers with
    | nil => rfl
    | cons hmember _ ih =>
        obtain ⟨hhead, hrest⟩ := List.forall_mem_cons.mp hentries
        have ih := ih hrest
        rw [members?] at ih ⊢
        rw [List.mapM_cons, hhead _ hmember.2, ih]
        rw [hmember.1]
        rfl
  obtain ⟨results, hresults, hsorted⟩ := mapM_of_perm hperm hbetween
  dsimp only
  rw [members?, hresults, Option.map_some, Entries.ofList_eq_of_perm hascending hsorted]

theorem readAs_map? {write : α → Json} {map : SortedMap String α}
    (hentries : ∀ entry ∈ map.entries, ReadAs read (write entry.2) entry.2) :
    ReadAs (map? read) (.obj (map.entries.map fun entry => (entry.1, write entry.2))) map := by
  intro tree' hreordered
  obtain ⟨pairs, hpairs, heq⟩ :=
    Option.map_eq_some_iff.mp (readAs_members? map.ascending hentries tree' hreordered)
  rw [map?, hpairs, Option.map_some]
  exact congrArg some (SortedMap.ext heq)

/-! ### Records -/

theorem fieldOf_of_forall₂ {name : String} {field : Option Json}
    (hmembers : List.Forall₂ (Entries.SameKey fun _ => Reordered) members members')
    (hfield : fieldOf members name = some field) :
    ∃ field', fieldOf members' name = some field' ∧ Option.Rel Reordered field field' := by
  have hfilter : List.Forall₂ (Entries.SameKey fun _ => Reordered)
      (members.filter fun member => member.1 == name)
      (members'.filter fun member => member.1 == name) := by
    refine List.rel_filter ?_ hmembers
    intro member member' hmember
    dsimp only
    rw [hmember.1]
  rw [fieldOf] at hfield ⊢
  generalize members.filter (fun member => member.1 == name) = found at hfilter hfield
  generalize members'.filter (fun member => member.1 == name) = found' at hfilter ⊢
  cases hfilter with
  | nil =>
      cases hfield
      exact ⟨none, rfl, .none⟩
  | cons hmember hrest =>
      cases hrest with
      | nil =>
          cases hfield
          exact ⟨some _, rfl, .some hmember.2⟩
      | cons _ _ => cases hfield

/-- The fields of a record are found in whatever order they stand. -/
theorem fields?_of_reordered {names : List String} {fields : List (Option Json)}
    (hnodup : (members.map Prod.fst).Nodup)
    (hfields : fields? names (.obj members) = some fields)
    (hreordered : Reordered (.obj members) tree) :
    ∃ fields', fields? names tree = some fields' ∧
      List.Forall₂ (Option.Rel Reordered) fields fields' := by
  obtain ⟨between, members', rfl, hmembers, hperm⟩ := reordered_obj_iff.mp hreordered
  have hkeys : between.map Prod.fst = members.map Prod.fst :=
    Entries.keys_eq_of_forall₂ hmembers
  rw [fields?_of_perm (hkeys ▸ hnodup) hperm]
  change names.mapM (fieldOf members) = some fields at hfields
  change ∃ fields', names.mapM (fieldOf between) = some fields' ∧ _
  induction names generalizing fields with
  | nil =>
      cases hfields
      exact ⟨[], rfl, .nil⟩
  | cons name names ih =>
      simp only [List.mapM_cons, Option.bind_eq_bind, Option.bind_eq_some_iff, Option.pure_def,
        Option.some.injEq] at hfields
      obtain ⟨field, hfield, rest, hrest, rfl⟩ := hfields
      obtain ⟨field', hfield', hrel⟩ := fieldOf_of_forall₂ hmembers hfield
      obtain ⟨rest', hrest', hrels⟩ := ih hrest
      exact ⟨field' :: rest', by simp [hfield', hrest'], .cons hrel hrels⟩

/-- A record is read if it is put together of its fields, each of them reordered. -/
theorem readAs_of_fields? {names : List String} {fields : List (Option Json)}
    {build : List (Option Json) → Option α} (hnodup : (members.map Prod.fst).Nodup)
    (hfields : fields? names (.obj members) = some fields)
    (hbuild : ∀ fields', List.Forall₂ (Option.Rel Reordered) fields fields' →
      build fields' = some a) :
    ReadAs (fun tree => (fields? names tree).bind build) (.obj members) a := by
  intro tree' hreordered
  obtain ⟨fields', hfields', hrel⟩ := fields?_of_reordered hnodup hfields hreordered
  dsimp only
  rw [hfields', Option.bind_some, hbuild fields' hrel]

variable {write : α → Json} {value : Option α} {field : Option Json}

/-- A field that is missing where there is nothing to tell is read as nothing. -/
theorem optional_of_rel (hnull : read .null = none)
    (hvalue : ∀ a, value = some a → ReadAs read (write a) a)
    (hrel : Option.Rel Reordered (value.map write) field) :
    optional read field = some value := by
  cases value with
  | none =>
      cases hrel
      rfl
  | some a =>
      cases hrel with
      | some hreordered =>
          rename_i tree
          have hread := hvalue a rfl tree hreordered
          change nullable read tree = some (some a)
          rw [nullable]
          · rw [hread, Option.map_some]
          · rintro rfl
            rw [hnull] at hread
            cases hread

theorem orElse_some (fallback : α) (tree : Json) :
    orElse fallback read (some tree) = read tree := rfl

/-- A field that is left out where it says what is taken for granted. -/
theorem orElse_of_rel {fallback : α} (hnone : field = none → a = fallback)
    (hsome : ∀ tree, field = some tree → ReadAs read tree a) {field' : Option Json}
    (hrel : Option.Rel Reordered field field') : orElse fallback read field' = some a := by
  cases hrel with
  | none => rw [orElse, hnone rfl]
  | some hreordered => exact hsome _ rfl _ hreordered

/-! ### Tagged variants -/

variable {tagName contentName kind : String} {content : Json} {tags : List String}

/-- The tree of a variant is deeper than what the variant holds. -/
theorem exists_of_depth_tagged_le {fuel : Nat}
    (hdepth : (obj [(tagName, .str kind), (contentName, content)]).depth ≤ fuel) :
    ∃ less, fuel = less + 1 ∧ content.depth ≤ less := by
  have htagged : (obj [(tagName, .str kind), (contentName, content)]).depth =
    1 + max 0 (max content.depth 0) := rfl
  exact ⟨fuel - 1, by omega, by omega⟩

/-- A kind of which there is nothing to tell is told in one way only. -/
theorem eq_of_reordered_bare (hreordered : Reordered (.obj [(tagName, .str kind)]) tree) :
    tree = .obj [(tagName, .str kind)] := by
  obtain ⟨between, members', rfl, hmembers, hperm⟩ := reordered_obj_iff.mp hreordered
  obtain ⟨⟨name', value'⟩, rest, ⟨hname, hvalue⟩, hrest, rfl⟩ :=
    List.forall₂_cons_left_iff.mp hmembers
  cases hname
  cases (hvalue : value' = .str kind)
  cases hrest
  rw [List.perm_singleton.mp hperm]

theorem eq_or_eq_of_perm_pair {first second : α} {list : List α}
    (hperm : list.Perm [first, second]) : list = [first, second] ∨ list = [second, first] := by
  match list, hperm.length_eq with
  | [x, y], _ =>
      rcases List.mem_pair.mp (hperm.subset List.mem_cons_self) with rfl | rfl
      · exact .inl (congrArg _ (List.perm_singleton.mp hperm.cons_inv))
      · have hswap := hperm.trans (.swap _ _ _)
        exact .inr (congrArg _ (List.perm_singleton.mp hswap.cons_inv))

/-- The tag and the content of a variant are found in either order.  The content waits
for the tag where it stands in front of it. -/
theorem tagged?_of_reordered (waited : Bool) (hne : contentName ≠ tagName)
    (hregular : content.Regular)
    (hreordered : Reordered (.obj [(tagName, .str kind), (contentName, content)]) tree) :
    ∃ content' waited', Reordered content content' ∧
      tagged? tagName contentName tags waited tree = some ⟨kind, some content', waited'⟩ := by
  obtain ⟨between, members', rfl, hmembers, hperm⟩ := reordered_obj_iff.mp hreordered
  obtain ⟨⟨tagName', tag'⟩, rest, ⟨htagName, htag⟩, hrest, rfl⟩ :=
    List.forall₂_cons_left_iff.mp hmembers
  obtain ⟨⟨contentName', content'⟩, nothing, ⟨hcontentName, hcontent⟩, hnothing, rfl⟩ :=
    List.forall₂_cons_left_iff.mp hrest
  cases hnothing
  cases htagName
  cases hcontentName
  cases (htag : tag' = .str kind)
  have hreadable := isReadable_of_reordered hcontent hregular
  dsimp only at hcontent hreadable
  rcases eq_or_eq_of_perm_pair hperm with rfl | rfl
  · refine ⟨content', waited, hcontent, ?_⟩
    simp [tagged?, name?]
  · refine ⟨content', true, hcontent, ?_⟩
    simp [tagged?, name?, hreadable, hne]

end RemoteCall.Json
