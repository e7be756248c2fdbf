import Mathlib.Data.List.Nodup
import RemoteCall.Operation.Listing
import RemoteCall.Proofs.Operation.Tree

/-!
# The functions of a tree, place by place

All functions of a tree are listed here, each with the names that lead to it.  In a
well-formed tree this says just what looking along names finds, and no names are listed
twice, so that the functions can be counted.
-/

namespace RemoteCall

/-- A function, and the names that lead to it. -/
abbrev Placed := List String × RemoteFunction

/-- What stands below a child stands below the name of the child. -/
def Placed.under (name : String) (placed : Placed) : Placed := (name :: placed.1, placed.2)

/-- A namespace that is well-formed, or a function. -/
def OperationNode.WellFormed : OperationNode → Prop
  | .function _ => True
  | .space child => Namespace.WellFormed child

namespace Namespace

mutual

/-- The functions at or below a node, with the names that lead to them from there. -/
def placedAt : OperationNode → List Placed
  | .function f => [([], f)]
  | .space ⟨_, children⟩ => placedAmong children

/-- The functions at or below some children, with the names that lead to them. -/
def placedAmong : List (String × OperationNode) → List Placed
  | [] => []
  | (name, node) :: rest => (placedAt node).map (Placed.under name) ++ placedAmong rest

end

/-- The functions in a namespace, with the names that lead to them. -/
def placed (space : Namespace) : List Placed := placedAmong space.children

variable {space : Namespace} {node : OperationNode} {children : List (String × OperationNode)}
  {names : List String} {function : RemoteFunction}

theorem placedAt_space (space : Namespace) : placedAt (.space space) = space.placed := rfl

theorem placedAmong_eq_flatMap (children : List (String × OperationNode)) :
    placedAmong children =
      children.flatMap fun child => (placedAt child.2).map (Placed.under child.1) := by
  induction children with
  | nil => rfl
  | cons child rest ih => rw [placedAmong, ih, List.flatMap_cons]

mutual

theorem pathsOf_eq_map : ∀ node : OperationNode,
    pathsOf node = (placedAt node).map fun placed => placed.2.path
  | .function _ => rfl
  | .space ⟨_, children⟩ => pathsOfAll_eq_map children

theorem pathsOfAll_eq_map : ∀ children : List (String × OperationNode),
    pathsOfAll children = (placedAmong children).map fun placed => placed.2.path
  | [] => rfl
  | (name, node) :: rest => by
      rw [pathsOfAll, placedAmong, List.map_append, List.map_map, pathsOf_eq_map node,
        pathsOfAll_eq_map rest]
      rfl

end

/-- The listed paths are those of the functions in the tree, in another order. -/
theorem leafPaths_perm (tree : OperationTree) :
    (leafPaths tree).Perm (tree.placed.map fun placed => placed.2.path) := by
  rw [leafPaths, pathsOfAll_eq_map]
  exact List.mergeSort_perm _ _

/-! ## Looking up -/

theorem mem_placedAmong_iff :
    (names, function) ∈ placedAmong children ↔
      ∃ name node rest, (name, node) ∈ children ∧ names = name :: rest ∧
        (rest, function) ∈ placedAt node := by
  rw [placedAmong_eq_flatMap, List.mem_flatMap]
  constructor
  · rintro ⟨⟨name, node⟩, hchild, hplaced⟩
    obtain ⟨⟨rest, _⟩, hrest, heq⟩ := List.mem_map.mp hplaced
    cases heq
    exact ⟨name, node, rest, hchild, rfl, hrest⟩
  · rintro ⟨name, node, rest, hchild, rfl, hrest⟩
    exact ⟨(name, node), hchild, List.mem_map.mpr ⟨(rest, function), hrest, rfl⟩⟩

theorem find?_eq_some_iff_mem {name : String} (hspace : WellFormed space) :
    space.find? name = some node ↔ (name, node) ∈ space.children := by
  obtain ⟨hascending, -, -⟩ := hspace
  exact ⟨Entries.mem_of_find?, Entries.find?_of_mem hascending⟩

theorem wellFormed_of_mem {name : String} (hspace : WellFormed space)
    (hmem : (name, node) ∈ space.children) : node.WellFormed := by
  cases node with
  | function f => exact trivial
  | space child =>
      have hfound := (find?_eq_some_iff_mem hspace).mpr hmem
      obtain ⟨-, -, hspaces⟩ := hspace
      exact hspaces name child hfound

/-- What is listed is what is found along the names. -/
theorem mem_placedAt_iff (hnode : node.WellFormed) :
    (names, function) ∈ placedAt node ↔ node.at? names = some (.function function) := by
  induction names generalizing node with
  | nil =>
      rw [at?_nil]
      cases node with
      | function f => simp [placedAt, eq_comm]
      | space space => simp [placedAt_space, placed, mem_placedAmong_iff]
  | cons name names ih =>
      cases node with
      | function f => simp [placedAt]
      | space space =>
          have hspace : WellFormed space := hnode
          have hfound : ∀ node, find? space name = some node ↔ (name, node) ∈ space.children :=
            fun _ => find?_eq_some_iff_mem hspace
          rw [placedAt_space, placed, mem_placedAmong_iff, at?_space_cons,
            Option.bind_eq_some_iff]
          constructor
          · rintro ⟨_, node, _, hmem, ⟨⟩, hplaced⟩
            exact ⟨node, (hfound node).mpr hmem, (ih (wellFormed_of_mem hspace hmem)).mp hplaced⟩
          · rintro ⟨node, hnode', hat⟩
            have hmem := (hfound node).mp hnode'
            exact ⟨name, node, names, hmem, rfl, (ih (wellFormed_of_mem hspace hmem)).mpr hat⟩

theorem mem_placed_iff (hspace : WellFormed space) :
    (names, function) ∈ space.placed ↔
      (OperationNode.space space).at? names = some (.function function) := by
  have hnode : (OperationNode.space space).WellFormed := hspace
  exact mem_placedAt_iff hnode

/-! ## Counting -/

theorem exists_of_mem_under {name : String} {below : List Placed}
    (hmem : names ∈ (below.map (Placed.under name)).map Prod.fst) :
    ∃ rest, names = name :: rest := by
  rw [List.map_map] at hmem
  obtain ⟨placed, -, rfl⟩ := List.mem_map.mp hmem
  exact ⟨placed.1, rfl⟩

theorem nodup_under {below : List Placed} (name : String) (hbelow : (below.map Prod.fst).Nodup) :
    ((below.map (Placed.under name)).map Prod.fst).Nodup := by
  have hnames : (below.map (Placed.under name)).map Prod.fst =
      (below.map Prod.fst).map (List.cons name) := by
    rw [List.map_map, List.map_map]
    rfl
  rw [hnames]
  exact hbelow.map List.cons_injective

/-- No names are listed twice. -/
theorem nodup_placed (hspace : WellFormed space) : (space.placed.map Prod.fst).Nodup := by
  induction hspace with
  | @intro space hascending hpaths hspaces ih =>
      rw [placed, placedAmong_eq_flatMap, List.map_flatMap, List.nodup_flatMap]
      constructor
      · rintro ⟨name, node⟩ hmem
        apply nodup_under
        cases node with
        | function f => exact List.nodup_singleton _
        | space child => exact ih name child (Entries.find?_of_mem hascending hmem)
      · -- Children of different names have nothing in common.
        refine hascending.imp fun {left right} hlt names hleft hright => ?_
        obtain ⟨_, rfl⟩ := exists_of_mem_under hleft
        obtain ⟨_, heq⟩ := exists_of_mem_under hright
        have hself : compare right.1 right.1 = .eq := Std.ReflCmp.compare_self
        rw [(List.cons.inj heq).1, hself] at hlt
        cases hlt

end Namespace

end RemoteCall
