import Mathlib.Algebra.Order.Group.Multiset
import Mathlib.Tactic.Abel
import RemoteCall.Proofs.Operation.Places

/-!
# Nothing is lost in silence

A function may be left out of a tree because its place is taken when it comes, because a
better one comes later, or because a namespace comes to stand where it stood.  Each time
its module path is told.  So with every insertion the module paths in the tree, together
with those that were told, grow by just that of the new function.
-/

namespace RemoteCall

/-- The module paths of the functions at or below a node, each as often as it occurs. -/
def OperationNode.modulePaths (node : OperationNode) : Multiset String :=
  (Namespace.placedAt node).map fun placed => placed.2.endpoint.modulePath

/-- The module paths that are told of what is left out. -/
def Collision.allDropped (collisions : List Collision) : Multiset String :=
  collisions.map Collision.dropped

namespace Namespace

open Collision (allDropped)

variable {space : Namespace} {node : OperationNode} {name segment : String}
  {new : RemoteFunction} {segments : List String}

/-- The module paths of the functions in a namespace. -/
def modulePaths (space : Namespace) : Multiset String := (OperationNode.space space).modulePaths

/-- The module paths of what stands in a place, if something does. -/
def modulePathsOf : Option OperationNode → Multiset String
  | none => 0
  | some node => node.modulePaths

/-! ## One child -/

/-- The functions in a namespace are those of its children, in any order. -/
theorem modulePaths_of_perm {children : List (String × OperationNode)}
    (hperm : space.children.Perm ((name, node) :: children)) :
    space.modulePaths = node.modulePaths + modulePaths ⟨space.path, children⟩ := by
  have hplaced : space.placed.Perm
      ((placedAt node).map (Placed.under name) ++ placedAmong children) := by
    rw [placed, placedAmong_eq_flatMap, placedAmong_eq_flatMap]
    exact hperm.flatMap_right _
  calc
    space.modulePaths = (((placedAt node).map (Placed.under name) ++ placedAmong children).map
        fun placed => placed.2.endpoint.modulePath : List String) :=
      Multiset.coe_eq_coe.mpr (hplaced.map _)
    _ = _ := by
      rw [List.map_append, List.map_map]
      rfl

/-- A child brings its functions along, and takes those of what stood in its place. -/
theorem modulePaths_withChild (hspace : WellFormed space) :
    (space.withChild name node).modulePaths + modulePathsOf (space.find? name) =
      node.modulePaths + space.modulePaths := by
  obtain ⟨hascending, -, -⟩ := hspace
  have hwith : (space.withChild name node).modulePaths =
      node.modulePaths + modulePaths ⟨space.path, Entries.erase name space.children⟩ :=
    modulePaths_of_perm (Entries.insert_perm_erase hascending)
  cases hfound : space.find? name with
  | none =>
      have herase : Entries.erase name space.children = space.children :=
        Entries.erase_of_find?_eq_none hfound
      rw [hwith, herase, modulePathsOf, add_zero]
  | some old =>
      have hold : space.modulePaths =
          old.modulePaths + modulePaths ⟨space.path, Entries.erase name space.children⟩ :=
        modulePaths_of_perm (Entries.perm_erase hascending hfound)
      rw [hwith, hold, modulePathsOf, add_assoc, add_comm old.modulePaths]

/-! ## One function more -/

theorem modulePaths_insertLeaf (hspace : WellFormed space) :
    (space.insertLeaf name new).1.modulePaths + allDropped (space.insertLeaf name new).2 =
      {new.endpoint.modulePath} + space.modulePaths := by
  have hwith : (space.withChild name (.function new)).modulePaths +
      modulePathsOf (space.find? name) = {new.endpoint.modulePath} + space.modulePaths :=
    modulePaths_withChild hspace
  have hkept : space.modulePaths +
      allDropped [.taken (space.childPath name) new.endpoint.modulePath] =
        {new.endpoint.modulePath} + space.modulePaths := add_comm _ _
  rw [insertLeaf]
  cases hfound : space.find? name with
  | none =>
      rw [hfound] at hwith
      exact hwith
  | some node =>
      cases node with
      | space child => exact hkept
      | function old =>
          rw [hfound] at hwith
          dsimp only
          split
          · exact hkept
          · exact hwith

theorem allDropped_append (collisions more : List Collision) :
    allDropped (collisions ++ more) = allDropped collisions + allDropped more := by
  rw [allDropped, List.map_append, ← Multiset.coe_add]
  rfl

/-- What is told of a function that a namespace comes to stand in the place of. -/
def shadowed (space : Namespace) (segment : String) : List Collision :=
  match space.find? segment with
  | some (.function old) => [.shadowed (space.childPath segment) old.endpoint.modulePath]
  | _ => []

theorem insert_cons_snd :
    (insert name new (segment :: segments) space).2 =
      space.shadowed segment ++ (insert name new segments (space.goOn segment)).2 := by
  rw [insert, goOn, shadowed]
  rcases space.find? segment with _ | _ | _ <;> rfl

/-- What stood in a place stands where insertion goes on, or is told of. -/
theorem modulePathsOf_find? (space : Namespace) (segment : String) :
    modulePathsOf (space.find? segment) =
      (space.goOn segment).modulePaths + allDropped (space.shadowed segment) := by
  rw [goOn, shadowed]
  rcases space.find? segment with _ | child | old
  · rfl
  · exact (add_zero _).symm
  · exact (zero_add _).symm

/-- An insertion adds the path of the new function to those in the tree and those told. -/
theorem modulePaths_insert (hspace : WellFormed space) :
    (insert name new segments space).1.modulePaths +
        allDropped (insert name new segments space).2 =
      {new.endpoint.modulePath} + space.modulePaths := by
  induction segments generalizing space with
  | nil =>
      rw [insert]
      exact modulePaths_insertLeaf hspace
  | cons segment segments ih =>
      have hbelow := ih (path_goOn segment hspace).2
      rw [insert_cons, insert_cons_snd, allDropped_append]
      generalize insert name new segments (space.goOn segment) = inserted at hbelow ⊢
      have hwith : (space.withChild segment (.space inserted.1)).modulePaths +
          modulePathsOf (space.find? segment) = inserted.1.modulePaths + space.modulePaths :=
        modulePaths_withChild hspace
      apply add_right_cancel (b := (space.goOn segment).modulePaths)
      calc
        _ = (space.withChild segment (.space inserted.1)).modulePaths +
              modulePathsOf (space.find? segment) + allDropped inserted.2 := by
          rw [modulePathsOf_find?]
          abel
        _ = inserted.1.modulePaths + allDropped inserted.2 + space.modulePaths := by
          rw [hwith]
          abel
        _ = _ := by
          rw [hbelow]
          abel

end Namespace

/-! ## All functions -/

namespace OperationTree

open Collision (allDropped)

theorem modulePaths_insert {tree : OperationTree} (htree : tree.WellFormed) (entry : TreeEntry) :
    (tree.insert entry.1 entry.2).1.modulePaths + allDropped (tree.insert entry.1 entry.2).2 =
      {entry.1.modulePath} + tree.modulePaths := by
  rw [insert_eq]
  exact Namespace.modulePaths_insert htree

theorem modulePaths_insertAll {tree : OperationTree} (htree : tree.WellFormed)
    (entries : List TreeEntry) :
    (tree.insertAll entries).1.modulePaths + allDropped (tree.insertAll entries).2 =
      (entries.map fun entry => entry.1.modulePath : List String) + tree.modulePaths := by
  induction entries generalizing tree with
  | nil => exact add_comm _ _
  | cons entry rest ih =>
      have hentry := modulePaths_insert htree entry
      have htree' : (tree.insert entry.1 entry.2).1.WellFormed :=
        Namespace.wellFormed_insert htree
      have hrest := ih htree'
      calc
        _ = ((tree.insert entry.1 entry.2).1.insertAll rest).1.modulePaths +
              allDropped ((tree.insert entry.1 entry.2).2 ++
                ((tree.insert entry.1 entry.2).1.insertAll rest).2) := rfl
        _ = (rest.map fun entry => entry.1.modulePath : List String) +
              ((tree.insert entry.1 entry.2).1.modulePaths +
                allDropped (tree.insert entry.1 entry.2).2) := by
          rw [Namespace.allDropped_append, ← add_assoc, add_right_comm, hrest, add_assoc]
        _ = _ := by
          rw [hentry, List.map_cons, ← Multiset.cons_coe, ← Multiset.singleton_add]
          abel

/-- The functions listed are those found along some names, each once.  There are as many
entries as functions in the tree and losses told of, and the module paths of the entries
are those of the functions together with those told as dropped, each as often. -/
theorem modulePaths_ofEndpoints (entries : List TreeEntry) :
    ((∀ names function, (names, function) ∈ Namespace.placed (ofEndpoints entries).1 ↔
        (OperationNode.space (ofEndpoints entries).1).at? names = some (.function function)) ∧
      ((Namespace.placed (ofEndpoints entries).1).map Prod.fst).Nodup) ∧
    entries.length =
      (Namespace.placed (ofEndpoints entries).1).length + (ofEndpoints entries).2.length ∧
    (entries.map fun entry => entry.1.modulePath : Multiset String) =
      (Namespace.placed (ofEndpoints entries).1).map (fun placed => placed.2.endpoint.modulePath) +
        (ofEndpoints entries).2.map Collision.dropped := by
  have hholds : Holds (ofEndpoints entries).1 entries := holds_ofEndpoints
  have hpaths : (ofEndpoints entries).1.modulePaths + allDropped (ofEndpoints entries).2 =
      (entries.map fun entry => entry.1.modulePath : List String) :=
    (modulePaths_insertAll (Namespace.wellFormed_new "") entries).trans (add_zero _)
  refine ⟨⟨fun names function => Namespace.mem_placed_iff hholds.wellFormed,
    Namespace.nodup_placed hholds.wellFormed⟩, ?_, hpaths.symm⟩
  have hcount := congrArg Multiset.card hpaths.symm
  rw [Multiset.card_add, Namespace.modulePaths, OperationNode.modulePaths,
    Namespace.placedAt_space, allDropped] at hcount
  simpa using hcount

end OperationTree

end RemoteCall
