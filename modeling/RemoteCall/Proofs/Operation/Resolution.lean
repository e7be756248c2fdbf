import RemoteCall.Proofs.Operation.Places
import RemoteCall.Proofs.Path
import RemoteCall.Session.Basic

/-!
# Functions found by their paths

The path of a function is made of the names that lead to it, with dots between them, and
to look it up a path is split at its dots.  The names of namespaces come from a split and
have no dots, but an endpoint is listed by a name of any kind.  A function whose name has
a dot is listed under a path that does not lead to it, and all others are found.
-/

namespace RemoteCall

namespace TreeEntry

theorem segments_path (entry : TreeEntry) :
    Path.segments entry.function.path = entry.segments ++ Path.segments entry.1.name := by
  rw [function, segments]
  by_cases hspace : entry.1.space = ""
  · rw [if_pos hspace, if_pos hspace, List.nil_append]
    rfl
  · rw [if_neg hspace, if_neg hspace, ← Path.segments_append]
    rfl

/-- An endpoint's path leads to its place just if its name has no dot. -/
theorem segments_path_eq_place_iff (entry : TreeEntry) :
    Path.segments entry.function.path = entry.place ↔ '.' ∉ entry.1.name.toList := by
  rw [segments_path, place, List.append_cancel_left_eq, Path.segments_eq_singleton_iff]

end TreeEntry

namespace Namespace

variable {space : Namespace} {path : String}

theorem resolve_eq_ok_iff {node : OperationNode} :
    resolve space path = .ok node ↔
      (OperationNode.space space).at? (Path.segments path) = some node := by
  rw [resolve, OperationNode.at?]
  cases descend (.space space) (Path.segments path) with
  | error e => simp [Except.toOption]
  | ok found => simp [Except.toOption]

theorem mem_leafPaths_iff (hspace : WellFormed space) :
    path ∈ leafPaths space ↔
      ∃ names function, (OperationNode.space space).at? names = some (.function function) ∧
        function.path = path := by
  rw [(leafPaths_perm space).mem_iff, List.mem_map]
  constructor
  · rintro ⟨⟨names, function⟩, hplaced, hpath⟩
    exact ⟨names, function, (mem_placed_iff hspace).mp hplaced, hpath⟩
  · rintro ⟨names, function, hat, hpath⟩
    exact ⟨(names, function), (mem_placed_iff hspace).mpr hat, hpath⟩

/-- Every listed path is listed once and leads to a function of that path, and no other
path leads to a function. -/
structure LeadsToAll (tree : OperationTree) : Prop where
  once : (leafPaths tree).Nodup
  leads : ∀ path ∈ leafPaths tree,
    ∃ function, resolve tree path = .ok (.function function) ∧ function.path = path
  listed : ∀ path function, resolve tree path = .ok (.function function) → path ∈ leafPaths tree

end Namespace

namespace OperationTree

open Namespace (resolve leafPaths placed LeadsToAll)

variable {tree : OperationTree} {entries : List TreeEntry} {names : List String}
  {function : RemoteFunction}

/-- What a path leads to is listed, under that path. -/
theorem Holds.path_of_resolve (hholds : Holds tree entries) {path : String}
    (hresolve : resolve tree path = .ok (.function function)) :
    function.path = path ∧ path ∈ leafPaths tree := by
  have hat := Namespace.resolve_eq_ok_iff.mp hresolve
  obtain ⟨entry, -, rfl, hplace⟩ := hholds.exists_entry_at hat
  have hmem : entry.1.name ∈ Path.segments path := by
    rw [← hplace]
    exact List.mem_append_right _ List.mem_cons_self
  have hname : '.' ∉ entry.1.name.toList := Path.not_mem_of_mem_segments hmem
  have hpath : entry.function.path = path := by
    apply Path.segments_injective
    rw [(entry.segments_path_eq_place_iff).mpr hname, hplace]
  exact ⟨hpath, (Namespace.mem_leafPaths_iff hholds.wellFormed).mpr ⟨_, _, hat, hpath⟩⟩

/-- The path of a function leads to its place just if its name has no dot. -/
theorem Holds.segments_path_eq_iff (hholds : Holds tree entries)
    (hat : (OperationNode.space tree).at? names = some (.function function)) :
    Path.segments function.path = names ↔ '.' ∉ function.endpoint.name.toList := by
  obtain ⟨entry, -, rfl, hplace⟩ := hholds.exists_entry_at hat
  rw [← hplace]
  exact entry.segments_path_eq_place_iff

/-- A function is found by its path just if its name has no dot. -/
theorem Holds.resolve_path_iff (hholds : Holds tree entries)
    (hat : (OperationNode.space tree).at? names = some (.function function)) :
    resolve tree function.path = .ok (.function function) ↔
      '.' ∉ function.endpoint.name.toList := by
  rw [Namespace.resolve_eq_ok_iff]
  constructor
  · intro hfound
    exact (hholds.segments_path_eq_iff hfound).mp rfl
  · intro hname
    rw [(hholds.segments_path_eq_iff hat).mpr hname]
    exact hat

theorem Holds.leads_iff (hholds : Holds tree entries) :
    LeadsToAll tree ↔ ∀ names function,
      (OperationNode.space tree).at? names = some (.function function) →
        '.' ∉ function.endpoint.name.toList := by
  have hperm := Namespace.leafPaths_perm tree
  constructor
  · rintro ⟨honce, hleads, -⟩ names function hat
    -- Whatever the path leads to has that path too, and no two functions have one path.
    obtain ⟨found, hresolve, hpath⟩ := hleads function.path
      ((Namespace.mem_leafPaths_iff hholds.wellFormed).mpr ⟨names, function, hat, rfl⟩)
    have hat' := Namespace.resolve_eq_ok_iff.mp hresolve
    have hsame : (names, function) = (Path.segments function.path, found) :=
      List.inj_on_of_nodup_map (hperm.nodup_iff.mp honce)
        ((Namespace.mem_placed_iff hholds.wellFormed).mpr hat)
        ((Namespace.mem_placed_iff hholds.wellFormed).mpr hat') hpath.symm
    exact (hholds.segments_path_eq_iff hat).mp (congrArg Prod.fst hsame).symm
  · intro hnames
    refine ⟨?_, ?_, fun path function hresolve => (hholds.path_of_resolve hresolve).2⟩
    · -- The segments of the paths are the names that lead to the functions.
      have hsegments : (tree.placed.map fun placed => placed.2.path).map Path.segments =
          tree.placed.map Prod.fst := by
        rw [List.map_map]
        apply List.map_congr_left
        rintro ⟨names, function⟩ hplaced
        have hat := (Namespace.mem_placed_iff hholds.wellFormed).mp hplaced
        exact (hholds.segments_path_eq_iff hat).mpr (hnames names function hat)
      apply hperm.nodup_iff.mpr
      apply List.Nodup.of_map Path.segments
      rw [hsegments]
      exact Namespace.nodup_placed hholds.wellFormed
    · intro path hpath
      obtain ⟨names, function, hat, rfl⟩ :=
        (Namespace.mem_leafPaths_iff hholds.wellFormed).mp hpath
      exact ⟨function, (hholds.resolve_path_iff hat).mpr (hnames names function hat), rfl⟩

end OperationTree

/-! ## Trees of catalogs -/

namespace Catalog

open Namespace (resolve leafPaths LeadsToAll)

theorem holds_treeOf (catalog : Catalog) (branch : Branch) :
    ∃ entries, OperationTree.Holds (branch.treeOf catalog).1 entries := by
  cases branch with
  | services => exact ⟨_, OperationTree.holds_ofEndpoints⟩
  | libs => exact ⟨_, OperationTree.holds_ofEndpoints⟩

/-- In both trees of a catalog, a path that leads to a function is that function's and is
listed; a function is found by its own path just if its name has no dot; and the listed
paths lead to all functions just if no function's name has one. -/
theorem leadsToAll_iff (catalog : Catalog) (branch : Branch) :
    (∀ path function,
      resolve (branch.treeOf catalog).1 path = .ok (.function function) →
        function.path = path ∧ path ∈ leafPaths (branch.treeOf catalog).1) ∧
    (∀ names function,
      (OperationNode.space (branch.treeOf catalog).1).at? names = some (.function function) →
        (resolve (branch.treeOf catalog).1 function.path = .ok (.function function) ↔
          '.' ∉ function.endpoint.name.toList)) ∧
    (LeadsToAll (branch.treeOf catalog).1 ↔ ∀ names function,
      (OperationNode.space (branch.treeOf catalog).1).at? names = some (.function function) →
        '.' ∉ function.endpoint.name.toList) := by
  obtain ⟨entries, hholds⟩ := holds_treeOf catalog branch
  exact ⟨fun path function => hholds.path_of_resolve,
    fun names function => hholds.resolve_path_iff, hholds.leads_iff⟩

/-- User code with a dot in its name. -/
def fitAll : UserCode := ⟨⟨List.replicate 16 7, List.length_replicate⟩, "fit.all", ⟨[], none⟩⟩

/-- The catalog of a caller who may use that code and nothing else. -/
def fitAllCatalog : Catalog where
  service := default
  serviceName := "workshop"
  protocol := .dev
  role := .guest
  endpoints := SortedMap.empty.insert (userCodeKey fitAll)
    ((userCodeDraft fitAll).2.2 fitAll.signature default)
  libEndpoints := .empty

/-- The code is listed under a path that leads nowhere. -/
theorem not_leadsToAll_fitAll :
    fitAllCatalog.check = .ok () ∧
      leafPaths (OperationTree.ofServices fitAllCatalog).1 = ["code.fit.all"] ∧
      resolve (OperationTree.ofServices fitAllCatalog).1 "code.fit.all" =
        .error (.unknownMember "code" "fit") ∧
      ¬ LeadsToAll (OperationTree.ofServices fitAllCatalog).1 := by
  have hpaths : leafPaths (OperationTree.ofServices fitAllCatalog).1 = ["code.fit.all"] := by
    decide +kernel
  have hresolve : resolve (OperationTree.ofServices fitAllCatalog).1 "code.fit.all" =
      .error (.unknownMember "code" "fit") := rfl
  refine ⟨by decide +kernel, hpaths, hresolve, fun hleads => ?_⟩
  obtain ⟨function, hfound, -⟩ := hleads.leads "code.fit.all" (hpaths ▸ List.mem_cons_self)
  rw [hresolve] at hfound
  cases hfound

end Catalog

end RemoteCall
