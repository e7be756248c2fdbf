import Mathlib.Data.List.Nodup
import Mathlib.Data.Prod.Lex
import Mathlib.Data.String.Basic
import RemoteCall.Operation.Tree
import RemoteCall.Proofs.Catalog.Build

/-!
# What stands where in a tree

A tree is built by putting one endpoint after the other into it, and each may
replace what an earlier one left or be left out itself.  What comes of it is told
without any order: a namespace stands wherever the namespace of an endpoint leads
through, and elsewhere the function that comes first in precedence among those with
that place.  So the order in which endpoints come does not matter, as long as
precedence tells them apart.
-/

namespace RemoteCall

/-! ## Entries -/

/-- What is put into a tree: an endpoint, and how calls of it travel. -/
abbrev TreeEntry := Endpoint × FunctionKind

/-- What functions that claim one place are ordered by. -/
def RemoteFunction.precedence (function : RemoteFunction) : Bool ×ₗ String :=
  toLex (function.userCodeId?.isSome, function.endpoint.modulePath)

theorem Namespace.keeps_iff {old new : RemoteFunction} :
    Namespace.keeps old new ↔ old.precedence ≤ new.precedence := by
  rw [RemoteFunction.precedence, RemoteFunction.precedence, Prod.Lex.toLex_le_toLex,
    Namespace.keeps]
  cases old.userCodeId?.isSome <;> cases new.userCodeId?.isSome <;>
    simp [compare_le_iff_le]

namespace TreeEntry

/-- The segments of the namespace that the endpoint is listed in. -/
def segments (entry : TreeEntry) : List String :=
  if entry.1.space = "" then [] else Path.segments entry.1.space

/-- The names that lead to the endpoint. -/
def place (entry : TreeEntry) : List String := entry.segments ++ [entry.1.name]

/-- The function that the endpoint is called as. -/
def function (entry : TreeEntry) : RemoteFunction :=
  let space := entry.1.space
  .ofEndpoint (if space = "" then entry.1.name else space ++ "." ++ entry.1.name) entry.1 entry.2

/-- What tells entries apart. -/
def rank (entry : TreeEntry) : String × String × Bool :=
  (entry.1.modulePath, entry.1.name, entry.function.userCodeId?.isSome)

/-- No two entries agree on module path, name, and whether they are user code. -/
def Distinct (entries : List TreeEntry) : Prop := (entries.map rank).Nodup

instance (entries : List TreeEntry) : Decidable (Distinct entries) :=
  inferInstanceAs (Decidable (entries.map rank).Nodup)

/-- Precedence tells entries apart that claim one place. -/
theorem eq_of_place_eq {entries : List TreeEntry} (hdistinct : Distinct entries)
    {entry other : TreeEntry} (hentry : entry ∈ entries) (hother : other ∈ entries)
    (hplace : entry.place = other.place)
    (hprecedence : entry.function.precedence = other.function.precedence) : entry = other := by
  have hname : entry.1.name = other.1.name := (List.append_inj' hplace rfl).2 |> List.cons.inj |>.1
  obtain ⟨hcode, hpath⟩ := Prod.ext_iff.mp (toLex.injective hprecedence)
  refine List.inj_on_of_nodup_map hdistinct hentry hother ?_
  exact Prod.ext hpath (Prod.ext hname hcode)

end TreeEntry

/-- What stands at the end of some names in the tree of some entries: a namespace where
one of them leads through, or else the function with the least precedence among those
with that place. -/
inductive Stands (entries : List TreeEntry) (names : List String) :
    Option OperationNode → Prop where
  | space {space : Namespace} {entry : TreeEntry} (hmem : entry ∈ entries)
      (hbegins : names <+: entry.segments) : Stands entries names (some (.space space))
  | function {entry : TreeEntry} (hspace : ∀ other ∈ entries, ¬ names <+: other.segments)
      (hmem : entry ∈ entries) (hplace : entry.place = names)
      (hleast : ∀ other ∈ entries, other.place = names →
        entry.function.precedence ≤ other.function.precedence) :
      Stands entries names (some (.function entry.function))
  | nothing (hspace : ∀ other ∈ entries, ¬ names <+: other.segments)
      (hfree : ∀ other ∈ entries, other.place ≠ names) : Stands entries names none

/-! ## Looking along names -/

/-- What stands at the end of some names from a node, if something does. -/
def OperationNode.at? (node : OperationNode) (names : List String) : Option OperationNode :=
  (Namespace.descend node names).toOption

namespace Namespace

variable {space : Namespace} {name segment : String} {new : RemoteFunction}
  {names segments : List String}

@[simp]
theorem at?_nil {node : OperationNode} : node.at? [] = some node := by
  rw [OperationNode.at?, descend]
  rfl

@[simp]
theorem at?_function_cons {function : RemoteFunction} :
    (OperationNode.function function).at? (name :: names) = none := rfl

theorem at?_space_cons (space : Namespace) (name : String) (names : List String) :
    (OperationNode.space space).at? (name :: names) =
      (space.find? name).bind fun node => node.at? names := by
  rw [OperationNode.at?, descend, get]
  cases space.find? name <;> rfl

theorem find?_withChild {node : OperationNode} :
    (space.withChild segment node).find? name =
      if name = segment then some node else space.find? name :=
  Entries.find?_insert_eq_ite

theorem at?_withChild {node : OperationNode} :
    (OperationNode.space (space.withChild segment node)).at? (name :: names) =
      if name = segment then node.at? names
      else (OperationNode.space space).at? (name :: names) := by
  rw [at?_space_cons, at?_space_cons, find?_withChild]
  split <;> rfl

/-! ## One endpoint more -/

/-- The namespace that insertion goes on in, which takes the place of a function. -/
def goOn (space : Namespace) (segment : String) : Namespace :=
  match space.find? segment with
  | some (.space child) => child
  | _ => .new (space.childPath segment)

theorem insert_cons :
    (insert name new (segment :: segments) space).1 =
      space.withChild segment (.space (insert name new segments (space.goOn segment)).1) := by
  rw [insert, goOn]
  rcases space.find? segment with _ | _ | _ <;> rfl

/-- Nothing stood below where a function did, and nothing does in a new namespace. -/
theorem at?_goOn (hnames : names ≠ []) :
    (OperationNode.space (space.goOn segment)).at? names =
      (OperationNode.space space).at? (segment :: names) := by
  obtain ⟨name, rest, rfl⟩ := List.exists_cons_of_ne_nil hnames
  rw [at?_space_cons space segment, goOn]
  rcases space.find? segment with _ | _ | _ <;> rfl

/-- What stands in the place of a new function, given what stood there. -/
def settle (new : RemoteFunction) : Option OperationNode → OperationNode
  | none => .function new
  | some (.space child) => .space child
  | some (.function old) => if keeps old new then .function old else .function new

/-- A new function takes its place, or what is settled there stands there already. -/
theorem insertLeaf_eq (space : Namespace) (name : String) (new : RemoteFunction) :
    (space.insertLeaf name new).1 = space.withChild name (.function new) ∧
        settle new (space.find? name) = .function new ∨
      (space.insertLeaf name new).1 = space ∧
        space.find? name = some (settle new (space.find? name)) := by
  rw [insertLeaf]
  rcases space.find? name with _ | child | old
  · exact .inl ⟨rfl, rfl⟩
  · exact .inr ⟨rfl, rfl⟩
  · simp only [settle]
    split
    · exact .inr ⟨rfl, rfl⟩
    · exact .inl ⟨rfl, rfl⟩

theorem find?_insertLeaf :
    (space.insertLeaf segment new).1.find? name =
      if name = segment then some (settle new (space.find? segment)) else space.find? name := by
  rcases insertLeaf_eq space segment new with
    ⟨heq, hsettled⟩ | ⟨heq, hfound⟩
  · rw [heq, find?_withChild, hsettled]
  · rw [heq]
    split
    · rename_i hname
      rw [hname, ← hfound]
    · rfl

/-- Namespaces stand all along the way to a new function. -/
theorem at?_insert_of_prefix (hnames : names ≠ []) (hbegins : names <+: segments) :
    ∃ child, (OperationNode.space (insert name new segments space).1).at? names =
      some (.space child) := by
  induction segments generalizing space names with
  | nil => exact absurd (List.prefix_nil.mp hbegins) hnames
  | cons segment segments ih =>
      obtain ⟨head, rest, rfl⟩ := List.exists_cons_of_ne_nil hnames
      obtain ⟨rfl, hrest⟩ := List.cons_prefix_cons.mp hbegins
      rw [insert_cons, at?_withChild, if_pos rfl]
      by_cases hnil : rest = []
      · exact ⟨_, by rw [hnil, at?_nil]⟩
      · exact ih hnil hrest

/-- In its own place a new function is settled with what stood there. -/
theorem at?_insert_place :
    (OperationNode.space (insert name new segments space).1).at? (segments ++ [name]) =
      some (settle new ((OperationNode.space space).at? (segments ++ [name]))) := by
  induction segments generalizing space with
  | nil =>
      simp only [insert, List.nil_append, at?_space_cons, find?_insertLeaf, if_true, at?_nil,
        Option.bind_fun_some]
  | cons segment segments ih =>
      have hnames : segments ++ [name] ≠ [] := List.append_ne_nil_of_right_ne_nil _ (nofun)
      rw [List.cons_append, insert_cons, at?_withChild, if_pos rfl, ih, at?_goOn hnames]

/-- Off its way a new function changes nothing. -/
theorem at?_insert_of_ne (hnames : names ≠ []) (hbegins : ¬ names <+: segments)
    (hplace : names ≠ segments ++ [name]) :
    (OperationNode.space (insert name new segments space).1).at? names =
      (OperationNode.space space).at? names := by
  induction segments generalizing space names with
  | nil =>
      obtain ⟨head, rest, rfl⟩ := List.exists_cons_of_ne_nil hnames
      rw [insert, at?_space_cons, at?_space_cons, find?_insertLeaf]
      split
      · rename_i hhead
        subst head
        -- Below the place there is only what a namespace in it holds.
        have hrest : rest ≠ [] := fun hnil => hplace (by rw [hnil]; rfl)
        obtain ⟨next, rest, rfl⟩ := List.exists_cons_of_ne_nil hrest
        rcases space.find? name with _ | child | old
        · rfl
        · rfl
        · rw [settle]
          split <;> rfl
      · rfl
  | cons segment segments ih =>
      obtain ⟨head, rest, rfl⟩ := List.exists_cons_of_ne_nil hnames
      rw [insert_cons, at?_withChild]
      split
      · rename_i hhead
        subst head
        have hrest : rest ≠ [] := fun hnil =>
          hbegins (List.cons_prefix_cons.mpr ⟨rfl, hnil ▸ List.nil_prefix⟩)
        rw [ih hrest (fun h => hbegins (List.cons_prefix_cons.mpr ⟨rfl, h⟩))
          (fun h => hplace (by rw [h]; rfl)), at?_goOn hrest]
      · rfl

/-! ## Well-formed trees -/

/-- Children stand in the order of their names, and namespaces have the paths that lead
to them. -/
inductive WellFormed : Namespace → Prop where
  | intro {space : Namespace} (hascending : Entries.Ascending space.children)
      (hpaths : ∀ name child, space.find? name = some (.space child) →
        child.path = space.childPath name)
      (hspaces : ∀ name child, space.find? name = some (.space child) → WellFormed child) :
      WellFormed space

theorem wellFormed_new (path : String) : WellFormed (.new path) :=
  .intro Entries.ascending_nil nofun nofun

theorem path_insert : (insert name new segments space).1.path = space.path := by
  cases segments with
  | nil =>
      rw [insert]
      rcases insertLeaf_eq space name new with ⟨heq, -⟩ | ⟨heq, -⟩
      · rw [heq]
        rfl
      · rw [heq]
  | cons segment segments =>
      rw [insert_cons]
      rfl

theorem wellFormed_withChild {node : OperationNode} (hspace : WellFormed space)
    (hnode : ∀ child, node = .space child →
      child.path = space.childPath segment ∧ WellFormed child) :
    WellFormed (space.withChild segment node) := by
  obtain ⟨hascending, hpaths, hspaces⟩ := hspace
  have hchildren : ∀ name child,
      (space.withChild segment node).find? name = some (.space child) →
        child.path = space.childPath name ∧ WellFormed child := by
    intro name child hfound
    rw [find?_withChild] at hfound
    split at hfound
    · rename_i hname
      exact hname ▸ hnode child (Option.some.inj hfound)
    · exact ⟨hpaths name child hfound, hspaces name child hfound⟩
  exact .intro (Entries.ascending_insert hascending)
    (fun name child hfound => (hchildren name child hfound).1)
    (fun name child hfound => (hchildren name child hfound).2)

theorem path_goOn (segment : String) (hspace : WellFormed space) :
    (space.goOn segment).path = space.childPath segment ∧ WellFormed (space.goOn segment) := by
  obtain ⟨-, hpaths, hspaces⟩ := hspace
  rw [goOn]
  split
  · rename_i child hfound
    exact ⟨hpaths segment child hfound, hspaces segment child hfound⟩
  · exact ⟨rfl, wellFormed_new _⟩

theorem wellFormed_insert (hspace : WellFormed space) :
    WellFormed (insert name new segments space).1 := by
  induction segments generalizing space with
  | nil =>
      rw [insert]
      rcases insertLeaf_eq space name new with ⟨heq, -⟩ | ⟨heq, -⟩
      · rw [heq]
        exact wellFormed_withChild hspace fun child hchild => nomatch hchild
      · rwa [heq]
  | cons segment segments ih =>
      obtain ⟨hpath, hgoOn⟩ := path_goOn segment hspace
      rw [insert_cons]
      refine wellFormed_withChild hspace fun child hchild => ?_
      cases hchild
      exact ⟨path_insert.trans hpath, ih hgoOn⟩

/-- Well-formed trees are equal if the same stands at the end of all names. -/
theorem eq_of_at?_eq {other : Namespace} (hspace : WellFormed space) (hother : WellFormed other)
    (hpath : space.path = other.path)
    (hat : ∀ names ≠ [], ((OperationNode.space space).at? names).map OperationNode.asFunction? =
      ((OperationNode.space other).at? names).map OperationNode.asFunction?) :
    space = other := by
  induction hspace generalizing other with
  | intro hascending hpaths _ ih =>
      rename_i space _
      obtain ⟨hascending', hpaths', hspaces'⟩ := hother
      have hchildren : ∀ name, space.find? name = other.find? name := by
        intro name
        have hname := hat [name] (List.cons_ne_nil _ _)
        simp only [at?_space_cons, at?_nil, Option.bind_fun_some] at hname
        rcases hfound : space.find? name with _ | child | function <;>
          rcases hfound' : other.find? name with _ | child' | function' <;>
          simp only [hfound, hfound', Option.map_none, Option.map_some,
            OperationNode.asFunction?, reduceCtorEq, Option.some.injEq] at hname
        · rfl
        · -- Two namespaces of one name are equal by induction.
          have hpath : child.path = child'.path := by
            rw [hpaths name child hfound, hpaths' name child' hfound', childPath, childPath, hpath]
          rw [ih name child hfound (hspaces' name child' hfound') hpath fun names hnames => ?_]
          have hbelow := hat (name :: names) (List.cons_ne_nil _ _)
          simpa only [at?_space_cons _ name, hfound, hfound', Option.bind_some] using hbelow
        · rw [hname]
      have heq : space.children = other.children :=
        Entries.eq_of_find?_eq hascending hascending' hchildren
      cases space
      cases other
      simp_all

end Namespace

/-! ## What the entries say of a place -/

namespace Stands

variable {entries : List TreeEntry} {entry : TreeEntry} {names : List String}
  {node : Option OperationNode}

/-- An entry in this place is settled with what the others left there. -/
theorem settle (hstands : Stands entries names node) (hbegins : ¬ names <+: entry.segments)
    (hplace : entry.place = names) :
    Stands (entries ++ [entry]) names (some (Namespace.settle entry.function node)) := by
  cases hstands with
  | space hmem hbegins => exact .space (List.mem_append_left _ hmem) hbegins
  | function hspace hmem hplace' hleast =>
      rename_i old
      have hspaces : ∀ other ∈ entries ++ [entry], ¬ names <+: other.segments :=
        List.forall_mem_append.mpr ⟨hspace, List.forall_mem_singleton.mpr hbegins⟩
      rw [Namespace.settle]
      split
      · rename_i hkeeps
        refine .function hspaces (List.mem_append_left _ hmem) hplace' ?_
        exact List.forall_mem_append.mpr ⟨hleast,
          List.forall_mem_singleton.mpr fun _ => Namespace.keeps_iff.mp hkeeps⟩
      · rename_i hkeeps
        have hlt : entry.function.precedence < old.function.precedence :=
          not_le.mp fun hle => hkeeps (Namespace.keeps_iff.mpr hle)
        refine .function hspaces (List.mem_append_right _ List.mem_cons_self) hplace ?_
        exact List.forall_mem_append.mpr
          ⟨fun other hother hothers => hlt.le.trans (hleast other hother hothers),
            List.forall_mem_singleton.mpr fun _ => le_rfl⟩
  | nothing hspace hfree =>
      refine .function
        (List.forall_mem_append.mpr ⟨hspace, List.forall_mem_singleton.mpr hbegins⟩)
        (List.mem_append_right _ List.mem_cons_self) hplace ?_
      exact List.forall_mem_append.mpr
        ⟨fun other hother hothers => absurd hothers (hfree other hother),
          List.forall_mem_singleton.mpr fun _ => le_rfl⟩

/-- An entry elsewhere changes nothing. -/
theorem of_ne (hstands : Stands entries names node) (hbegins : ¬ names <+: entry.segments)
    (hplace : entry.place ≠ names) : Stands (entries ++ [entry]) names node := by
  cases hstands with
  | space hmem hbegins => exact .space (List.mem_append_left _ hmem) hbegins
  | function hspace hmem hplace' hleast =>
      refine .function
        (List.forall_mem_append.mpr ⟨hspace, List.forall_mem_singleton.mpr hbegins⟩)
        (List.mem_append_left _ hmem) hplace' ?_
      exact List.forall_mem_append.mpr
        ⟨hleast, List.forall_mem_singleton.mpr fun heq => absurd heq hplace⟩
  | nothing hspace hfree =>
      exact .nothing
        (List.forall_mem_append.mpr ⟨hspace, List.forall_mem_singleton.mpr hbegins⟩)
        (List.forall_mem_append.mpr ⟨hfree, List.forall_mem_singleton.mpr hplace⟩)

/-- Entries that differ in order only say the same of a place. -/
theorem occupant_eq {entries' : List TreeEntry} {node' : Option OperationNode}
    (hdistinct : TreeEntry.Distinct entries) (hperm : entries'.Perm entries)
    (hstands : Stands entries names node) (hstands' : Stands entries' names node') :
    node.map OperationNode.asFunction? = node'.map OperationNode.asFunction? := by
  cases hstands with
  | space hmem hbegins =>
      cases hstands' with
      | space => rfl
      | function hspace => exact absurd hbegins (hspace _ (hperm.mem_iff.mpr hmem))
      | nothing hspace => exact absurd hbegins (hspace _ (hperm.mem_iff.mpr hmem))
  | function hspace hmem hplace hleast =>
      cases hstands' with
      | space hmem' hbegins => exact absurd hbegins (hspace _ (hperm.mem_iff.mp hmem'))
      | function hspace' hmem' hplace' hleast' =>
          rename_i entry entry'
          have hle := hleast entry' (hperm.mem_iff.mp hmem') hplace'
          have hge := hleast' entry (hperm.mem_iff.mpr hmem) hplace
          rw [TreeEntry.eq_of_place_eq hdistinct hmem (hperm.mem_iff.mp hmem')
            (hplace.trans hplace'.symm) (le_antisymm hle hge)]
      | nothing _ hfree => exact absurd hplace (hfree _ (hperm.mem_iff.mpr hmem))
  | nothing hspace hfree =>
      cases hstands' with
      | space hmem' hbegins => exact absurd hbegins (hspace _ (hperm.mem_iff.mp hmem'))
      | function _ hmem' hplace' => exact absurd hplace' (hfree _ (hperm.mem_iff.mp hmem'))
      | nothing => rfl

end Stands

/-! ## The whole tree -/

namespace OperationTree

variable {tree : OperationTree} {entries done : List TreeEntry}

/-- The tree is well-formed, and in it stands what the entries say. -/
structure Holds (tree : OperationTree) (entries : List TreeEntry) : Prop where
  root : tree.path = ""
  wellFormed : tree.WellFormed
  stands : ∀ names ≠ [], Stands entries names ((OperationNode.space tree).at? names)

/-- An entry is put under its own name in the namespace at its segments. -/
theorem insert_eq (tree : OperationTree) (entry : TreeEntry) :
    tree.insert entry.1 entry.2 =
      Namespace.insert entry.1.name entry.function entry.segments tree :=
  rfl

theorem holds_empty : Holds empty [] where
  root := rfl
  wellFormed := Namespace.wellFormed_new ""
  stands names hnames := by
    obtain ⟨name, rest, rfl⟩ := List.exists_cons_of_ne_nil hnames
    exact .nothing nofun nofun

theorem Holds.insert (hholds : Holds tree done) (entry : TreeEntry) :
    Holds (tree.insert entry.1 entry.2).1 (done ++ [entry]) where
  root := Namespace.path_insert.trans hholds.root
  wellFormed := Namespace.wellFormed_insert hholds.wellFormed
  stands names hnames := by
    rw [insert_eq]
    by_cases hbegins : names <+: entry.segments
    · obtain ⟨child, hchild⟩ := Namespace.at?_insert_of_prefix hnames hbegins
      rw [hchild]
      exact .space (List.mem_append_right _ List.mem_cons_self) hbegins
    · by_cases hplace : entry.place = names
      · subst names
        rw [TreeEntry.place, Namespace.at?_insert_place]
        exact (hholds.stands _ hnames).settle hbegins rfl
      · rw [Namespace.at?_insert_of_ne hnames hbegins fun heq => hplace heq.symm]
        exact (hholds.stands _ hnames).of_ne hbegins hplace

theorem Holds.insertAll (hholds : Holds tree done) :
    Holds (tree.insertAll entries).1 (done ++ entries) := by
  induction entries generalizing tree done with
  | nil =>
      rw [List.append_nil]
      exact hholds
  | cons entry rest ih =>
      rw [List.append_cons]
      exact ih (hholds.insert entry)

theorem holds_ofEndpoints : Holds (ofEndpoints entries).1 entries :=
  holds_empty.insertAll

/-- Every function in the tree is that of an entry with that place. -/
theorem Holds.exists_entry_at (hholds : Holds tree entries) {names : List String}
    {function : RemoteFunction}
    (hat : (OperationNode.space tree).at? names = some (.function function)) :
    ∃ entry ∈ entries, function = entry.function ∧ entry.place = names := by
  by_cases hnames : names = []
  · rw [hnames, Namespace.at?_nil] at hat
    cases hat
  · have hstands := hholds.stands names hnames
    rw [hat] at hstands
    cases hstands with
    | function _ hmem hplace _ => exact ⟨_, hmem, rfl, hplace⟩

/-- Every function in the tree is that of an entry. -/
theorem Holds.exists_entry (hholds : Holds tree entries) {names : List String}
    {function : RemoteFunction}
    (hat : (OperationNode.space tree).at? names = some (.function function)) :
    ∃ entry ∈ entries, function = entry.function := by
  obtain ⟨entry, hmem, hfunction, -⟩ := hholds.exists_entry_at hat
  exact ⟨entry, hmem, hfunction⟩

/-- The order of entries that are told apart does not matter. -/
theorem ofEndpoints_eq_of_perm {entries' : List TreeEntry}
    (hdistinct : TreeEntry.Distinct entries) (hperm : entries'.Perm entries) :
    (ofEndpoints entries').1 = (ofEndpoints entries).1 := by
  have hholds : Holds (ofEndpoints entries).1 entries := holds_ofEndpoints
  have hholds' : Holds (ofEndpoints entries').1 entries' := holds_ofEndpoints
  refine (Namespace.eq_of_at?_eq hholds.wellFormed hholds'.wellFormed
    (hholds.root.trans hholds'.root.symm) fun names hnames => ?_).symm
  exact (hholds.stands names hnames).occupant_eq hdistinct hperm (hholds'.stands names hnames)

end OperationTree

/-! ## Trees of catalogs -/

namespace Catalog

/-- Endpoints are told apart as entries where the key can be told from the rank. -/
theorem distinct_of_key_eq {endpoints : SortedMap String Endpoint} {kind : FunctionKind}
    (key : String × String × Bool → String)
    (hkey : ∀ entry ∈ endpoints.entries, entry.1 = key (TreeEntry.rank (entry.2, kind))) :
    TreeEntry.Distinct (endpoints.values.map fun endpoint => (endpoint, kind)) := by
  rw [TreeEntry.Distinct, SortedMap.values, List.map_map, List.map_map, List.Nodup,
    List.pairwise_map]
  refine endpoints.ascending.imp_of_mem fun {left right} hleft hright hlt heq => ?_
  have hsame : left.1 = right.1 := by
    rw [hkey left hleft, hkey right hright]
    exact congrArg key heq
  have hself : compare right.1 right.1 = .eq := Std.ReflCmp.compare_self
  rw [hsame, hself] at hlt
  cases hlt

theorem rank_service (endpoint : Endpoint) :
    TreeEntry.rank (endpoint, .service) =
      (endpoint.modulePath, endpoint.name, endpoint.userCodeId?.isSome) := by
  cases hcode : endpoint.userCodeId? <;>
    simp [TreeEntry.rank, TreeEntry.function, RemoteFunction.userCodeId?,
      RemoteFunction.ofEndpoint, hcode]

/-- The endpoints of a built catalog are told apart in its trees. -/
theorem distinct_of_build {authority : Authority} {service : ServiceInfo} {caller : VerifyKey}
    {negotiated : ProtocolVersion} {engine : MigrationEngine} {ids : Nat → Uid}
    {catalog : Catalog}
    (hbuild : build authority service caller negotiated engine ids = .ok catalog) :
    TreeEntry.Distinct (catalog.endpoints.values.map fun endpoint => (endpoint, .service)) ∧
      TreeEntry.Distinct (catalog.libEndpoints.values.map fun endpoint => (endpoint, .lib)) := by
  obtain ⟨hservices, hlibs⟩ := lists_of_build hbuild
  constructor
  · refine distinct_of_key_eq
      (fun rank => if rank.2.2 then Endpoint.userCodePath ++ "_" ++ rank.2.1 else rank.1)
      fun entry hmem => ?_
    rw [rank_service]
    exact (hservices entry hmem).key_eq
  · exact distinct_of_key_eq Prod.fst fun entry hmem => (hlibs entry hmem).symm

end Catalog

namespace OperationTree

/-- In the tree of entries that are told apart a namespace stands wherever the namespace
of an entry leads through, and else the function that is least by being user code and by
module path among those with that place; the order of the entries does not matter.  The
endpoints of a built catalog are told apart. -/
theorem stands_ofEndpoints :
    (∀ entries : List TreeEntry, TreeEntry.Distinct entries →
      (∀ names ≠ [], Stands entries names
        ((OperationNode.space (ofEndpoints entries).1).at? names)) ∧
      ∀ entries' : List TreeEntry, entries'.Perm entries →
        (ofEndpoints entries').1 = (ofEndpoints entries).1) ∧
    ∀ (authority : Authority) (service : ServiceInfo) (caller : VerifyKey)
      (negotiated : ProtocolVersion) (engine : MigrationEngine) (ids : Nat → Uid)
      (catalog : Catalog),
      Catalog.build authority service caller negotiated engine ids = .ok catalog →
        TreeEntry.Distinct (catalog.endpoints.values.map fun endpoint => (endpoint, .service)) ∧
          TreeEntry.Distinct (catalog.libEndpoints.values.map fun endpoint => (endpoint, .lib)) :=
  ⟨fun _ hdistinct => ⟨holds_ofEndpoints.stands, fun _ => ofEndpoints_eq_of_perm hdistinct⟩,
    fun _ _ _ _ _ _ _ => Catalog.distinct_of_build⟩

/-- An operation whose place is a namespace, and one that claims the place of user code. -/
def crowd : List TreeEntry :=
  [(Endpoint.new default "code" ⟨[], none⟩, .service),
    ({ Endpoint.new default Endpoint.userCodePath ⟨[], none⟩ with name := "count" }.withPrebound
      Endpoint.userCodeKeyword (.uid default), .service),
    (Endpoint.new default "code.count" ⟨[], none⟩, .service)]

theorem stands_ofEndpoints_crowd :
    TreeEntry.Distinct crowd ∧
      Stands crowd ["code", "count"]
        ((OperationNode.space (ofEndpoints crowd).1).at? ["code", "count"]) ∧
      (ofEndpoints crowd.reverse).1 = (ofEndpoints crowd).1 := by
  have hdistinct : TreeEntry.Distinct crowd := by decide
  obtain ⟨hstands, horder⟩ := stands_ofEndpoints.1 crowd hdistinct
  exact ⟨hdistinct, hstands _ (List.cons_ne_nil _ _), horder _ crowd.reverse_perm⟩

end OperationTree

end RemoteCall
