import RemoteCall.Proofs.Operation.Tree

/-!
# What user code leaves of the service

User code stands back wherever an operation of the service has the same name, but the
namespace it is listed in wins over operations as any namespace does.  To tell what this
comes to, the tree of a catalog is compared with that of the service's own endpoints.
-/

namespace RemoteCall

/-- What stands in a place with user code, given what stands there without: the same
function of the service, a namespace for a namespace, or user code where nothing was. -/
inductive Overlaid : Option OperationNode → Option OperationNode → Prop where
  | free : Overlaid none none
  | lent {function : RemoteFunction} (hcode : function.userCodeId?.isSome) :
      Overlaid none (some (.function function))
  | kept {function : RemoteFunction} (hown : function.userCodeId? = none) :
      Overlaid (some (.function function)) (some (.function function))
  | spaces {child child' : Namespace} : Overlaid (some (.space child)) (some (.space child'))

namespace Overlaid

open Namespace (keeps settle)

variable {own all : Option OperationNode} {new old : RemoteFunction}

theorem keeps_of_own (hold : old.userCodeId? = none) (hnew : new.userCodeId?.isSome) :
    keeps old new := by
  rw [keeps, hold, hnew]
  rfl

theorem not_keeps_of_code (hold : old.userCodeId?.isSome) (hnew : new.userCodeId? = none) :
    ¬ keeps old new := by
  rw [keeps, hold, hnew]
  exact Bool.false_ne_true

/-- A function of the service comes to both places, and user code makes way for it. -/
theorem settle_own (hoverlaid : Overlaid own all) (hnew : new.userCodeId? = none) :
    Overlaid (some (settle new own)) (some (settle new all)) := by
  cases hoverlaid with
  | free => exact .kept hnew
  | lent hcode =>
      rw [settle, settle, if_neg (not_keeps_of_code hcode hnew)]
      exact .kept hnew
  | kept hown =>
      rw [settle]
      split
      · exact .kept hown
      · exact .kept hnew
  | spaces => exact .spaces

/-- User code comes to one place only, and makes way for what stands there. -/
theorem settle_code (hoverlaid : Overlaid own all) (hnew : new.userCodeId?.isSome) :
    Overlaid own (some (settle new all)) := by
  cases hoverlaid with
  | free => exact .lent hnew
  | lent hcode =>
      rw [settle]
      split
      · exact .lent hcode
      · exact .lent hnew
  | kept hown =>
      rw [settle, if_pos (keeps_of_own hown hnew)]
      exact .kept hown
  | spaces => exact .spaces

end Overlaid

namespace TreeEntry

/-- Whether an entry is user code. -/
def isCode (entry : TreeEntry) : Bool := entry.function.userCodeId?.isSome

end TreeEntry

namespace OperationTree

variable {own all : OperationTree} {names : List String}

/-- One more function of the service comes to both trees, in the same place. -/
theorem overlaid_insert_own {entry : TreeEntry} (hnames : names ≠ []) (hown : ¬ entry.isCode)
    (hoverlaid : Overlaid ((OperationNode.space own).at? names)
      ((OperationNode.space all).at? names)) :
    Overlaid ((OperationNode.space (own.insert entry.1 entry.2).1).at? names)
      ((OperationNode.space (all.insert entry.1 entry.2).1).at? names) := by
  rw [insert_eq, insert_eq]
  by_cases hbegins : names <+: entry.segments
  · obtain ⟨child, hchild⟩ := Namespace.at?_insert_of_prefix hnames hbegins
    obtain ⟨child', hchild'⟩ := Namespace.at?_insert_of_prefix hnames hbegins
    rw [hchild, hchild']
    exact .spaces
  · by_cases hplace : entry.place = names
    · subst names
      rw [TreeEntry.place, Namespace.at?_insert_place, Namespace.at?_insert_place]
      exact hoverlaid.settle_own (Option.not_isSome_iff_eq_none.mp hown)
    · rw [Namespace.at?_insert_of_ne hnames hbegins fun heq => hplace heq.symm,
        Namespace.at?_insert_of_ne hnames hbegins fun heq => hplace heq.symm]
      exact hoverlaid

/-- User code comes to one tree only, and its namespace leads elsewhere. -/
theorem overlaid_insert_code {entry : TreeEntry} (hnames : names ≠ []) (hcode : entry.isCode)
    (hbegins : ¬ names <+: entry.segments)
    (hoverlaid : Overlaid ((OperationNode.space own).at? names)
      ((OperationNode.space all).at? names)) :
    Overlaid ((OperationNode.space own).at? names)
      ((OperationNode.space (all.insert entry.1 entry.2).1).at? names) := by
  rw [insert_eq]
  by_cases hplace : entry.place = names
  · subst names
    rw [TreeEntry.place, Namespace.at?_insert_place]
    exact hoverlaid.settle_code hcode
  · rw [Namespace.at?_insert_of_ne hnames hbegins fun heq => hplace heq.symm]
    exact hoverlaid

/-- Without the user code in it, the same entries leave the same in every place that no
namespace of user code leads through. -/
theorem overlaid_insertAll {entries : List TreeEntry} (hnames : names ≠ [])
    (hcode : ∀ entry ∈ entries, entry.isCode → ¬ names <+: entry.segments)
    (hoverlaid : Overlaid ((OperationNode.space own).at? names)
      ((OperationNode.space all).at? names)) :
    Overlaid
      ((OperationNode.space
        (own.insertAll (entries.filter fun entry : TreeEntry => !entry.isCode)).1).at? names)
      ((OperationNode.space (all.insertAll entries).1).at? names) := by
  induction entries generalizing own all with
  | nil => exact hoverlaid
  | cons entry rest ih =>
      obtain ⟨hentry, hrest⟩ := List.forall_mem_cons.mp hcode
      by_cases hkind : entry.isCode
      · rw [List.filter_cons_of_neg (by rw [hkind]; decide)]
        exact ih hrest (overlaid_insert_code hnames hkind (hentry hkind) hoverlaid)
      · rw [List.filter_cons_of_pos (by rw [Bool.eq_false_of_not_eq_true hkind]; rfl)]
        exact ih hrest (overlaid_insert_own hnames hkind hoverlaid)

theorem overlaid_ofEndpoints {entries : List TreeEntry} (hnames : names ≠ [])
    (hcode : ∀ entry ∈ entries, entry.isCode → ¬ names <+: entry.segments) :
    Overlaid
      ((OperationNode.space
        (ofEndpoints (entries.filter fun entry : TreeEntry => !entry.isCode)).1).at? names)
      ((OperationNode.space (ofEndpoints entries).1).at? names) := by
  apply overlaid_insertAll hnames hcode
  obtain ⟨name, rest, rfl⟩ := List.exists_cons_of_ne_nil hnames
  exact .free

end OperationTree

/-! ## Catalogs -/

namespace Catalog

/-- The same catalog without the endpoints that stand for user code. -/
def withoutUserCode (catalog : Catalog) : Catalog :=
  { catalog with
    endpoints := catalog.endpoints.filter fun _ endpoint => endpoint.userCodeId?.isNone
    libEndpoints := catalog.libEndpoints.filter fun _ endpoint => endpoint.userCodeId?.isNone }

/-- The entries of the tree of the service's operations. -/
def serviceEntries (catalog : Catalog) : List TreeEntry :=
  catalog.endpoints.values.map fun endpoint => (endpoint, .service)

theorem isCode_service (endpoint : Endpoint) :
    TreeEntry.isCode (endpoint, .service) = endpoint.userCodeId?.isSome := by
  have hrank := congrArg (fun rank => rank.2.2) (rank_service endpoint)
  exact hrank

theorem serviceEntries_withoutUserCode (catalog : Catalog) :
    catalog.withoutUserCode.serviceEntries =
      catalog.serviceEntries.filter fun entry : TreeEntry => !entry.isCode := by
  rw [serviceEntries, serviceEntries, SortedMap.values, SortedMap.values, List.map_map,
    List.map_map, List.filter_map]
  have hkeep : (fun entry : String × Endpoint => entry.2.userCodeId?.isNone) =
      (fun entry : TreeEntry => !entry.isCode) ∘
        ((fun endpoint => (endpoint, .service)) ∘ Prod.snd) := by
    funext entry
    rw [Function.comp_apply, Function.comp_apply, isCode_service, Option.not_isSome]
  rw [← hkeep]
  rfl

/-- What stands at the end of some names in the tree of the service's operations. -/
def serviceAt? (catalog : Catalog) (names : List String) : Option OperationNode :=
  (OperationNode.space (OperationTree.ofServices catalog).1).at? names

/-- Whether the namespace of user code leads through the place at the end of some names. -/
def CodeLeadsThrough (catalog : Catalog) (names : List String) : Prop :=
  ∃ endpoint ∈ catalog.endpoints.values, endpoint.userCodeId?.isSome ∧
    names <+: TreeEntry.segments (endpoint, .service)

instance (catalog : Catalog) (names : List String) :
    Decidable (catalog.CodeLeadsThrough names) :=
  inferInstanceAs (Decidable (∃ endpoint ∈ catalog.endpoints.values, _))

/-- A namespace stands wherever one of user code leads through. -/
theorem CodeLeadsThrough.space {catalog : Catalog} {names : List String} (hnames : names ≠ [])
    (hleads : catalog.CodeLeadsThrough names) :
    ∃ child, catalog.serviceAt? names = some (.space child) := by
  obtain ⟨endpoint, hmem, -, hbegins⟩ := hleads
  have hentry : (endpoint, .service) ∈ catalog.serviceEntries := List.mem_map_of_mem hmem
  have hstands : Stands catalog.serviceEntries names (catalog.serviceAt? names) :=
    OperationTree.holds_ofEndpoints.stands names hnames
  generalize catalog.serviceAt? names = node at hstands ⊢
  cases hstands with
  | @space child _ _ _ => exact ⟨child, rfl⟩
  | function hspace => exact absurd hbegins (hspace _ hentry)
  | nothing hspace => exact absurd hbegins (hspace _ hentry)

theorem overlaid_serviceAt? {catalog : Catalog} {names : List String} (hnames : names ≠ [])
    (hleads : ¬ catalog.CodeLeadsThrough names) :
    Overlaid (catalog.withoutUserCode.serviceAt? names) (catalog.serviceAt? names) := by
  have hcode : ∀ entry ∈ catalog.serviceEntries, entry.isCode → ¬ names <+: entry.segments := by
    intro entry hentry hkind hbegins
    obtain ⟨endpoint, hmem, rfl⟩ := List.mem_map.mp hentry
    exact hleads ⟨endpoint, hmem, isCode_service endpoint ▸ hkind, hbegins⟩
  have hoverlaid := OperationTree.overlaid_ofEndpoints hnames hcode
  rw [← serviceEntries_withoutUserCode] at hoverlaid
  exact hoverlaid

/-- A function in the tree of the service's own endpoints is in the tree of all endpoints
as well, in the same place, just if no namespace of user code leads through there.  If
one does, it is that namespace that stands there. -/
theorem serviceAt?_withoutUserCode {catalog : Catalog} {names : List String}
    {function : RemoteFunction}
    (hown : catalog.withoutUserCode.serviceAt? names = some (.function function)) :
    (catalog.serviceAt? names = some (.function function) ↔
        ¬ catalog.CodeLeadsThrough names) ∧
      (catalog.CodeLeadsThrough names →
        ∃ child, catalog.serviceAt? names = some (.space child)) := by
  have hnames : names ≠ [] := by
    rintro rfl
    rw [serviceAt?, Namespace.at?_nil] at hown
    cases hown
  refine ⟨⟨?_, ?_⟩, fun hleads => hleads.space hnames⟩
  · intro hall hleads
    obtain ⟨child, hspace⟩ := hleads.space hnames
    rw [hspace] at hall
    cases hall
  · intro hleads
    have hoverlaid := overlaid_serviceAt? hnames hleads
    rw [hown] at hoverlaid
    generalize catalog.serviceAt? names = node at hoverlaid ⊢
    cases hoverlaid
    rfl

/-- A catalog of operations at some paths, and of user code called `train`. -/
def hall (paths : List String) : Catalog where
  service := default
  serviceName := "hall"
  protocol := .dev
  role := .guest
  endpoints := SortedMap.ofList <|
    (userCodeKey train, (userCodeDraft train).2.2 train.signature default) ::
      paths.map fun path => (path, Endpoint.new default path ⟨[], none⟩)
  libEndpoints := .empty
where
  train : UserCode := ⟨default, "train", ⟨[], none⟩⟩

theorem serviceAt?_withoutUserCode_hall :
    ∃ function,
      (hall ["code.train"]).withoutUserCode.serviceAt? ["code", "train"] =
          some (.function function) ∧
        (hall ["code.train"]).serviceAt? ["code", "train"] = some (.function function) := by
  have hown : ∃ function, (hall ["code.train"]).withoutUserCode.serviceAt? ["code", "train"] =
      some (.function function) := ⟨_, rfl⟩
  obtain ⟨function, hown⟩ := hown
  exact ⟨function, hown, (serviceAt?_withoutUserCode hown).1.mpr (by decide)⟩

/-- An operation is hidden if its path is that of the namespace of user code. -/
theorem serviceAt?_hidden_hall :
    (hall ["code"]).check = .ok () ∧
      ∃ function child,
        (hall ["code"]).withoutUserCode.serviceAt? ["code"] = some (.function function) ∧
          (hall ["code"]).serviceAt? ["code"] = some (.space child) :=
  ⟨by decide +kernel, _, _, rfl, rfl⟩

end Catalog

end RemoteCall
