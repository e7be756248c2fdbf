import RemoteCall.Catalog.Roster
import RemoteCall.Proofs.Catalog.Build

/-!
# What a catalog gives away

A catalog for a caller, or the error in its place, is made of the caller's role, of the
operations that the role may see and that are not offered as library functions, of the
library functions and of the caller's own code.  Whatever else an authority holds, about
other callers or for higher roles, leaves no trace in it.
-/

namespace RemoteCall

/-! ## Endpoints without identifiers -/

/-- The endpoint but for its identifier, which is made up for every catalog. -/
def Endpoint.anonymous (endpoint : Endpoint) : Endpoint := { endpoint with id := default }

namespace Catalog

/-- The catalog but for the identifiers of its endpoints. -/
def anonymous (catalog : Catalog) : Catalog :=
  { catalog with
    endpoints := catalog.endpoints.mapValues fun _ => Endpoint.anonymous
    libEndpoints := catalog.libEndpoints.mapValues fun _ => Endpoint.anonymous }

/-- The drafts make nothing of the identifiers that they are given but to put them into
their endpoints. -/
def Impersonal (drafts : Drafts) : Prop :=
  ∀ draft ∈ drafts, ∀ id id', (draft.2 id).anonymous = (draft.2 id').anonymous

theorem impersonal_of_draftAll {α : Type}
    {adapt : String → Signature → Except CatalogError Signature}
    {draft : α → String × Signature × (Signature → Uid → Endpoint)}
    (hdraft : ∀ thing signature id id',
      ((draft thing).2.2 signature id).anonymous = ((draft thing).2.2 signature id').anonymous)
    {things : List α} {drafts : Drafts} (hdrafts : draftAll adapt draft things = .ok drafts) :
    Impersonal drafts := by
  induction things generalizing drafts with
  | nil =>
      cases hdrafts
      nofun
  | cons thing rest ih =>
      rw [draftAll] at hdrafts
      dsimp only at hdrafts
      split at hdrafts
      · cases hdrafts
      · split at hdrafts
        · cases hdrafts
        · rename_i hrest
          cases hdrafts
          intro other hmem
          rcases List.mem_cons.mp hmem with rfl | hmem
          · exact hdraft thing _
          · exact ih hrest other hmem

theorem sameKey_finish_of_impersonal {drafts : Drafts} (himpersonal : Impersonal drafts)
    (ids ids' : Nat → Uid) (start start' : Nat) :
    List.Forall₂ (Entries.SameKey fun _ left right => left.anonymous = right.anonymous)
      (finish ids start drafts) (finish ids' start' drafts) := by
  induction drafts generalizing start start' with
  | nil => exact .nil
  | cons draft rest ih =>
      have hrest : Impersonal rest := fun other hmem =>
        himpersonal other (List.mem_cons_of_mem _ hmem)
      exact .cons ⟨rfl, himpersonal draft List.mem_cons_self _ _⟩ (ih hrest _ _)

/-- What is stored for the same drafts is the same but for the identifiers. -/
theorem mapValues_anonymous_finish {drafts : Drafts} (himpersonal : Impersonal drafts)
    (ids ids' : Nat → Uid) (start start' : Nat) :
    ((SortedMap.ofList (finish ids start drafts)).mapValues fun _ => Endpoint.anonymous) =
      (SortedMap.ofList (finish ids' start' drafts)).mapValues fun _ => Endpoint.anonymous := by
  apply SortedMap.ext_get?
  intro key
  have hrelated :=
    SortedMap.related_ofList (sameKey_finish_of_impersonal himpersonal ids ids' start start') key
  rw [SortedMap.get?_mapValues, SortedMap.get?_mapValues]
  generalize (SortedMap.ofList (finish ids start drafts)).get? key = kept at hrelated ⊢
  generalize (SortedMap.ofList (finish ids' start' drafts)).get? key = kept' at hrelated ⊢
  cases hrelated with
  | none => rfl
  | some hsame => exact congrArg some hsame

variable {left right authority : Authority} {service : ServiceInfo} {caller : VerifyKey}
  {role : Role} {adapt : String → Signature → Except CatalogError Signature}
  {negotiated : ProtocolVersion} {engine : MigrationEngine}

theorem impersonal_of_drafts {operations libDrafts userCode : Drafts}
    (hdrafts : drafts authority service caller role adapt = .ok (operations, libDrafts, userCode)) :
    Impersonal operations ∧ Impersonal libDrafts ∧ Impersonal userCode := by
  obtain ⟨services, libs, code, -, -, -, hoperations, hlibs, hcode⟩ := draftAll_of_drafts hdrafts
  exact ⟨impersonal_of_draftAll (fun _ _ _ _ => rfl) hoperations,
    impersonal_of_draftAll (fun _ _ _ _ => rfl) hlibs,
    impersonal_of_draftAll (fun _ _ _ _ => rfl) hcode⟩

/-- The role of a caller and the drafts of all endpoints for it. -/
def drafted (authority : Authority) (service : ServiceInfo) (caller : VerifyKey)
    (negotiated : ProtocolVersion) (engine : MigrationEngine) :
    Except CatalogError (Role × Drafts × Drafts × Drafts) :=
  ((authority.roleOf caller).mapError CatalogError.authority).bind fun role =>
    (versionsFor service negotiated engine).bind fun versions =>
      (drafts authority service caller role (Catalog.adapt engine versions)).map (role, ·)

/-- The catalog of drafts, with identifiers for its endpoints. -/
def assemble (service : ServiceInfo) (negotiated : ProtocolVersion) (ids : Nat → Uid) :
    Role × Drafts × Drafts × Drafts → Catalog
  | (role, operations, libDrafts, userCode) => {
      service := service.id
      serviceName := service.name
      protocol := negotiated
      role := role
      endpoints := SortedMap.ofList (finish ids 0 (operations ++ userCode))
      libEndpoints := SortedMap.ofList
        (finish ids (finish ids 0 (operations ++ userCode)).length libDrafts) }

/-- Identifiers are given at the end, when nothing can fail any more. -/
theorem build_eq_map_assemble (ids : Nat → Uid) :
    build authority service caller negotiated engine ids =
      (drafted authority service caller negotiated engine).map
        (assemble service negotiated ids) := by
  rw [build, drafted]
  cases (authority.roleOf caller).mapError CatalogError.authority with
  | error e => rfl
  | ok role =>
      cases versionsFor service negotiated engine with
      | error e => rfl
      | ok versions =>
          change (drafts authority service caller role (Catalog.adapt engine versions)).bind _ =
            ((drafts authority service caller role (Catalog.adapt engine versions)).map _).map _
          cases drafts authority service caller role (Catalog.adapt engine versions) with
          | error e => rfl
          | ok made => rfl

/-- Two catalogs that are built alike differ in the identifiers of their endpoints
only. -/
theorem anonymous_build_eq (ids ids' : Nat → Uid) :
    (build authority service caller negotiated engine ids).map anonymous =
      (build authority service caller negotiated engine ids').map anonymous := by
  rw [build_eq_map_assemble, build_eq_map_assemble]
  cases hdrafted : drafted authority service caller negotiated engine with
  | error e => rfl
  | ok made =>
      obtain ⟨role, -, hmade⟩ := Outcome.bind_eq_ok_iff.mp hdrafted
      obtain ⟨versions, -, hmade⟩ := Outcome.bind_eq_ok_iff.mp hmade
      obtain ⟨⟨operations, libDrafts, userCode⟩, hdrafts, rfl⟩ := Outcome.map_eq_ok_iff.mp hmade
      obtain ⟨hoperations, hlibDrafts, huserCode⟩ := impersonal_of_drafts hdrafts
      have hall : Impersonal (operations ++ userCode) := fun draft hmem =>
        (List.mem_append.mp hmem).elim (hoperations draft) (huserCode draft)
      have hendpoints := mapValues_anonymous_finish hall ids ids' 0 0
      have hlibEndpoints := mapValues_anonymous_finish hlibDrafts ids ids'
        (finish ids 0 (operations ++ userCode)).length
        (finish ids' 0 (operations ++ userCode)).length
      apply congrArg Except.ok
      rw [assemble, assemble, anonymous, anonymous, hendpoints, hlibEndpoints]

/-! ## Authorities that tell the same -/

/-- The drafts of an authority that tells what it holds. -/
theorem drafts_eq_of_tells {services : SortedMap String ServiceConfig}
    {libs : SortedMap String LibConfig} {code : List UserCode}
    (htells : authority.Tells caller role services libs code) :
    drafts authority service caller role adapt =
      (draftAll adapt (serviceDraft (warningContext service role)) (offered services)).bind
        fun operations => (draftAll adapt libDraft libs.entries).bind fun libDrafts =>
          (draftAll adapt userCodeDraft code).map fun userCode =>
            (operations, libDrafts, userCode) := by
  simp only [drafts, htells.services_eq, htells.libs_eq, htells.code_eq]
  rfl

/-- Operations that are offered as library functions do not count, whatever they are. -/
theorem build_congr {services services' : SortedMap String ServiceConfig}
    {libs : SortedMap String LibConfig} {code : List UserCode}
    (hleft : left.Tells caller role services libs code)
    (hright : right.Tells caller role services' libs code)
    (hoffered : offered services = offered services') (ids : Nat → Uid) :
    build left service caller negotiated engine ids =
      build right service caller negotiated engine ids := by
  rw [build_eq_map_assemble, build_eq_map_assemble, drafted, drafted, hleft.role_eq,
    hright.role_eq]
  refine congrArg (Except.map _) ?_
  change (versionsFor service negotiated engine).bind _ =
    (versionsFor service negotiated engine).bind _
  refine congrArg (Except.bind _) ?_
  funext versions
  rw [drafts_eq_of_tells hleft, drafts_eq_of_tells hright, hoffered]

end Catalog

/-! ## Rosters -/

namespace Roster

variable {left right roster : Roster} {caller other : VerifyKey} {role least : Role}
  {path : String} {config : ServiceConfig}

/-- The roster offers the operation to the role, and not as a library function. -/
def Shows (roster : Roster) (role : Role) (path : String) (config : ServiceConfig) : Prop :=
  ∃ least, roster.services.get? path = some (least, config) ∧ role.atLeast least ∧
    config.isFromLib = false

/-- Two rosters hold the same for a caller: the caller has one role in both or none in
either, and to that role both offer the same operations, but for those that are offered
as library functions; they hold the same library functions and the same code of the
caller's own. -/
structure AgreeFor (caller : VerifyKey) (left right : Roster) : Prop where
  role : left.role? caller = right.role? caller
  services : ∀ role, left.role? caller = some role →
    ∀ path config, left.Shows role path config ↔ right.Shows role path config
  libs : left.libs = right.libs
  code : left.codeOf caller = right.codeOf caller

theorem AgreeFor.trans {middle : Roster} (hleft : AgreeFor caller left middle)
    (hright : AgreeFor caller middle right) : AgreeFor caller left right where
  role := hleft.role.trans hright.role
  services role hrole path config := (hleft.services role hrole path config).trans
    (hright.services role (hleft.role ▸ hrole) path config)
  libs := hleft.libs.trans hright.libs
  code := hleft.code.trans hright.code

/-! ### What a caller does not see -/

theorem agreeFor_grant (hother : other ≠ caller) (role : Role) :
    AgreeFor caller roster (roster.grant other role) where
  role := by
    have hfind : (roster.roles.filter fun entry => entry.1 != other).find?
        (fun entry => entry.1 == caller) = roster.roles.find? fun entry => entry.1 == caller := by
      rw [List.find?_filter]
      congr 1
      funext entry
      by_cases hentry : entry.1 = caller
      · simp [hentry, hother.symm]
      · simp [hentry]
    rw [role?, role?, grant, List.find?_cons_of_neg (by simpa using hother), hfind]
  services _ _ _ _ := Iff.rfl
  libs := rfl
  code := rfl

theorem agreeFor_addUserCode (hother : other ≠ caller) (code : UserCode) :
    AgreeFor caller roster (roster.addUserCode other code) where
  role := rfl
  services _ _ _ _ := Iff.rfl
  libs := rfl
  code := by simp [codeOf, addUserCode, List.filter_append, hother]

/-- An operation for higher roles or one that is offered as a library function may come or
take the place of such a one. -/
theorem agreeFor_addService
    (hbefore : ∀ role, roster.role? caller = some role → ∀ config, ¬ roster.Shows role path config)
    (hafter : ∀ role, roster.role? caller = some role →
      role.atLeast least = true → config.isFromLib) :
    AgreeFor caller roster (roster.addService path least config) where
  role := rfl
  services role hrole path' config' := by
    by_cases hpath : path' = path
    · subst path'
      refine iff_of_false (hbefore role hrole config') ?_
      rintro ⟨least', hget, hleast, hservice⟩
      rw [addService, SortedMap.get?_insert_eq_ite, if_pos rfl] at hget
      cases hget
      rw [hafter role hrole hleast] at hservice
      cases hservice
    · have hget : (roster.addService path least config).services.get? path' =
          roster.services.get? path' := by
        rw [addService, SortedMap.get?_insert_eq_ite, if_neg hpath]
      rw [Shows, Shows, hget]
  libs := rfl
  code := rfl

/-! ### The catalog -/

theorem mem_offered_visibleTo_iff :
    (path, config) ∈ Catalog.offered (roster.visibleTo role) ↔ roster.Shows role path config := by
  rw [Catalog.offered, List.mem_filter, SortedMap.mem_entries_iff, visibleTo,
    SortedMap.get?_mapValues, Bool.not_eq_true', Option.map_eq_some_iff]
  constructor
  · rintro ⟨⟨offer, hoffer, rfl⟩, hservice⟩
    obtain ⟨hget, hrole⟩ := SortedMap.get?_filter_eq_some_iff.mp hoffer
    exact ⟨offer.1, hget, hrole, hservice⟩
  · rintro ⟨least, hget, hrole, hservice⟩
    exact ⟨⟨(least, config), SortedMap.get?_filter_eq_some_iff.mpr ⟨hget, hrole⟩, rfl⟩, hservice⟩

theorem offered_visibleTo_congr
    (hshows : ∀ path config, left.Shows role path config ↔ right.Shows role path config) :
    Catalog.offered (left.visibleTo role) = Catalog.offered (right.visibleTo role) := by
  refine Entries.eq_of_mem_iff (Entries.ascending_filter _ (left.visibleTo role).ascending)
    (Entries.ascending_filter _ (right.visibleTo role).ascending) fun entry => ?_
  rw [mem_offered_visibleTo_iff, mem_offered_visibleTo_iff, hshows]

theorem tells_authority (hrole : roster.role? caller = some role) :
    roster.authority.Tells caller role (roster.visibleTo role) roster.libs
      (roster.codeOf caller) where
  role_eq := by rw [authority]; dsimp only; rw [hrole]
  services_eq := rfl
  libs_eq := rfl
  code_eq := rfl

theorem build_of_role?_eq_none (hrole : roster.role? caller = none) (service : ServiceInfo)
    (negotiated : ProtocolVersion) (engine : MigrationEngine) (ids : Nat → Uid) :
    Catalog.build roster.authority service caller negotiated engine ids =
      .error (.authority (.unknownCaller (toString caller))) := by
  have hroleOf : roster.authority.roleOf caller = .error (.unknownCaller (toString caller)) := by
    rw [authority]
    dsimp only
    rw [hrole]
  rw [Catalog.build, hroleOf]
  rfl

/-- For a caller about whom two rosters agree, a catalog is built from either or from
neither.  The catalogs are equal but for the identifiers of their endpoints, and are equal
if these are the same; where there is none, the error is the same. -/
theorem build_eq_of_agreeFor (hagree : AgreeFor caller left right) (service : ServiceInfo)
    (negotiated : ProtocolVersion) (engine : MigrationEngine) (ids ids' : Nat → Uid) :
    Catalog.build left.authority service caller negotiated engine ids =
        Catalog.build right.authority service caller negotiated engine ids ∧
      (Catalog.build left.authority service caller negotiated engine ids).map Catalog.anonymous =
        (Catalog.build right.authority service caller negotiated engine ids').map
          Catalog.anonymous := by
  have hbuild : Catalog.build left.authority service caller negotiated engine ids =
      Catalog.build right.authority service caller negotiated engine ids := by
    cases hrole : left.role? caller with
    | none =>
        rw [build_of_role?_eq_none hrole, build_of_role?_eq_none (hagree.role ▸ hrole)]
    | some role =>
        have hright := tells_authority (hagree.role ▸ hrole)
        rw [← hagree.libs, ← hagree.code] at hright
        exact Catalog.build_congr (tells_authority hrole) hright
          (offered_visibleTo_congr (hagree.services role hrole)) ids
  refine ⟨hbuild, ?_⟩
  rw [hbuild]
  exact Catalog.anonymous_build_eq ids ids'

/-! ### An archive -/

def readerKey : VerifyKey := ⟨List.replicate 32 1, rfl⟩

def keeperKey : VerifyKey := ⟨List.replicate 32 2, rfl⟩

/-- An operation without parameters. -/
def plainConfig (name : String) (isFromLib : Bool) : ServiceConfig :=
  ⟨name, none, ⟨[], none⟩, none, isFromLib⟩

/-- An archive that everyone may read. -/
def archive : Roster :=
  (empty.grant readerKey .guest).addService "archive.read" .guest (plainConfig "read" false)

/-- The archive with a keeper, who has code, with an operation for the keeper and one that
is offered as a library function.  The paths of both are malformed. -/
def keptArchive : Roster :=
  (((archive.grant keeperKey .admin).addUserCode keeperKey ⟨default, "sort", ⟨[], none⟩⟩).addService
    "archive..burn" .admin (plainConfig "burn" false)).addService
    "archive." .guest (plainConfig "copy" true)

theorem agreeFor_keptArchive : AgreeFor readerKey archive keptArchive := by
  have hkeeper : keeperKey ≠ readerKey := by decide
  refine (agreeFor_grant hkeeper .admin).trans ((agreeFor_addUserCode hkeeper _).trans
    ((agreeFor_addService ?_ ?_).trans (agreeFor_addService ?_ ?_)))
  · rintro role - config ⟨least, hget, -⟩
    cases hget
  · intro role hrole hleast
    cases hrole
    exact absurd hleast (by decide)
  · rintro role - config ⟨least, hget, -⟩
    cases hget
  · exact fun _ _ _ => rfl

/-- The catalog of the archive for a caller, with an identifier for every endpoint. -/
def archiveCatalog (roster : Roster) (caller : VerifyKey) (id : Uid) :
    Except CatalogError Catalog :=
  Catalog.build roster.authority ⟨default, "archive", .dev, true⟩ caller .dev .empty fun _ => id

/-- The reader does not learn of the keeper, for whom no catalog can be built. -/
theorem build_eq_of_agreeFor_archive :
    (∃ catalog, archiveCatalog archive readerKey default = .ok catalog ∧
      archiveCatalog keptArchive readerKey default = .ok catalog ∧
        catalog.endpoints.keys = ["archive.read"] ∧
          (archiveCatalog keptArchive readerKey ⟨List.replicate 16 1, rfl⟩).map
            Catalog.anonymous = .ok catalog.anonymous) ∧
    archiveCatalog keptArchive keeperKey default = .error (.invalidPath ⟨"archive..burn"⟩) := by
  refine ⟨?_, rfl⟩
  obtain ⟨catalog, hbuild, hkeys⟩ : ∃ catalog, archiveCatalog archive readerKey default =
      .ok catalog ∧ catalog.endpoints.keys = ["archive.read"] := ⟨_, rfl, by decide⟩
  obtain ⟨hsame, hanonymous⟩ := build_eq_of_agreeFor agreeFor_keptArchive
    ⟨default, "archive", .dev, true⟩ .dev .empty (fun _ => default)
    fun _ => ⟨List.replicate 16 1, rfl⟩
  refine ⟨catalog, hbuild, hsame.symm.trans hbuild, hkeys, hanonymous.symm.trans ?_⟩
  exact congrArg (Except.map Catalog.anonymous) hbuild

end Roster

end RemoteCall
