import RemoteCall.Catalog.Build
import RemoteCall.Proofs.Outcome
import RemoteCall.Proofs.SortedMap

/-!
# What a built catalog lists

An endpoint of a catalog is made for an operation of the service, for a library function
or for user code.  What is made is put down in turn, each under its key, and what comes
later takes the place of what is there.  An endpoint can be told from its key: that of a
service operation or a library function is listed under its key, and that of user code
has its name in the key and brings along the identifier of the code.
-/

namespace RemoteCall

/-- What an authority tells about a caller. -/
structure Authority.Tells (authority : Authority) (caller : VerifyKey) (role : Role)
    (services : SortedMap String ServiceConfig) (libs : SortedMap String LibConfig)
    (code : List UserCode) : Prop where
  role_eq : authority.roleOf caller = .ok role
  services_eq : authority.services role = .ok services
  libs_eq : authority.libs caller = .ok libs
  code_eq : authority.userCode caller = .ok code

namespace Catalog

/-- What an endpoint stands for that is not one of a library. -/
inductive Source where
  | operation (config : ServiceConfig)
  | userCode (code : UserCode)

/-- The operations that are not offered as library functions, by path. -/
def offered (services : SortedMap String ServiceConfig) : List (String × ServiceConfig) :=
  services.entries.filter fun entry => !entry.2.isFromLib

/-- All that endpoints are made for, under their keys. -/
def sources (services : SortedMap String ServiceConfig) (code : List UserCode) :
    List (String × Source) :=
  (offered services).map (fun entry => (entry.1, .operation entry.2)) ++
    code.map fun unit => (userCodeKey unit, .userCode unit)

section Endpoints

variable (context : WarningContext)
  (adapt : String → Signature → Except CatalogError Signature)

/-- The endpoint of the operation at a path. -/
structure IsOperation (path : String) (config : ServiceConfig) (endpoint : Endpoint) : Prop where
  servicePath_eq : endpoint.servicePath = path
  modulePath_eq : endpoint.modulePath = path
  name_eq : endpoint.name = config.publicName
  doc_eq : endpoint.doc = config.doc
  adapt_eq : adapt path config.signature = .ok endpoint.signature
  prebound_eq : endpoint.prebound = .empty
  warning_eq : endpoint.warning = config.warning.map fun warning => warning.render context

/-- The endpoint of the library function at a path. -/
structure IsLib (path : String) (config : LibConfig) (endpoint : Endpoint) : Prop where
  servicePath_eq : endpoint.servicePath = libDispatchPath
  modulePath_eq : endpoint.modulePath = path
  name_eq : endpoint.name = config.publicName
  doc_eq : endpoint.doc = config.doc
  adapt_eq : adapt path config.signature = .ok endpoint.signature
  prebound_eq : endpoint.prebound = .empty

/-- The endpoint of user code. -/
structure IsUserCode (code : UserCode) (endpoint : Endpoint) : Prop where
  servicePath_eq : endpoint.servicePath = Endpoint.userCodePath
  modulePath_eq : endpoint.modulePath = Endpoint.userCodePath
  name_eq : endpoint.name = code.name
  adapt_eq : adapt (userCodeKey code) code.signature = .ok endpoint.signature
  prebound_eq :
    endpoint.prebound = SortedMap.empty.insert Endpoint.userCodeKeyword (.uid code.id)

/-- The endpoint stands for the source under its key. -/
inductive StandsFor (key : String) : Source → Endpoint → Prop where
  | operation {config : ServiceConfig} {endpoint : Endpoint}
      (hoperation : IsOperation context adapt key config endpoint) :
      StandsFor key (.operation config) endpoint
  | userCode {code : UserCode} {endpoint : Endpoint} (hkey : key = userCodeKey code)
      (hcode : IsUserCode adapt code endpoint) : StandsFor key (.userCode code) endpoint

end Endpoints

/-! ## Drafts -/

theorem finish_append (ids : Nat → Uid) (start : Nat) (left right : Drafts) :
    finish ids start (left ++ right) =
      finish ids start left ++ finish ids (start + left.length) right := by
  induction left generalizing start with
  | nil => rfl
  | cons draft rest ih =>
      rw [List.cons_append, finish, finish, ih, List.length_cons, List.cons_append,
        Nat.add_assoc, Nat.add_comm 1]

/-- The endpoints that are made of some things, in their order and under their keys. -/
theorem sameKey_finish {α γ : Type} {adapt : String → Signature → Except CatalogError Signature}
    {draft : α → String × Signature × (Signature → Uid → Endpoint)} {tag : α → γ}
    {R : String → γ → Endpoint → Prop}
    (hdraft : ∀ thing signature id,
      adapt (draft thing).1 (draft thing).2.1 = .ok signature →
        R (draft thing).1 (tag thing) ((draft thing).2.2 signature id))
    {things : List α} {drafts : Drafts} (hdrafts : draftAll adapt draft things = .ok drafts)
    (ids : Nat → Uid) (start : Nat) :
    List.Forall₂ (Entries.SameKey R) (things.map fun thing => ((draft thing).1, tag thing))
      (finish ids start drafts) := by
  induction things generalizing drafts start with
  | nil =>
      cases hdrafts
      exact .nil
  | cons thing rest ih =>
      have hthing := hdraft thing
      rcases hdrafted : draft thing with ⟨key, declared, endpoint⟩
      rw [hdrafted] at hthing
      simp only [draftAll, hdrafted] at hdrafts
      split at hdrafts
      · cases hdrafts
      · rename_i signature hadapt
        split at hdrafts
        · cases hdrafts
        · rename_i hrest
          cases hdrafts
          rw [List.map_cons, hdrafted, finish]
          exact .cons ⟨rfl, hthing signature _ hadapt⟩ (ih hrest (start + 1))

variable {authority : Authority} {service : ServiceInfo} {caller : VerifyKey}

/-- The context in which the warnings of a service are shown to a role. -/
def warningContext (service : ServiceInfo) (role : Role) : WarningContext :=
  ⟨role, service.name, service.enableWarnings⟩

/-- What the drafts of a catalog are made of. -/
theorem draftAll_of_drafts {role : Role}
    {adapt : String → Signature → Except CatalogError Signature}
    {operations libDrafts userCode : Drafts}
    (hdrafts : drafts authority service caller role adapt = .ok (operations, libDrafts, userCode)) :
    ∃ services libs code, authority.services role = .ok services ∧
      authority.libs caller = .ok libs ∧ authority.userCode caller = .ok code ∧
      draftAll adapt (serviceDraft (warningContext service role)) (offered services) =
          .ok operations ∧
        draftAll adapt libDraft libs.entries = .ok libDrafts ∧
          draftAll adapt userCodeDraft code = .ok userCode := by
  obtain ⟨services, hservices, hdrafts⟩ := Outcome.bind_eq_ok_iff.mp hdrafts
  obtain ⟨_, hoperations, hdrafts⟩ := Outcome.bind_eq_ok_iff.mp hdrafts
  obtain ⟨libs, hlibs, hdrafts⟩ := Outcome.bind_eq_ok_iff.mp hdrafts
  obtain ⟨_, hlibDrafts, hdrafts⟩ := Outcome.bind_eq_ok_iff.mp hdrafts
  obtain ⟨code, hcode, hdrafts⟩ := Outcome.bind_eq_ok_iff.mp hdrafts
  obtain ⟨_, huserCode, hdrafts⟩ := Outcome.bind_eq_ok_iff.mp hdrafts
  cases hdrafts
  exact ⟨services, libs, code, Outcome.mapError_eq_ok_iff.mp hservices,
    Outcome.mapError_eq_ok_iff.mp hlibs, Outcome.mapError_eq_ok_iff.mp hcode,
    hoperations, hlibDrafts, huserCode⟩

/-- The catalog holds what comes of storing everything in turn: under each key there is an
endpoint of the last source with that key, and each library function has one. -/
structure Stores (context : WarningContext)
    (adapt : String → Signature → Except CatalogError Signature)
    (services : SortedMap String ServiceConfig) (libs : SortedMap String LibConfig)
    (code : List UserCode) (catalog : Catalog) : Prop where
  endpoints : ∀ key, Option.Rel (StandsFor context adapt key)
    ((SortedMap.ofList (sources services code)).get? key) (catalog.endpoints.get? key)
  size_eq : catalog.endpoints.size = (SortedMap.ofList (sources services code)).size
  libEndpoints : ∀ path, Option.Rel (IsLib adapt path) (libs.get? path)
    (catalog.libEndpoints.get? path)

theorem stores_of_build {negotiated : ProtocolVersion} {engine : MigrationEngine}
    {ids : Nat → Uid} {catalog : Catalog}
    (hbuild : build authority service caller negotiated engine ids = .ok catalog) :
    ∃ role services libs code versions, authority.Tells caller role services libs code ∧
      versionsFor service negotiated engine = .ok versions ∧
      Stores (warningContext service role) (adapt engine versions) services libs code
        catalog := by
  obtain ⟨role, hrole, hbuild⟩ := Outcome.bind_eq_ok_iff.mp hbuild
  obtain ⟨versions, hversions, hbuild⟩ := Outcome.bind_eq_ok_iff.mp hbuild
  obtain ⟨⟨operations, libDrafts, userCode⟩, hdrafts, hbuild⟩ :=
    Outcome.bind_eq_ok_iff.mp hbuild
  cases hbuild
  obtain ⟨services, libs, code, hservices, hlibs, hcode, hoperations, hlibDrafts, huserCode⟩ :=
    draftAll_of_drafts hdrafts
  have hendpoints : List.Forall₂
      (Entries.SameKey (StandsFor (warningContext service role) (adapt engine versions)))
      (sources services code) (finish ids 0 (operations ++ userCode)) := by
    rw [finish_append]
    refine List.rel_append ?_ ?_
    · refine sameKey_finish (fun entry signature id hadapt => ?_) hoperations ids 0
      exact .operation ⟨rfl, rfl, rfl, rfl, hadapt, rfl, rfl⟩
    · refine sameKey_finish (fun unit signature id hadapt => ?_) huserCode ids _
      exact .userCode rfl ⟨rfl, rfl, rfl, hadapt, rfl⟩
  have hlibEndpoints : List.Forall₂ (Entries.SameKey (IsLib (adapt engine versions)))
      (libs.entries.map fun entry => ((libDraft entry).1, entry.2))
      (finish ids (finish ids 0 (operations ++ userCode)).length libDrafts) :=
    sameKey_finish (fun entry signature id hadapt => ⟨rfl, rfl, rfl, rfl, hadapt, rfl⟩)
      hlibDrafts ids _
  refine ⟨role, services, libs, code, versions,
    ⟨Outcome.mapError_eq_ok_iff.mp hrole, hservices, hlibs, hcode⟩, hversions,
    SortedMap.related_ofList hendpoints,
    SortedMap.size_ofList_eq_of_keys (Entries.keys_eq_of_forall₂ hendpoints), fun path => ?_⟩
  have hentries : (libs.entries.map fun entry => ((libDraft entry).1, entry.2)) = libs.entries :=
    List.map_id _
  have hlib := SortedMap.related_ofList hlibEndpoints path
  rw [hentries, SortedMap.ofList_entries] at hlib
  exact hlib

/-! ## Keys -/

/-- How the endpoint of a service operation or of user code is listed under its key. -/
inductive Lists (key : String) (endpoint : Endpoint) : Prop where
  | atKey (hpath : endpoint.modulePath = key) (hprebound : endpoint.prebound = .empty)
  | userCode (hservice : endpoint.servicePath = Endpoint.userCodePath)
      (hkey : key = Endpoint.userCodePath ++ "_" ++ endpoint.name)
      {id : Uid} (hprebound : endpoint.prebound.get? Endpoint.userCodeKeyword = some (.uid id))

/-- The key can be told from whether the endpoint is user code. -/
theorem Lists.key_eq {key : String} {endpoint : Endpoint} (hlists : Lists key endpoint) :
    key = if endpoint.userCodeId?.isSome then Endpoint.userCodePath ++ "_" ++ endpoint.name
      else endpoint.modulePath := by
  cases hlists with
  | atKey hpath hprebound => simp [Endpoint.userCodeId?, hprebound, hpath]
  | userCode hservice hkey hprebound =>
      simp [Endpoint.userCodeId?, hservice, hprebound, Value.asUid?, hkey]

theorem StandsFor.lists {context : WarningContext}
    {adapt : String → Signature → Except CatalogError Signature} {key : String}
    {source : Source} {endpoint : Endpoint}
    (hstands : StandsFor context adapt key source endpoint) : Lists key endpoint := by
  cases hstands with
  | operation hoperation => exact .atKey hoperation.modulePath_eq hoperation.prebound_eq
  | userCode hkey hcode =>
      rename_i code
      have hprebound : endpoint.prebound.get? Endpoint.userCodeKeyword = some (.uid code.id) := by
        rw [hcode.prebound_eq]
        exact SortedMap.get?_insert
      rw [userCodeKey, ← hcode.name_eq] at hkey
      exact .userCode hcode.servicePath_eq hkey hprebound

/-- Every endpoint of a built catalog can be told from its key. -/
theorem lists_of_build {authority : Authority} {service : ServiceInfo} {caller : VerifyKey}
    {negotiated : ProtocolVersion} {engine : MigrationEngine} {ids : Nat → Uid}
    {catalog : Catalog}
    (hbuild : build authority service caller negotiated engine ids = .ok catalog) :
    (∀ entry ∈ catalog.endpoints.entries, Lists entry.1 entry.2) ∧
      ∀ entry ∈ catalog.libEndpoints.entries, entry.2.modulePath = entry.1 := by
  obtain ⟨role, services, libs, code, versions, -, -, hstores⟩ := stores_of_build hbuild
  constructor
  · intro entry hmem
    obtain ⟨source, -, hstands⟩ :=
      Entries.Related.exists_left hstores.endpoints (SortedMap.mem_entries_iff.mp hmem)
    exact hstands.lists
  · intro entry hmem
    obtain ⟨config, -, hlib⟩ :=
      Entries.Related.exists_left hstores.libEndpoints (SortedMap.mem_entries_iff.mp hmem)
    exact hlib.modulePath_eq

end Catalog

end RemoteCall
