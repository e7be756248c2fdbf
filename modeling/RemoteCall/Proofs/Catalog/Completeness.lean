import RemoteCall.Proofs.Catalog.Build

/-!
# What a built catalog leaves out

A catalog keeps its endpoints under keys: an operation of the service under its path,
and user code under a key that is made of its name.  Where two of these meet, the later
one takes the place of the earlier one, which is then not listed at all.  This happens
to pieces of code of one name, and to an operation whose path is the key of some code.
-/

namespace RemoteCall

namespace Catalog

/-- Nothing is left out.  Every operation that is offered as such and every library
function has its endpoint under its path, and every piece of code has one of its own. -/
structure KeepsAll (context : WarningContext)
    (adapt : String → Signature → Except CatalogError Signature)
    (services : SortedMap String ServiceConfig) (libs : SortedMap String LibConfig)
    (code : List UserCode) (catalog : Catalog) : Prop where
  operation : ∀ path config, services.get? path = some config → config.isFromLib = false →
    ∃ endpoint, catalog.endpoints.get? path = some endpoint ∧
      IsOperation context adapt path config endpoint
  lib : ∀ path config, libs.get? path = some config →
    ∃ endpoint, catalog.libEndpoints.get? path = some endpoint ∧
      IsLib adapt path config endpoint
  userCode : ∀ unit ∈ code, ∃ key endpoint, catalog.endpoints.get? key = some endpoint ∧
    IsUserCode adapt unit endpoint
  size_eq : catalog.endpoints.size = (offered services).length + code.length

/-- No two pieces of code have one name, and none has the path of an operation as key. -/
structure Apart (services : SortedMap String ServiceConfig) (code : List UserCode) : Prop where
  names : (code.map UserCode.name).Nodup
  paths : ∀ unit ∈ code, ∀ config, services.get? (userCodeKey unit) = some config →
    config.isFromLib

/-! ## Keys -/

variable {services : SortedMap String ServiceConfig} {code : List UserCode}

theorem mem_offered_iff {path : String} {config : ServiceConfig} :
    (path, config) ∈ offered services ↔
      services.get? path = some config ∧ config.isFromLib = false := by
  rw [offered, List.mem_filter, SortedMap.mem_entries_iff, Bool.not_eq_true']

theorem nodup_map_userCodeKey :
    (code.map userCodeKey).Nodup ↔ (code.map UserCode.name).Nodup := by
  have hkeys : code.map userCodeKey =
      (code.map UserCode.name).map (Endpoint.userCodePath ++ "_" ++ ·) := by
    rw [List.map_map]
    rfl
  rw [hkeys, List.nodup_map_iff]
  intro left right heq
  exact String.append_right_inj _ |>.mp heq

theorem nodup_keys_sources_iff :
    ((sources services code).map Prod.fst).Nodup ↔ Apart services code := by
  have hoffered : ((offered services).map Prod.fst).Nodup :=
    Entries.nodup_keys (Entries.ascending_filter _ services.ascending)
  have hkeys : (sources services code).map Prod.fst =
      (offered services).map Prod.fst ++ code.map userCodeKey := by
    simp [sources, Function.comp_def]
  rw [hkeys, List.nodup_append, nodup_map_userCodeKey]
  constructor
  · rintro ⟨-, hnames, hdisjoint⟩
    refine ⟨hnames, fun unit hunit config hconfig => ?_⟩
    by_contra hservice
    have hmem := mem_offered_iff.mpr ⟨hconfig, Bool.eq_false_iff.mpr hservice⟩
    exact hdisjoint _ (List.mem_map_of_mem hmem) _ (List.mem_map_of_mem hunit) rfl
  · intro hapart
    refine ⟨hoffered, hapart.names, fun path hpath key hkey heq => ?_⟩
    obtain ⟨⟨_, config⟩, hmem, rfl⟩ := List.mem_map.mp hpath
    obtain ⟨unit, hunit, rfl⟩ := List.mem_map.mp hkey
    obtain ⟨hconfig, hservice⟩ := mem_offered_iff.mp hmem
    dsimp only at heq
    rw [heq] at hconfig
    rw [hapart.paths unit hunit config hconfig] at hservice
    cases hservice

/-! ## What is left out -/

variable {context : WarningContext} {adapt : String → Signature → Except CatalogError Signature}
  {libs : SortedMap String LibConfig} {catalog : Catalog}

theorem length_sources :
    (sources services code).length = (offered services).length + code.length := by
  rw [sources, List.length_append, List.length_map, List.length_map]

theorem Stores.exists_endpoint (hstores : Stores context adapt services libs code catalog)
    (hapart : Apart services code) {key : String} {source : Source}
    (hmem : (key, source) ∈ sources services code) :
    ∃ endpoint, catalog.endpoints.get? key = some endpoint ∧
      StandsFor context adapt key source endpoint :=
  Entries.Related.exists_right hstores.endpoints
    (SortedMap.get?_ofList_of_mem (nodup_keys_sources_iff.mpr hapart) hmem)

theorem Stores.keepsAll_iff (hstores : Stores context adapt services libs code catalog) :
    KeepsAll context adapt services libs code catalog ↔ Apart services code := by
  constructor
  · intro hkeeps
    have hsize := hstores.size_eq.symm.trans hkeeps.size_eq
    rw [← length_sources, SortedMap.size_ofList_eq_length_iff] at hsize
    exact nodup_keys_sources_iff.mp hsize
  · intro hapart
    refine ⟨fun path config hconfig hservice => ?_, fun path config hconfig => ?_,
      fun unit hunit => ?_, ?_⟩
    · have hmem : (path, Source.operation config) ∈ sources services code :=
        List.mem_append_left _ (List.mem_map.mpr
          ⟨(path, config), mem_offered_iff.mpr ⟨hconfig, hservice⟩, rfl⟩)
      obtain ⟨endpoint, hget, hstands⟩ := hstores.exists_endpoint hapart hmem
      cases hstands with
      | operation hoperation => exact ⟨endpoint, hget, hoperation⟩
    · exact Entries.Related.exists_right hstores.libEndpoints hconfig
    · have hmem : (userCodeKey unit, Source.userCode unit) ∈ sources services code :=
        List.mem_append_right _ (List.mem_map.mpr ⟨unit, hunit, rfl⟩)
      obtain ⟨endpoint, hget, hstands⟩ := hstores.exists_endpoint hapart hmem
      cases hstands with
      | userCode _ hcode => exact ⟨_, endpoint, hget, hcode⟩
    · rw [hstores.size_eq, ← length_sources, SortedMap.size_ofList_eq_length_iff]
      exact nodup_keys_sources_iff.mpr hapart

/-- Under every key a built catalog has an endpoint of the last thing with that key,
and of the library functions it has each.  It leaves nothing out just when no two
pieces of code have one name and none has the path of an operation as key. -/
theorem keepsAll_iff_of_build {authority : Authority} {service : ServiceInfo}
    {caller : VerifyKey} {negotiated : ProtocolVersion} {engine : MigrationEngine}
    {ids : Nat → Uid} {catalog : Catalog}
    (hbuild : build authority service caller negotiated engine ids = .ok catalog) :
    ∃ role services libs code versions, authority.Tells caller role services libs code ∧
      versionsFor service negotiated engine = .ok versions ∧
      Stores (warningContext service role) (Catalog.adapt engine versions) services libs code
        catalog ∧
      (KeepsAll (warningContext service role) (Catalog.adapt engine versions) services libs
          code catalog ↔
        Apart services code) := by
  obtain ⟨role, services, libs, code, versions, htells, hversions, hstores⟩ :=
    stores_of_build hbuild
  exact ⟨role, services, libs, code, versions, htells, hversions, hstores,
    hstores.keepsAll_iff⟩

/-! ## Code called `train` -/

/-- An authority that tells everyone the same. -/
def openAuthority (services : SortedMap String ServiceConfig) (code : List UserCode) :
    Authority where
  roleOf _ := .ok .guest
  services _ := .ok services
  libs _ := .ok .empty
  userCode _ := .ok code

/-- The catalog that a service with that authority shows to a visitor. -/
def depotCatalog (services : SortedMap String ServiceConfig) (code : List UserCode) :
    Except CatalogError Catalog :=
  build (openAuthority services code) ⟨default, "depot", .dev, true⟩
    ⟨List.replicate 32 0, List.length_replicate⟩ .dev .empty fun _ => default

/-- An operation that is offered at a path. -/
def operationAt (path : String) : SortedMap String ServiceConfig :=
  SortedMap.empty.insert path ⟨"run", none, ⟨[], none⟩, none, false⟩

/-- Code of the given name, with an identifier made of one byte. -/
def codeCalled (name : String) (byte : UInt8) : UserCode :=
  ⟨⟨List.replicate 16 byte, List.length_replicate⟩, name, ⟨[], none⟩⟩

theorem keepsAll_iff_of_build_depot :
    ∃ catalog,
      depotCatalog (operationAt "depot.run") [codeCalled "train" 7, codeCalled "test" 8] =
          .ok catalog ∧
        ∃ context adapt, KeepsAll context adapt (operationAt "depot.run") .empty
          [codeCalled "train" 7, codeCalled "test" 8] catalog := by
  obtain ⟨catalog, hbuild⟩ : ∃ catalog, depotCatalog (operationAt "depot.run")
      [codeCalled "train" 7, codeCalled "test" 8] = .ok catalog := ⟨_, rfl⟩
  obtain ⟨role, services, libs, code, versions, htells, -, -, hkeeps⟩ :=
    keepsAll_iff_of_build hbuild
  cases htells.services_eq
  cases htells.libs_eq
  cases htells.code_eq
  have habsent : ∀ unit ∈ [codeCalled "train" 7, codeCalled "test" 8],
      (operationAt "depot.run").get? (userCodeKey unit) = none := by decide
  refine ⟨catalog, hbuild, _, _, hkeeps.mpr ⟨by decide, fun unit hunit config hconfig => ?_⟩⟩
  cases (habsent unit hunit).symm.trans hconfig

/-- Of two pieces of code of one name one is left out, and so is an operation whose
path is the key of a piece of code. -/
theorem size_lt_of_meeting_train :
    (∃ catalog,
      depotCatalog .empty [codeCalled "train" 7, codeCalled "train" 8] = .ok catalog ∧
        catalog.endpoints.size <
          (offered .empty).length + [codeCalled "train" 7, codeCalled "train" 8].length) ∧
    ∃ catalog,
      depotCatalog (operationAt "code.call_train") [codeCalled "train" 7] = .ok catalog ∧
        catalog.endpoints.size <
          (offered (operationAt "code.call_train")).length + [codeCalled "train" 7].length :=
  ⟨⟨_, rfl, by decide⟩, ⟨_, rfl, by decide⟩⟩

end Catalog

end RemoteCall
