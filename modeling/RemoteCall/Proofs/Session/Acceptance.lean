import RemoteCall.Proofs.Catalog.Build
import RemoteCall.Proofs.Catalog.Check
import RemoteCall.Proofs.Migration.Downgrade
import RemoteCall.Proofs.Session.Reachable

/-!
# Every catalog that is built is taken

The service checks the keys of the endpoints, and their signatures as they are at home.
The client has the paths checked, and the signatures as they were downgraded.  What
passes here passes there: the paths of an endpoint are its key or one of two fixed ones,
and a downgraded signature has the names of parameters that it had before.
-/

namespace RemoteCall

/-! ## Downgraded signatures -/

namespace Signature

/-- The first fault shows in the names alone. -/
theorem firstFault?_congr {seen : List String} {params others : List Param}
    (hnames : others.map Param.name = params.map Param.name) :
    firstFault? seen others = firstFault? seen params := by
  induction params generalizing seen others with
  | nil => rw [List.map_eq_nil_iff.mp hnames]
  | cons param rest ih =>
      cases others with
      | nil => cases hnames
      | cons other others =>
          have hname : other.name = param.name := (List.cons.inj hnames).1
          have hrest : others.map Param.name = rest.map Param.name := (List.cons.inj hnames).2
          rw [firstFault?, firstFault?, hname, ih hrest]

theorem check_congr {signature other : Signature} (hnames : other.names = signature.names) :
    other.check = signature.check := by
  rw [check, check, firstFault?_congr hnames]

end Signature

namespace MigrationEngine

variable {engine : MigrationEngine} {versions : ObjectVersions}

theorem names_of_downgradeSignature {signature adapted : Signature}
    (hsignature : engine.downgradeSignature versions signature = .ok adapted) :
    adapted.names = signature.names := by
  obtain ⟨-, rfl⟩ := downgradeSignature_eq_ok_iff.mp hsignature
  exact signature.names_mapRefs _

end MigrationEngine

/-! ## What a service builds -/

namespace Catalog

theorem isValid_libDispatchPath : Path.isValid libDispatchPath := by decide

theorem isValid_userCodePath : Path.isValid Endpoint.userCodePath := by decide

section Endpoints

variable {engine : MigrationEngine} {versions : Option ObjectVersions} {key : String}

/-- A signature is checked before it is downgraded, and would pass again after that. -/
theorem checked_of_adapt {signature adapted : Signature}
    (hadapt : adapt engine versions key signature = .ok adapted) :
    Path.isValid key ∧ adapted.check = .ok () := by
  rw [adapt.eq_def] at hadapt
  split at hadapt
  · cases hadapt
  · rename_i hpath
    split at hadapt
    · cases hadapt
    · rename_i hcheck
      have hsignature : signature.check = .ok () := checkSignature_eq_ok_iff.mp hcheck
      apply And.intro (checkPath_eq_ok_iff.mp hpath)
      split at hadapt
      · cases hadapt
        exact hsignature
      · have hdowngrade := Outcome.mapError_eq_ok_iff.mp hadapt
        calc
          adapted.check = signature.check :=
            Signature.check_congr (MigrationEngine.names_of_downgradeSignature hdowngrade)
          _ = .ok () := hsignature

variable {context : WarningContext} {endpoint : Endpoint}

theorem IsOperation.usable {config : ServiceConfig}
    (hoperation : IsOperation context (adapt engine versions) key config endpoint) :
    endpoint.Usable where
  servicePath := hoperation.servicePath_eq ▸ (checked_of_adapt hoperation.adapt_eq).1
  modulePath := hoperation.modulePath_eq ▸ (checked_of_adapt hoperation.adapt_eq).1
  signature := (checked_of_adapt hoperation.adapt_eq).2

theorem IsLib.usable {config : LibConfig}
    (hlib : IsLib (adapt engine versions) key config endpoint) : endpoint.Usable where
  servicePath := hlib.servicePath_eq ▸ isValid_libDispatchPath
  modulePath := hlib.modulePath_eq ▸ (checked_of_adapt hlib.adapt_eq).1
  signature := (checked_of_adapt hlib.adapt_eq).2

theorem IsUserCode.usable {code : UserCode}
    (hcode : IsUserCode (adapt engine versions) code endpoint) : endpoint.Usable where
  servicePath := hcode.servicePath_eq ▸ isValid_userCodePath
  modulePath := hcode.modulePath_eq ▸ isValid_userCodePath
  signature := (checked_of_adapt hcode.adapt_eq).2

theorem StandsFor.usable {source : Source}
    (hstands : StandsFor context (adapt engine versions) key source endpoint) :
    endpoint.Usable := by
  cases hstands with
  | operation hoperation => exact hoperation.usable
  | userCode _ hcode => exact hcode.usable

end Endpoints

variable {authority : Authority} {service : ServiceInfo} {caller : VerifyKey}
  {negotiated : ProtocolVersion} {engine : MigrationEngine} {ids : Nat → Uid}
  {catalog : Catalog}

theorem service_of_build
    (hbuild : build authority service caller negotiated engine ids = .ok catalog) :
    catalog.service = service.id := by
  obtain ⟨role, -, hbuild⟩ := Outcome.bind_eq_ok_iff.mp hbuild
  obtain ⟨versions, -, hbuild⟩ := Outcome.bind_eq_ok_iff.mp hbuild
  obtain ⟨drafted, -, hbuild⟩ := Outcome.bind_eq_ok_iff.mp hbuild
  cases hbuild
  rfl

theorem usable_of_build
    (hbuild : build authority service caller negotiated engine ids = .ok catalog) :
    ∀ entry ∈ catalog.allEndpoints, entry.2.Usable := by
  obtain ⟨role, services, libs, code, versions, -, -, hstores⟩ := stores_of_build hbuild
  rw [allEndpoints, List.forall_mem_append]
  constructor
  · intro entry hmem
    obtain ⟨source, -, hstands⟩ :=
      Entries.Related.exists_left hstores.endpoints (SortedMap.mem_entries_iff.mp hmem)
    exact hstands.usable
  · intro entry hmem
    obtain ⟨config, -, hlib⟩ :=
      Entries.Related.exists_left hstores.libEndpoints (SortedMap.mem_entries_iff.mp hmem)
    exact hlib.usable

/-! ## What a client takes -/

/-- A client can use the catalog of a service.  It passes the check, trees are made of it
where there is no session, and whoever logs in to that service with it gets a session,
which begins with that catalog. -/
structure Taken (service : Uid) (catalog : Catalog) : Prop where
  check : catalog.check = .ok ()
  detached : ∃ trees, OperationTree.detached catalog = .ok trees
  login : ∀ (ω : Type) (login : Login ω) (metadata : IdentityMetadata)
    (protocol : ProtocolVersion) (ids : IdSource), metadata.identity.id = service →
      ∃ session, login.build metadata protocol catalog ids = .ok (session, .new catalog ids)

theorem taken_of_check {service : Uid} (hservice : catalog.service = service)
    (hcheck : catalog.check = .ok ()) : Taken service catalog where
  check := hcheck
  detached := by
    rw [OperationTree.detached, hcheck]
    exact ⟨_, rfl⟩
  login ω login metadata protocol ids hid := by
    have hmatches : metadata.identity.checkCatalog catalog = .ok () :=
      ServiceIdentity.checkCatalog_eq_ok_iff.mpr ⟨hservice.trans hid.symm, hcheck⟩
    rw [Login.build, hmatches]
    exact ⟨_, rfl⟩

/-- Every catalog that a service builds is taken by its clients.  Each path in it is a
dotted path, and no signature gets other names, or another fault, by being downgraded. -/
theorem taken_of_build
    (hbuild : build authority service caller negotiated engine ids = .ok catalog) :
    Taken service.id catalog ∧
      (∀ entry ∈ catalog.allEndpoints,
        Path.isValid entry.2.servicePath ∧ Path.isValid entry.2.modulePath) ∧
      ∀ versions signature adapted,
        engine.downgradeSignature versions signature = .ok adapted →
          adapted.names = signature.names ∧ adapted.check = signature.check := by
  have husable := usable_of_build hbuild
  have hcheck : catalog.check = .ok () := check_eq_ok_iff.mpr husable
  apply And.intro (taken_of_check (service_of_build hbuild) hcheck)
  constructor
  · intro entry hmem
    exact ⟨(husable entry hmem).servicePath, (husable entry hmem).modulePath⟩
  · intro versions signature adapted hdowngrade
    have hnames := MigrationEngine.names_of_downgradeSignature hdowngrade
    exact ⟨hnames, Signature.check_congr hnames⟩

/-! ## A workshop -/

/-- An authority that lets everyone paint widgets, sum up numbers, and train a model of
their own. -/
def workshop : Authority where
  roleOf _ := .ok .dataScientist
  services _ := .ok (SortedMap.empty.insert "workshop.paint"
    ⟨"paint", none, ⟨[.positional "piece" (.list (.domain ⟨"Widget", 7⟩))], none⟩, none, false⟩)
  libs _ := .ok (SortedMap.empty.insert "numpy.sum"
    ⟨"sum", none, ⟨[.varPositional "items" .any], none⟩⟩)
  userCode _ := .ok [⟨default, "train", ⟨[.keyword "rate" (.primitive .float)], none⟩⟩]

/-- The catalog of the workshop for clients who know no widgets newer than the third
version. -/
def workshopCatalog : Except CatalogError Catalog :=
  build workshop ⟨default, "workshop", .dev, true⟩ bellLogin.key.verifyKey (.stable 2)
    .widgetEngine fun _ => default

theorem taken_of_build_workshop :
    ∃ catalog, workshopCatalog = .ok catalog ∧
      (catalog.endpoints.get? "workshop.paint").map Endpoint.signature =
        some ⟨[.positional "piece" (.list (.domain ⟨"Widget", 3⟩))], none⟩ ∧
      (catalog.libEndpoints.get? "numpy.sum").isSome ∧
      (catalog.endpoints.get? "code.call_train").isSome ∧
      Taken default catalog := by
  obtain ⟨catalog, hbuild, hpaint, hsum, htrain⟩ : ∃ catalog, workshopCatalog = .ok catalog ∧
      (catalog.endpoints.get? "workshop.paint").map Endpoint.signature =
        some ⟨[.positional "piece" (.list (.domain ⟨"Widget", 3⟩))], none⟩ ∧
      (catalog.libEndpoints.get? "numpy.sum").isSome ∧
      (catalog.endpoints.get? "code.call_train").isSome := ⟨_, rfl, rfl, rfl, rfl⟩
  exact ⟨catalog, hbuild, hpaint, hsum, htrain, (taken_of_build hbuild).1⟩

end Catalog

end RemoteCall
