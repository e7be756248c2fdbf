import RemoteCall.Proofs.Migration.Failure
import RemoteCall.Proofs.Migration.ProtocolVersion
import RemoteCall.Proofs.Session.Answers

/-!
# The protocol of a session

A login takes the newest protocol version that the service says it speaks and that the
client offers, and fails if there is none.  So the engine of a session that was logged in
knows what its protocol understands, and nothing that is called in the session fails
for not knowing the protocol.
-/

namespace RemoteCall

variable {ω : Type}

/-! ## What both sides speak -/

/-- Client and service both speak the version. -/
structure Login.Shares (login : Login ω) (metadata : IdentityMetadata)
    (version : ProtocolVersion) : Prop where
  told : version ∈ metadata.supported
  le_newest : version ≤ login.newest
  known : version = .dev ∨ ∃ n, version = .stable n ∧ login.engine.data.protocols.contains n

theorem DataProtocol.mem_supported_iff {data : DataProtocol} {version : ProtocolVersion} :
    version ∈ data.supported ↔
      version = .dev ∨ ∃ n, version = .stable n ∧ data.protocols.contains n := by
  rw [supported, List.mem_append, List.mem_singleton, List.mem_map, or_comm]
  refine or_congr_right (exists_congr fun n => ?_)
  rw [SortedMap.contains_iff_mem_keys, and_comm, eq_comm]

/-- Which versions are taken into account depends neither on the order of those of the
service nor on the order of one's own, and not on their repetitions. -/
theorem IdentityMetadata.negotiate_congr {metadata other : IdentityMetadata}
    {ours theirs : List ProtocolVersion}
    (hsupported : ∀ version, version ∈ metadata.supported ↔ version ∈ other.supported)
    (hours : ∀ version, version ∈ ours ↔ version ∈ theirs) :
    metadata.negotiate ours = other.negotiate theirs := by
  apply ProtocolVersion.newest?_congr
  intro version
  rw [List.mem_filter, List.mem_filter, hsupported version, List.contains_iff_mem,
    List.contains_iff_mem, hours version]

theorem SessionError.ofTransport_ne_noCommonProtocol (cause : TransportError) :
    ofTransport cause ≠ .noCommonProtocol := by
  cases cause <;> nofun

namespace Login

variable {login : Login ω} {metadata : IdentityMetadata} {version : ProtocolVersion}

theorem mem_filter_offered_iff :
    version ∈ metadata.supported.filter (fun version => login.offered.contains version) ↔
      login.Shares metadata version := by
  rw [List.mem_filter, List.contains_iff_mem, offered, List.mem_filter,
    DataProtocol.mem_supported_iff, ProtocolVersion.atMost_iff_le]
  constructor
  · rintro ⟨htold, hknown, hle⟩
    exact ⟨htold, hle, hknown⟩
  · rintro ⟨htold, hle, hknown⟩
    exact ⟨htold, hknown, hle⟩

theorem negotiate_eq_some_iff :
    metadata.negotiate login.offered = some version ↔
      IsGreatest {version | login.Shares metadata version} version := by
  have hset : {version | version ∈ metadata.supported.filter fun version =>
      login.offered.contains version} = {version | login.Shares metadata version} :=
    Set.ext fun _ => mem_filter_offered_iff
  rw [IdentityMetadata.negotiate, ProtocolVersion.newest?_eq_some_iff, hset]

theorem negotiate_eq_none_iff :
    metadata.negotiate login.offered = none ↔ ∀ version, ¬ login.Shares metadata version := by
  rw [IdentityMetadata.negotiate, ProtocolVersion.newest?_eq_none_iff,
    List.eq_nil_iff_forall_not_mem]
  exact forall_congr' fun version => not_congr mem_filter_offered_iff

/-- What a version understands can be told where it is shared. -/
theorem Shares.speaks (hshares : login.Shares metadata version) :
    login.engine.Speaks version :=
  MigrationEngine.speaks_iff_mem_supported.mpr
    (DataProtocol.mem_supported_iff.mpr hshares.known)

/-! ## Logging in -/

/-- What a login does once it is agreed on a version. -/
def enterAt (login : Login ω) (metadata : IdentityMetadata) (version : ProtocolVersion)
    (ids : IdSource) (world : ω) : Except SessionError (Session ω × SessionState ω) × ω :=
  match login.transport.catalog login.key.verifyKey version world with
  | (.error e, world) => (.error (.ofTransport e), world)
  | (.ok catalog, world) => (login.build metadata version catalog ids, world)

variable {ids : IdSource} {world after : ω} {session : Session ω} {state : SessionState ω}

theorem run_of_identity_eq_error {e : TransportError}
    (hidentity : login.transport.identity login.key.verifyKey world = (.error e, after)) :
    login.run ids world = (.error (.ofTransport e), after) := by
  rw [run, hidentity]

theorem run_of_negotiate_eq_none
    (hidentity : login.transport.identity login.key.verifyKey world = (.ok metadata, after))
    (hnegotiate : metadata.negotiate login.offered = none) :
    login.run ids world = (.error .noCommonProtocol, after) := by
  rw [run, hidentity]
  dsimp only
  rw [hnegotiate]

theorem run_of_negotiate_eq_some
    (hidentity : login.transport.identity login.key.verifyKey world = (.ok metadata, after))
    (hnegotiate : metadata.negotiate login.offered = some version) :
    login.run ids world = login.enterAt metadata version ids after := by
  rw [run, hidentity]
  dsimp only
  rw [hnegotiate]
  rfl

theorem build_ne_noCommonProtocol {catalog : Catalog} :
    login.build metadata version catalog ids ≠ .error .noCommonProtocol := by
  intro hbuild
  rw [build] at hbuild
  split at hbuild
  · rename_i hcheck
    cases hbuild
    rw [ServiceIdentity.checkCatalog] at hcheck
    split at hcheck
    · obtain ⟨cause, -, hcause⟩ := Outcome.mapError_eq_error_iff.mp hcheck
      cases hcause
    · cases hcheck
  · cases hbuild

theorem enterAt_ne_noCommonProtocol :
    (login.enterAt metadata version ids world).1 ≠ .error .noCommonProtocol := by
  intro henter
  rw [enterAt] at henter
  split at henter
  · rename_i cause _ _
    exact SessionError.ofTransport_ne_noCommonProtocol cause (Except.error.inj henter)
  · exact build_ne_noCommonProtocol henter

/-- The session that comes of entering at a version speaks it, with the engine of the
login. -/
theorem of_enterAt_eq_ok
    (henter : (login.enterAt metadata version ids world).1 = .ok (session, state)) :
    session.protocol = version ∧ session.engine = login.engine := by
  rw [enterAt] at henter
  split at henter
  · cases henter
  · rw [build] at henter
    dsimp only at henter
    split at henter
    · cases henter
    · cases henter
      exact ⟨rfl, rfl⟩

/-- Where something is shared, some version of it is the newest, and there a login
enters. -/
theorem exists_enterAt_of_shares
    (hidentity : login.transport.identity login.key.verifyKey world = (.ok metadata, after))
    (hshares : login.Shares metadata version) :
    ∃ newest, IsGreatest {version | login.Shares metadata version} newest ∧
      metadata.negotiate login.offered = some newest ∧
        login.run ids world = login.enterAt metadata newest ids after := by
  cases hnegotiate : metadata.negotiate login.offered with
  | none => exact absurd hshares (negotiate_eq_none_iff.mp hnegotiate version)
  | some newest =>
      exact ⟨newest, negotiate_eq_some_iff.mp hnegotiate, rfl,
        run_of_negotiate_eq_some hidentity hnegotiate⟩

theorem run_eq_noCommonProtocol_iff :
    (login.run ids world).1 = .error .noCommonProtocol ↔
      ∃ metadata, (login.transport.identity login.key.verifyKey world).1 = .ok metadata ∧
        ∀ version, ¬ login.Shares metadata version := by
  cases hidentity : login.transport.identity login.key.verifyKey world with
  | mk answer after =>
      cases answer with
      | error e =>
          rw [run_of_identity_eq_error hidentity]
          exact iff_of_false
            (fun heq => SessionError.ofTransport_ne_noCommonProtocol e (Except.error.inj heq))
            nofun
      | ok metadata =>
          constructor
          · intro hrun
            refine ⟨metadata, rfl, fun version hshares => ?_⟩
            obtain ⟨newest, -, -, henter⟩ := exists_enterAt_of_shares hidentity hshares
            exact enterAt_ne_noCommonProtocol (henter ▸ hrun)
          · rintro ⟨_, hmetadata, hnone⟩
            cases hmetadata
            rw [run_of_negotiate_eq_none hidentity (negotiate_eq_none_iff.mpr hnone)]

/-- A session that was logged in speaks the greatest version that is shared, with the
engine of the login. -/
theorem of_run_eq_ok
    (hidentity : login.transport.identity login.key.verifyKey world = (.ok metadata, after))
    (hrun : (login.run ids world).1 = .ok (session, state)) :
    IsGreatest {version | login.Shares metadata version} session.protocol ∧
      session.engine = login.engine := by
  cases hnegotiate : metadata.negotiate login.offered with
  | none =>
      rw [run_of_negotiate_eq_none hidentity hnegotiate] at hrun
      cases hrun
  | some newest =>
      rw [run_of_negotiate_eq_some hidentity hnegotiate] at hrun
      obtain ⟨rfl, hengine⟩ := of_enterAt_eq_ok hrun
      exact ⟨negotiate_eq_some_iff.mp hnegotiate, hengine⟩

end Login

/-! ## Calls in a session -/

theorem SessionError.ofEnvelope_ne_migration (error : EnvelopeError) (cause : MigrationError) :
    ofEnvelope error ≠ .migration cause := by
  cases error <;> nofun

theorem SessionError.ofTransport_ne_migration (error : TransportError) (cause : MigrationError) :
    ofTransport error ≠ .migration cause := by
  cases error <;> nofun

theorem MigrationError.OfValue.ne_unknownProtocol {cause : MigrationError}
    (hcause : cause.OfValue) (version : ProtocolVersion) : cause ≠ .unknownProtocol version := by
  rintro rfl
  cases hcause

/-- Names lead astray in one way only. -/
theorem Namespace.exists_unknownMember_of_descend {node : OperationNode} {names : List String}
    {e : SessionError} (hfails : descend node names = .error e) :
    ∃ path name, e = .unknownMember path name := by
  induction names generalizing node with
  | nil => cases node <;> cases hfails
  | cons name names ih =>
      cases node with
      | function function =>
          cases hfails
          exact ⟨_, _, rfl⟩
      | space space =>
          rw [descend] at hfails
          split at hfails
          · rename_i hget
            cases hfails
            rw [get] at hget
            split at hget
            · cases hget
            · cases hget
              exact ⟨_, _, rfl⟩
          · exact ih hfails

/-- Nothing that is called in the session ends in the error, nor does asking for jobs. -/
structure Session.NeverFails (session : Session ω) (e : SessionError) : Prop where
  call : ∀ (function : RemoteFunction) arguments live,
    (function.call (some session.dispatcher) arguments live).1 ≠ .error e
  callAt : ∀ path arguments live, (session.call path arguments live).1 ≠ .error e
  index : ∀ (space : Namespace) place live,
    (space.index (some session.dispatcher) place live).1 ≠ .error e
  jobs : ∀ (function : RemoteFunction) live,
    (function.jobs (some session.dispatcher) live).1 ≠ .error e

namespace Session

variable {session : Session ω} {live : Live ω} {cause : MigrationError}

/-- An answer that is not taken cannot be opened or is not the service's own. -/
theorem receive_ne_migration {path : String} {reply : Envelope CallResult} :
    (session.receive path reply live).1 ≠ .error (.migration cause) := by
  intro hreceive
  simp only [receive] at hreceive
  split at hreceive
  · split at hreceive
    · cases hreceive
    · exact SessionError.ofEnvelope_ne_migration _ _ (Except.error.inj hreceive)
  · split at hreceive
    · split at hreceive
      · cases hreceive
      · exact SessionError.ofEnvelope_ne_migration _ _ (Except.error.inj hreceive)
    · cases hreceive

theorem dispatch_ne_migration {call : Call} :
    (session.dispatch call live).1 ≠ .error (.migration cause) := by
  intro hdispatch
  rw [dispatch] at hdispatch
  split at hdispatch
  · exact SessionError.ofEnvelope_ne_migration _ _ (Except.error.inj hdispatch)
  · split at hdispatch
    · exact SessionError.ofTransport_ne_migration _ _ (Except.error.inj hdispatch)
    · exact receive_ne_migration hdispatch

variable (hdeclared : session.engine.registry.Declared)
include hdeclared

theorem ofValue_of_exchange {call : Call}
    (hfails : (RemoteFunction.exchange session.dispatcher call live).1 =
      .error (.migration cause)) : cause.OfValue := by
  rw [RemoteFunction.exchange_fst] at hfails
  rcases Outcome.bind_eq_error_iff.mp hfails with hdispatch | ⟨result, -, hsettle⟩
  · exact absurd hdispatch dispatch_ne_migration
  · obtain ⟨sent, update, -, hup⟩ := RemoteFunction.settle_eq_migration_iff.mp hsettle
    exact MigrationEngine.ofValue_of_migrateValue_upgrade hdeclared hup

theorem ofValue_of_jobs {function : RemoteFunction}
    (hfails : (function.jobs (some session.dispatcher) live).1 = .error (.migration cause)) :
    cause.OfValue := by
  rw [RemoteFunction.jobs] at hfails
  split at hfails
  · cases hfails
  · exact ofValue_of_exchange hdeclared hfails

variable (hspeaks : session.engine.Speaks session.protocol)
include hspeaks

/-- A call fails for the sake of migration on the way out, where the protocol is known,
or on the way back, where it is not asked for. -/
theorem ofValue_of_call {function : RemoteFunction} {arguments : Arguments}
    (hfails : (function.call (some session.dispatcher) arguments live).1 =
      .error (.migration cause)) : cause.OfValue := by
  rw [RemoteFunction.call_eq_run] at hfails
  cases hprepare : function.prepare session.dispatcher arguments live with
  | ended outcome after =>
      rw [hprepare] at hfails
      have houtcome : outcome = .error (.migration cause) := hfails
      rcases RemoteFunction.ended_of_prepare hprepare with
        rfl | ⟨_, rfl⟩ | ⟨_, checked, hmigrate, rfl⟩
      · cases houtcome
      · cases houtcome
      · cases houtcome
        exact MigrationEngine.ofValue_of_migrateArguments hdeclared hspeaks hmigrate
  | ready outgoing after =>
      rw [hprepare] at hfails
      exact ofValue_of_exchange hdeclared (Outcome.map_eq_error_iff.mp hfails)

theorem ofValue_of_callAt {path : String} {arguments : Arguments}
    (hfails : (session.call path arguments live).1 = .error (.migration cause)) :
    cause.OfValue := by
  rw [call] at hfails
  dsimp only at hfails
  split at hfails
  · rename_i hresolve
    cases hfails
    obtain ⟨_, _, heq⟩ := Namespace.exists_unknownMember_of_descend hresolve
    cases heq
  · cases hfails
  · exact ofValue_of_call hdeclared hspeaks hfails

theorem ofValue_of_index {space : Namespace} {place : Nat}
    (hfails : (space.index (some session.dispatcher) place live).1 =
      .error (.migration cause)) : cause.OfValue := by
  rw [Namespace.index] at hfails
  split at hfails
  · rename_i hgetAll
    cases hfails
    rw [Namespace.getAll] at hgetAll
    split at hgetAll
    · split at hgetAll
      · rename_i hcall
        cases hgetAll
        exact ofValue_of_call hdeclared hspeaks (congrArg Prod.fst hcall)
      · cases hgetAll
      · cases hgetAll
      · cases hgetAll
    · cases hgetAll
  · split at hfails <;> cases hfails

theorem neverFails_unknownProtocol (version : ProtocolVersion) :
    session.NeverFails (.migration (.unknownProtocol version)) where
  call _ _ _ hfails := (ofValue_of_call hdeclared hspeaks hfails).ne_unknownProtocol version rfl
  callAt _ _ _ hfails := (ofValue_of_callAt hdeclared hspeaks hfails).ne_unknownProtocol version rfl
  index _ _ _ hfails := (ofValue_of_index hdeclared hspeaks hfails).ne_unknownProtocol version rfl
  jobs _ _ hfails := (ofValue_of_jobs hdeclared hfails).ne_unknownProtocol version rfl

end Session

/-! ## Sessions that were logged in -/

/-- A login fails for want of a common protocol just if the service tells who it is and
nothing is shared with it.  If something is shared, the login enters at the greatest
version that is, which is the same in whatever order the versions are told and offered.
In a session that it returns, where no converter is a function of one's own, nothing fails
for not knowing the protocol. -/
theorem Login.negotiated_of_run (login : Login ω) (ids : IdSource) (world : ω) :
    ((login.run ids world).1 = .error .noCommonProtocol ↔
      ∃ metadata, (login.transport.identity login.key.verifyKey world).1 = .ok metadata ∧
        ∀ version, ¬ login.Shares metadata version) ∧
    ∀ metadata after,
      login.transport.identity login.key.verifyKey world = (.ok metadata, after) →
        (∀ (other : IdentityMetadata) (ours : List ProtocolVersion),
          other.supported.Perm metadata.supported → ours.Perm login.offered →
            other.negotiate ours = metadata.negotiate login.offered) ∧
        (∀ version, login.Shares metadata version →
          ∃ newest, IsGreatest {version | login.Shares metadata version} newest ∧
            metadata.negotiate login.offered = some newest ∧
              login.run ids world = login.enterAt metadata newest ids after) ∧
        ∀ session state, (login.run ids world).1 = .ok (session, state) →
          IsGreatest {version | login.Shares metadata version} session.protocol ∧
            (session.engine.registry.Declared →
              ∀ version, session.NeverFails (.migration (.unknownProtocol version))) := by
  refine ⟨run_eq_noCommonProtocol_iff, fun metadata after hidentity => ⟨?_, ?_, ?_⟩⟩
  · intro other ours hsupported hours
    exact IdentityMetadata.negotiate_congr (fun _ => hsupported.mem_iff) fun _ => hours.mem_iff
  · intro version hshares
    exact exists_enterAt_of_shares hidentity hshares
  · intro session state hrun
    obtain ⟨hgreatest, hengine⟩ := of_run_eq_ok hidentity hrun
    refine ⟨hgreatest, fun hdeclared version => ?_⟩
    apply Session.neverFails_unknownProtocol hdeclared
    rw [hengine]
    exact hgreatest.1.speaks

/-- The protocols of a caller who speaks four versions with the bell. -/
def carillonProtocols : DataProtocol :=
  ⟨SortedMap.ofList [(2, .empty), (3, .empty), (4, .empty)]⟩

/-- A caller who offers at most the third version to a bell that tells which ones it
speaks. -/
def carillonLogin (supported : List ProtocolVersion) : Login Unit where
  transport := {
    send := bellLogin.transport.send
    identity _ world := (.ok { bell with supported := supported }, world)
    catalog _ _ world := (.ok default, world)
    obtainable_of_send := bellLogin.transport.obtainable_of_send }
  key := bellLogin.key
  engine := ⟨.empty, carillonProtocols, 1000⟩
  prompter := .declineAll
  newest := .stable 3
  pin := true

/-- Of two versions in common the greater one is spoken, though it is neither the first
nor the last that is told; with a bell that speaks none of the versions that are offered,
there is no session. -/
theorem Login.negotiated_of_run_carillon :
    (∃ session state,
      ((carillonLogin [.stable 2, .dev, .stable 3, .stable 2]).run default ()).1 =
          .ok (session, state) ∧
        session.protocol = .stable 3 ∧
          ∀ version, session.NeverFails (.migration (.unknownProtocol version))) ∧
    ((carillonLogin [.dev, .stable 4]).run default ()).1 = .error .noCommonProtocol := by
  constructor
  · obtain ⟨session, state, hrun⟩ : ∃ session state,
        ((carillonLogin [.stable 2, .dev, .stable 3, .stable 2]).run default ()).1 =
          .ok (session, state) := ⟨_, _, rfl⟩
    obtain ⟨hgreatest, hnever⟩ :=
      (((carillonLogin [.stable 2, .dev, .stable 3, .stable 2]).negotiated_of_run default ()).2
        _ () rfl).2.2 session state hrun
    have hthird : (carillonLogin [.stable 2, .dev, .stable 3, .stable 2]).Shares
        { bell with supported := [.stable 2, .dev, .stable 3, .stable 2] } (.stable 3) :=
      ⟨by decide, ProtocolVersion.atMost_iff_le.mp (by decide), .inr ⟨3, rfl, by decide⟩⟩
    have hprotocol : session.protocol = .stable 3 :=
      ProtocolVersion.le_antisymm hgreatest.1.le_newest (hgreatest.2 hthird)
    have hengine : session.engine = (carillonLogin []).engine := (of_run_eq_ok rfl hrun).2
    exact ⟨session, state, hrun, hprotocol, hnever (hengine ▸ nofun)⟩
  · apply ((carillonLogin [.dev, .stable 4]).negotiated_of_run default ()).1.mpr
    refine ⟨_, rfl, fun version hshares => ?_⟩
    have hoffered := ProtocolVersion.atMost_iff_le.mpr hshares.le_newest
    rcases List.mem_pair.mp hshares.told with rfl | rfl
    · exact absurd hoffered (by decide)
    · exact absurd hoffered (by decide)

end RemoteCall
