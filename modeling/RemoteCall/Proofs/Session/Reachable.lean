import RemoteCall.Proofs.Session.Answers
import RemoteCall.Proofs.Session.View

/-!
# Sessions in use

From the login on, a session is asked for its trees, makes calls, gets catalogs and is
told what to do about a refresh, in any order, while the world goes on around it.  In
every state that it comes to that way its catalog is a usable one of its service, and
the trees that it keeps were built from that very catalog.
-/

namespace RemoteCall

open SessionState (SameView)

variable {ω : Type}

theorem ServiceIdentity.checkCatalog_eq_ok_iff {service : ServiceIdentity}
    {catalog : Catalog} :
    service.checkCatalog catalog = .ok () ↔
      catalog.service = service.id ∧ catalog.check = .ok () := by
  rw [ServiceIdentity.checkCatalog]
  split
  · rename_i hservice
    rw [Outcome.mapError_eq_ok_iff]
    simp [hservice]
  · rename_i hforeign
    simp [hforeign]

namespace SessionState

/-- The catalog is a usable one of the service, and the trees are those of the catalog. -/
structure Sound (service : ServiceIdentity) (state : SessionState ω) : Prop where
  service_eq : state.catalog.service = service.id
  check_eq : state.catalog.check = .ok ()
  tree_eq : ∀ branch tree, state.cached? branch = some tree →
    tree = (branch.treeOf state.catalog).1

/-- The catalog was put in place, and no tree is kept. -/
structure Renewed (catalog : Catalog) (state : SessionState ω) : Prop where
  catalog_eq : state.catalog = catalog
  cached?_eq : ∀ branch, state.cached? branch = none

variable {service : ServiceIdentity} {state after : SessionState ω} {catalog : Catalog}

theorem Sound.of_sameView (hsound : state.Sound service) (hview : SameView state after) :
    after.Sound service where
  service_eq := hview.catalog ▸ hsound.service_eq
  check_eq := hview.catalog ▸ hsound.check_eq
  tree_eq branch tree hcached := by
    rw [hview.cached?_eq] at hcached
    rw [hview.catalog]
    exact hsound.tree_eq branch tree hcached

theorem Renewed.sound (hrenewed : state.Renewed catalog)
    (hcheck : service.checkCatalog catalog = .ok ()) : state.Sound service := by
  obtain ⟨hservice, husable⟩ := ServiceIdentity.checkCatalog_eq_ok_iff.mp hcheck
  refine ⟨hrenewed.catalog_eq ▸ hservice, hrenewed.catalog_eq ▸ husable, ?_⟩
  intro branch tree hcached
  cases (hrenewed.cached?_eq branch).symm.trans hcached

theorem renewed_new (catalog : Catalog) (ids : IdSource) :
    (SessionState.new catalog ids : SessionState ω).Renewed catalog where
  catalog_eq := rfl
  cached?_eq branch := by cases branch <;> rfl

/-! ## Trees -/

theorem cached?_cache (state : SessionState ω) (kept asked : Branch) (tree : OperationTree) :
    (state.cache kept tree).cached? asked =
      if asked = kept then some tree else state.cached? asked := by
  cases kept <;> cases asked <;> rfl

theorem catalog_cache (state : SessionState ω) (branch : Branch) (tree : OperationTree) :
    (state.cache branch tree).catalog = state.catalog := by
  cases branch <;> rfl

/-- The tree that is shown is that of the catalog, kept or not. -/
theorem Sound.tree_fst (hsound : state.Sound service) (branch : Branch) :
    (state.tree branch).1 = (branch.treeOf state.catalog).1 := by
  rw [SessionState.tree]
  split
  · rename_i hcached
    exact hsound.tree_eq branch _ hcached
  · rfl

theorem Sound.tree_snd (hsound : state.Sound service) (branch : Branch) :
    (state.tree branch).2.Sound service := by
  rw [SessionState.tree]
  split
  · exact hsound
  · refine ⟨?_, ?_, ?_⟩
    · rw [catalog_cache]
      exact hsound.service_eq
    · rw [catalog_cache]
      exact hsound.check_eq
    · intro asked tree hcached
      rw [cached?_cache] at hcached
      rw [catalog_cache]
      split at hcached
      · rename_i hsame
        cases hcached
        rw [hsame]
      · -- The notices that were left do not show in the trees.
        have hkept : state.cached? asked = some tree := by
          cases asked <;> exact hcached
        exact hsound.tree_eq asked tree hkept

end SessionState

namespace Login

variable {login : Login ω} {ids : IdSource} {session : Session ω} {state : SessionState ω}

theorem sound_of_build {metadata : IdentityMetadata} {protocol : ProtocolVersion}
    {catalog : Catalog}
    (hbuild : login.build metadata protocol catalog ids = .ok (session, state)) :
    state.Sound session.service := by
  rw [build] at hbuild
  split at hbuild
  · cases hbuild
  · rename_i hcheck
    cases hbuild
    exact (SessionState.renewed_new catalog ids).sound hcheck

theorem exists_build_of_run {world after : ω}
    (hrun : login.run ids world = (.ok (session, state), after)) :
    ∃ metadata protocol catalog,
      login.build metadata protocol catalog ids = .ok (session, state) := by
  simp only [run] at hrun
  split at hrun
  · cases hrun
  · split at hrun
    · cases hrun
    · split at hrun
      · cases hrun
      · exact ⟨_, _, _, congrArg Prod.fst hrun⟩

end Login

namespace Session

variable {session : Session ω}

/-! ## Catalogs that are put in place -/

/-- An attempt to put a catalog in place fails and changes nothing, or puts in place
one that may be expected and forgets the trees. -/
structure Replaces (expected : Catalog → Prop) (before : SessionState ω)
    (outcome : Except SessionError Unit) (after : SessionState ω) : Prop where
  of_error : ∀ e, outcome = .error e → after = before
  of_ok : outcome = .ok () → ∃ catalog, expected catalog ∧ after.Renewed catalog

theorem replaceCatalog_eq (session : Session ω) (catalog : Catalog) (state : SessionState ω) :
    (∃ e, session.replaceCatalog catalog state = (.error e, state)) ∨
      ∃ after, session.replaceCatalog catalog state = (.ok (), after) ∧
        after.Renewed catalog ∧ session.service.checkCatalog catalog = .ok () := by
  rw [replaceCatalog]
  split
  · exact .inl ⟨_, rfl⟩
  · rename_i hcheck
    exact .inr ⟨_, rfl, ⟨rfl, fun branch => by cases branch <;> rfl⟩, hcheck⟩

theorem refresh_eq (session : Session ω) (live : Live ω) :
    (∃ e world, session.refresh live = (.error e, { live with world })) ∨
      ∃ catalog after,
        (session.transport.catalog session.caller session.protocol live.world).1 =
            .ok catalog ∧
          session.refresh live = (.ok (), after) ∧ after.state.Renewed catalog ∧
            session.service.checkCatalog catalog = .ok () := by
  rw [refresh]
  split
  · exact .inl ⟨_, _, rfl⟩
  · rename_i catalog world hcatalog
    rcases session.replaceCatalog_eq catalog live.state with
      ⟨e, hreplace⟩ | ⟨after, hreplace, hrenewed, hcheck⟩
    · rw [hreplace]
      exact .inl ⟨e, world, rfl⟩
    · rw [hreplace]
      exact .inr ⟨catalog, ⟨after, world⟩, congrArg Prod.fst hcatalog, rfl, hrenewed, hcheck⟩

theorem replaces_replaceCatalog (session : Session ω) (catalog : Catalog)
    (state : SessionState ω) :
    Replaces (· = catalog) state (session.replaceCatalog catalog state).1
      (session.replaceCatalog catalog state).2 := by
  rcases session.replaceCatalog_eq catalog state with
    ⟨e, hreplace⟩ | ⟨after, hreplace, hrenewed, -⟩
  · rw [hreplace]
    exact ⟨fun _ _ => rfl, nofun⟩
  · rw [hreplace]
    exact ⟨nofun, fun _ => ⟨catalog, rfl, hrenewed⟩⟩

theorem replaces_refresh (session : Session ω) (live : Live ω) :
    Replaces
      (fun catalog =>
        (session.transport.catalog session.caller session.protocol live.world).1 =
          .ok catalog)
      live.state (session.refresh live).1 (session.refresh live).2.state := by
  rcases session.refresh_eq live with
    ⟨e, world, hrefresh⟩ | ⟨catalog, after, hcatalog, hrefresh, hrenewed, -⟩
  · rw [hrefresh]
    exact ⟨fun _ _ => rfl, nofun⟩
  · rw [hrefresh]
    exact ⟨nofun, fun _ => ⟨catalog, hcatalog, hrenewed⟩⟩

/-! ## One step -/

/-- What a session is asked to do. -/
inductive Request (ω : Type) where
  | tree (branch : Branch)
  | hasMember (branch : Branch) (name : String)
  /-- Call the operation at a path. -/
  | callAt (path : String) (arguments : Arguments)
  /-- Call a function, be it from a tree that is no longer kept. -/
  | call (function : RemoteFunction) (arguments : Arguments)
  | jobs (function : RemoteFunction)
  | refresh
  | replaceCatalog (catalog : Catalog)
  /-- Set what is done about a refresh. -/
  | onRefresh (action : RefreshAction ω)
  | beginTrace
  | endTrace
  /-- Nothing, while the world goes on. -/
  | wait (act : ω → ω)

/-- The session at work after it did what it was asked. -/
def perform (session : Session ω) (request : Request ω) (live : Live ω) : Live ω :=
  match request with
  | .tree branch => live.modify fun state => (state.tree branch).2
  | .hasMember branch name => live.modify fun state => (state.hasMember branch name).2
  | .callAt path arguments => (session.call path arguments live).2
  | .call function arguments => (function.call (some session.dispatcher) arguments live).2
  | .jobs function => (function.jobs (some session.dispatcher) live).2
  | .refresh => (session.refresh live).2
  | .replaceCatalog catalog =>
    live.modify fun state => (session.replaceCatalog catalog state).2
  | .onRefresh action => live.modify fun state => { state with onRefresh := action }
  | .beginTrace => live.modify (·.beginTrace)
  | .endTrace => live.modify fun state => state.endTrace.2
  | .wait act => { live with world := act live.world }

variable {live after : Live ω}

theorem sound_refresh (hsound : live.state.Sound session.service) :
    (session.refresh live).2.state.Sound session.service := by
  rcases session.refresh_eq live with
    ⟨e, world, hrefresh⟩ | ⟨catalog, after, -, hrefresh, hrenewed, hcheck⟩
  · rw [hrefresh]
    exact hsound
  · rw [hrefresh]
    exact hrenewed.sound hcheck

theorem sound_requestRefresh (hsound : live.state.Sound session.service) :
    (session.requestRefresh live).state.Sound session.service := by
  have hrefresh := sound_refresh hsound
  rw [requestRefresh]
  split
  · exact hsound
  · exact hsound
  · split
    · rename_i hrefreshed
      rw [hrefreshed] at hrefresh
      exact hrefresh
    · rename_i hrefreshed
      rw [hrefreshed] at hrefresh
      exact hrefresh.of_sameView (Live.noted_notify _ _).toSameView

theorem ViewAfter.sound (hafter : session.ViewAfter live after)
    (hsound : live.state.Sound session.service) : after.state.Sound session.service := by
  rcases hafter with hview | ⟨last, hview, rfl⟩
  · exact hsound.of_sameView hview
  · exact sound_requestRefresh (hsound.of_sameView hview)

theorem sound_call {path : String} {arguments : Arguments}
    (hsound : live.state.Sound session.service) :
    (session.call path arguments live).2.state.Sound session.service := by
  have htree := hsound.tree_snd .services
  rw [call]
  dsimp only
  split
  · exact htree
  · exact htree
  · exact (session.viewAfter_call _ arguments _).sound htree

/-- Whatever a session is asked to do, its state stays sound. -/
theorem sound_perform (request : Request ω) (hsound : live.state.Sound session.service) :
    (session.perform request live).state.Sound session.service := by
  cases request with
  | tree branch => exact hsound.tree_snd branch
  | hasMember branch name => exact hsound.tree_snd branch
  | callAt path arguments => exact sound_call hsound
  | call function arguments =>
      exact (session.viewAfter_call function arguments live).sound hsound
  | jobs function => exact (session.viewAfter_jobs function live).sound hsound
  | refresh => exact sound_refresh hsound
  | replaceCatalog catalog =>
      rw [perform, Live.modify]
      rcases session.replaceCatalog_eq catalog live.state with
        ⟨e, hreplace⟩ | ⟨after, hreplace, hrenewed, hcheck⟩
      · rw [hreplace]
        exact hsound
      · rw [hreplace]
        exact hrenewed.sound hcheck
  | onRefresh action => exact ⟨hsound.service_eq, hsound.check_eq, fun branch tree hcached =>
      hsound.tree_eq branch tree (by cases branch <;> exact hcached)⟩
  | beginTrace => exact hsound.of_sameView ⟨rfl, rfl, rfl, rfl⟩
  | endTrace => exact hsound.of_sameView ⟨rfl, rfl, rfl, rfl⟩
  | wait act => exact hsound

/-! ## Whole runs -/

/-- The states that sessions come to which were made of a login. -/
inductive Reachable (login : Login ω) : Session ω → Live ω → Prop where
  | built {metadata : IdentityMetadata} {protocol : ProtocolVersion} {catalog : Catalog}
      {ids : IdSource} {session : Session ω} {state : SessionState ω}
      (hbuild : login.build metadata protocol catalog ids = .ok (session, state)) (world : ω) :
      Reachable login session ⟨state, world⟩
  | loggedIn {ids : IdSource} {session : Session ω} {state : SessionState ω} {world after : ω}
      (hrun : login.run ids world = (.ok (session, state), after)) :
      Reachable login session ⟨state, after⟩
  | performed {session : Session ω} {live : Live ω} (request : Request ω)
      (hreachable : Reachable login session live) :
      Reachable login session (session.perform request live)

theorem Reachable.sound {login : Login ω} (hreachable : Reachable login session live) :
    live.state.Sound session.service := by
  induction hreachable with
  | built hbuild world => exact Login.sound_of_build hbuild
  | loggedIn hrun =>
      obtain ⟨metadata, protocol, catalog, hbuild⟩ := Login.exists_build_of_run hrun
      exact Login.sound_of_build hbuild
  | performed request _ ih => exact sound_perform request ih

/-- Wherever a session comes to from its login, its catalog is a usable one of its
service, and every tree that it keeps or shows is that of the catalog.  Putting a catalog in
place or fetching it anew from there on leaves the state as it was if it fails; if it
does not, the catalog that was given or fetched is in place, and no tree is kept. -/
theorem sound_of_reachable {login : Login ω} {session : Session ω} {live : Live ω}
    (hreachable : Reachable login session live) :
    live.state.Sound session.service ∧
      (∀ branch, (live.state.tree branch).1 = (branch.treeOf live.state.catalog).1) ∧
      (∀ catalog, Replaces (· = catalog) live.state
        (session.replaceCatalog catalog live.state).1
        (session.replaceCatalog catalog live.state).2) ∧
      Replaces
        (fun catalog =>
          (session.transport.catalog session.caller session.protocol live.world).1 =
            .ok catalog)
        live.state (session.refresh live).1 (session.refresh live).2.state :=
  ⟨hreachable.sound, hreachable.sound.tree_fst,
    fun catalog => session.replaces_replaceCatalog catalog live.state,
    session.replaces_refresh live⟩

end Session

/-- The catalog with the operation that rings the bell. -/
def bellCatalog : Catalog :=
  { (default : Catalog) with endpoints := SortedMap.empty.insert ring.path ring.endpoint }

/-- The session after its catalog was replaced and its operations were shown. -/
def bellShown : Live Unit :=
  bellSession.perform (.tree .services)
    (bellSession.perform (.replaceCatalog bellCatalog) bellStart)

theorem reachable_bellShown : Session.Reachable bellLogin bellSession bellShown :=
  .performed _ (.performed _ (.built build_bell ()))

theorem Session.sound_of_reachable_bellShown :
    Session.Reachable bellLogin bellSession bellShown ∧
      ∃ tree, bellShown.state.services = some tree ∧
        tree = (OperationTree.ofServices bellCatalog).1 ∧ Namespace.contains tree "ring" := by
  have hkept : bellShown.state.services = some (OperationTree.ofServices bellCatalog).1 := rfl
  exact ⟨reachable_bellShown, _, hkept,
    (Session.sound_of_reachable reachable_bellShown).1.tree_eq .services _ hkept, by decide⟩

end RemoteCall
