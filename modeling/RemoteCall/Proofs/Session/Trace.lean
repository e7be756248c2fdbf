import RemoteCall.Proofs.Catalog.Check
import RemoteCall.Proofs.Operation.Tree
import RemoteCall.Proofs.Session.Entry
import RemoteCall.Proofs.Session.Reachable

/-!
# What a trace tells

From its login on, a session is asked to do one thing after the other, and traces are
begun and ended in between.  A trace that is ended tells which calls of library functions
were entered since it was begun, in their order, and nothing else.  Each is told as the
action that was sent, under the path that the session shows the function for.
-/

namespace RemoteCall

variable {ω : Type} {session : Session ω} {function : RemoteFunction}
  {arguments : Arguments} {live : Live ω} {action : Action}

/-! ## One request -/

namespace Session

/-- The call that a request comes to, and the state that it is made in. -/
inductive Request.Calls (live : Live ω) :
    Request ω → RemoteFunction → Arguments → Live ω → Prop where
  | call (function : RemoteFunction) (arguments : Arguments) :
      Calls live (.call function arguments) function arguments live
  | callAt {path : String} {function : RemoteFunction} (arguments : Arguments)
      (hresolve : Namespace.resolve (live.state.tree .services).1 path =
        .ok (.function function)) :
      Calls live (.callAt path arguments) function arguments
        { live with state := (live.state.tree .services).2 }

/-- The request comes to a call that is entered as the action. -/
def Enters (session : Session ω) (live : Live ω) (request : Request ω) (action : Action) :
    Prop :=
  ∃ function arguments calling, request.Calls live function arguments calling ∧
    function.Enters session arguments calling action

theorem perform_of_calls {request : Request ω} {calling : Live ω}
    (hcalls : request.Calls live function arguments calling) :
    session.perform request live =
      (function.call (some session.dispatcher) arguments calling).2 := by
  cases hcalls with
  | call => rfl
  | callAt _ hresolve =>
      rw [perform, Session.call]
      dsimp only
      rw [hresolve]

theorem trace_of_calls {request : Request ω} {calling : Live ω}
    (hcalls : request.Calls live function arguments calling) :
    calling.state.trace = live.state.trace := by
  cases hcalls with
  | call => rfl
  | callAt => exact live.state.trace_tree .services

theorem trace_perform_of_enters {request : Request ω}
    (henters : session.Enters live request action) :
    (session.perform request live).state.trace = live.state.trace.map (· ++ [action]) := by
  obtain ⟨function, arguments, calling, hcalls, henters⟩ := henters
  rw [perform_of_calls hcalls, RemoteFunction.trace_call_of_enters henters,
    trace_of_calls hcalls]

/-- Calls that are not entered, and all else but to begin or to end a trace, leave the
trace alone. -/
theorem trace_perform_of_not_enters {request : Request ω} (hbegin : request ≠ .beginTrace)
    (hend : request ≠ .endTrace) (hnone : ∀ action, ¬ session.Enters live request action) :
    (session.perform request live).state.trace = live.state.trace := by
  cases request with
  | tree branch => exact live.state.trace_tree branch
  | hasMember branch name => exact live.state.trace_tree branch
  | callAt path arguments =>
      have htree := live.state.trace_tree .services
      rw [perform, Session.call]
      dsimp only
      split
      · exact htree
      · exact htree
      · rename_i function hresolve
        rw [RemoteFunction.trace_call_of_not_enters]
        · exact htree
        · intro action henters
          exact hnone action ⟨_, _, _, .callAt arguments hresolve, henters⟩
  | call function arguments =>
      rw [perform, RemoteFunction.trace_call_of_not_enters]
      intro action henters
      exact hnone action ⟨_, _, _, .call function arguments, henters⟩
  | jobs function => exact session.trace_jobs function live
  | refresh => exact session.trace_refresh live
  | replaceCatalog catalog => exact session.trace_replaceCatalog catalog live.state
  | onRefresh action => rfl
  | beginTrace => exact absurd rfl hbegin
  | endTrace => exact absurd rfl hend
  | wait act => rfl

/-! ## Whole runs -/

/-- The session at work after it did one thing after the other. -/
def performAll (session : Session ω) (requests : List (Request ω)) (live : Live ω) : Live ω :=
  requests.foldl (fun live request => session.perform request live) live

/-- The actions that the calls among some requests are entered as, in their order. -/
inductive Recorded (session : Session ω) : Live ω → List (Request ω) → List Action → Prop where
  | nil (live : Live ω) : Recorded session live [] []
  | entered {live : Live ω} {request : Request ω} {requests : List (Request ω)}
      {action : Action} {actions : List Action}
      (henters : session.Enters live request action)
      (hrest : Recorded session (session.perform request live) requests actions) :
      Recorded session live (request :: requests) (action :: actions)
  | passed {live : Live ω} {request : Request ω} {requests : List (Request ω)}
      {actions : List Action} (hnone : ∀ action, ¬ session.Enters live request action)
      (hrest : Recorded session (session.perform request live) requests actions) :
      Recorded session live (request :: requests) actions

theorem exists_recorded (session : Session ω) (requests : List (Request ω)) (live : Live ω) :
    ∃ actions, session.Recorded live requests actions := by
  induction requests generalizing live with
  | nil => exact ⟨[], .nil live⟩
  | cons request rest ih =>
      obtain ⟨actions, hrest⟩ := ih (session.perform request live)
      by_cases hentered : ∃ action, session.Enters live request action
      · obtain ⟨action, henters⟩ := hentered
        exact ⟨action :: actions, .entered henters hrest⟩
      · exact ⟨actions, .passed (not_exists.mp hentered) hrest⟩

/-- As long as no trace is begun or ended, the trace grows by what is recorded. -/
theorem Recorded.trace_eq {requests : List (Request ω)} {actions : List Action}
    (hrecorded : session.Recorded live requests actions)
    (hbegin : Request.beginTrace ∉ requests) (hend : Request.endTrace ∉ requests) :
    (session.performAll requests live).state.trace =
      live.state.trace.map (· ++ actions) := by
  induction hrecorded with
  | nil live => simp [performAll]
  | entered henters hrest ih =>
      rw [List.mem_cons, not_or] at hbegin hend
      rw [performAll, List.foldl_cons]
      rw [← performAll, ih hbegin.2 hend.2, trace_perform_of_enters henters, Option.map_map]
      congr 1
      funext past
      rw [Function.comp_apply, List.append_assoc, List.singleton_append]
  | passed hnone hrest ih =>
      rw [List.mem_cons, not_or] at hbegin hend
      rw [performAll, List.foldl_cons]
      rw [← performAll, ih hbegin.2 hend.2,
        trace_perform_of_not_enters (Ne.symm hbegin.1) (Ne.symm hend.1) hnone]

theorem performAll_append (session : Session ω) (earlier later : List (Request ω))
    (live : Live ω) :
    session.performAll (earlier ++ later) live =
      session.performAll later (session.performAll earlier live) :=
  List.foldl_append

/-- What is told at the end of a trace that was begun is what was recorded since. -/
theorem endTrace_eq_iff {requests : List (Request ω)} {actions : List Action}
    (htrace : live.state.trace = some []) (hbegin : Request.beginTrace ∉ requests)
    (hend : Request.endTrace ∉ requests) :
    (session.performAll requests live).state.endTrace.1 = actions ↔
      session.Recorded live requests actions := by
  have htold : ∀ {recorded}, session.Recorded live requests recorded →
      (session.performAll requests live).state.endTrace.1 = recorded := by
    intro recorded hrecorded
    rw [SessionState.endTrace, hrecorded.trace_eq hbegin hend, htrace]
    rfl
  constructor
  · intro heq
    obtain ⟨recorded, hrecorded⟩ := session.exists_recorded requests live
    rw [← heq, htold hrecorded]
    exact hrecorded
  · exact htold

/-- Where no trace is taken there is nothing to tell. -/
theorem endTrace_eq_nil {requests : List (Request ω)} (htrace : live.state.trace = none)
    (hbegin : Request.beginTrace ∉ requests) (hend : Request.endTrace ∉ requests) :
    (session.performAll requests live).state.endTrace.1 = [] := by
  obtain ⟨recorded, hrecorded⟩ := session.exists_recorded requests live
  rw [SessionState.endTrace, hrecorded.trace_eq hbegin hend, htrace]
  rfl

/-! ## Functions that a session shows -/

/-- The session is at its beginning. -/
def Starts (login : Login ω) (session : Session ω) (live : Live ω) : Prop :=
  ∃ metadata protocol catalog ids,
    login.build metadata protocol catalog ids = .ok (session, live.state)

/-- Logging in comes to a session at its beginning, so what is shown of these holds of every
session that is logged in. -/
theorem starts_of_run {login : Login ω} {ids : IdSource} {state : SessionState ω}
    {world after : ω} (hrun : login.run ids world = (.ok (session, state), after)) :
    Starts login session ⟨state, after⟩ := by
  obtain ⟨metadata, protocol, catalog, hbuild⟩ := Login.exists_build_of_run hrun
  exact ⟨metadata, protocol, catalog, ids, hbuild⟩

theorem Starts.reachable {login : Login ω} (hstarts : Starts login session live) :
    Reachable login session live := by
  obtain ⟨metadata, protocol, catalog, ids, hbuild⟩ := hstarts
  exact .built hbuild live.world

theorem Starts.trace_eq {login : Login ω} (hstarts : Starts login session live) :
    live.state.trace = none := by
  obtain ⟨metadata, protocol, catalog, ids, hbuild⟩ := hstarts
  rw [Login.build] at hbuild
  split at hbuild
  · cases hbuild
  · have hstate := (Prod.mk.inj (Except.ok.inj hbuild)).2
    rw [← hstate]
    rfl

/-- The function stands in a tree that the session comes to show. -/
def Shows (login : Login ω) (session : Session ω) (function : RemoteFunction) : Prop :=
  ∃ live branch names, Reachable login session live ∧
    (OperationNode.space (live.state.tree branch).1).at? names = some (.function function)

theorem exists_endpoint_of_at? {endpoints : SortedMap String Endpoint} {kind : FunctionKind}
    {names : List String}
    (hat : (OperationNode.space (OperationTree.ofEndpoints
      (endpoints.values.map fun endpoint => (endpoint, kind))).1).at? names =
        some (.function function)) :
    ∃ listed ∈ endpoints.entries, function.endpoint.modulePath = listed.2.modulePath := by
  obtain ⟨entry, hmem, rfl⟩ := OperationTree.holds_ofEndpoints.exists_entry hat
  obtain ⟨endpoint, hendpoint, rfl⟩ := List.mem_map.mp hmem
  obtain ⟨listed, hlisted, rfl⟩ := List.mem_map.mp hendpoint
  exact ⟨listed, hlisted, rfl⟩

/-- A function that is shown has a dotted path, since the catalog was checked for that. -/
theorem isValid_of_shows {login : Login ω} (hshows : Shows login session function) :
    Path.isValid function.endpoint.modulePath := by
  obtain ⟨live, branch, names, hreachable, hat⟩ := hshows
  have hsound := hreachable.sound
  have husable := Catalog.check_eq_ok_iff.mp hsound.check_eq
  have hlisted : ∃ listed ∈ live.state.catalog.allEndpoints,
      function.endpoint.modulePath = listed.2.modulePath := by
    rw [hsound.tree_fst] at hat
    cases branch with
    | services =>
        obtain ⟨listed, hlisted, hpath⟩ := exists_endpoint_of_at? hat
        exact ⟨listed, List.mem_append_left _ hlisted, hpath⟩
    | libs =>
        obtain ⟨listed, hlisted, hpath⟩ := exists_endpoint_of_at? hat
        exact ⟨listed, List.mem_append_right _ hlisted, hpath⟩
  obtain ⟨listed, hmem, hpath⟩ := hlisted
  rw [hpath]
  exact (husable listed hmem).modulePath

theorem fullPath_of_enters {login : Login ω} (hshows : Shows login session function)
    (henters : function.Enters session arguments live action) :
    action.fullPath = function.endpoint.modulePath := by
  obtain ⟨migrated, -, rfl⟩ := henters.carries
  exact Action.fullPath_function (isValid_of_shows hshows) _ _ _

/-- To end a trace tells the calls of library functions since the last trace was begun,
each once and in their order, those that passed their checks and that the user let go
out.  Where no trace was begun, or the last one was ended, it tells of nothing.  Of each
such call that is sent, the action can be read back from what is sent; and if the
function is one that the session shows, the action has its path. -/
theorem endTrace_eq_iff_recorded {login : Login ω} {session : Session ω} {start : Live ω}
    {later : List (Request ω)} (hstarts : Starts login session start)
    (hbegin : Request.beginTrace ∉ later) (hend : Request.endTrace ∉ later) :
    (∀ earlier actions,
      (session.performAll (earlier ++ .beginTrace :: later) start).state.endTrace.1 = actions ↔
        session.Recorded (session.performAll (earlier ++ [.beginTrace]) start) later actions) ∧
    (∀ earlier,
      (session.performAll (earlier ++ .endTrace :: later) start).state.endTrace.1 = []) ∧
    (session.performAll later start).state.endTrace.1 = [] ∧
    ∀ (function : RemoteFunction) (arguments : Arguments) (live : Live ω) (action : Action),
      function.Enters session arguments live action →
        (∀ past, ∃ events,
          function.call (some session.watchedDispatcher) arguments (live.watched past) =
              ((function.call (some session.dispatcher) arguments live).1,
                (function.call (some session.dispatcher) arguments live).2.watched
                  (past ++ events)) ∧
            ∀ envelope ∈ events.filterMap SessionEvent.envelope?,
              session.SendsAction action envelope) ∧
        (Shows login session function → action.fullPath = function.endpoint.modulePath) := by
  refine ⟨?_, ?_, endTrace_eq_nil hstarts.trace_eq hbegin hend, ?_⟩
  · intro earlier actions
    rw [List.append_cons, performAll_append]
    apply endTrace_eq_iff _ hbegin hend
    rw [performAll_append]
    rfl
  · intro earlier
    rw [List.append_cons, performAll_append]
    apply endTrace_eq_nil _ hbegin hend
    rw [performAll_append]
    rfl
  · intro function arguments live action henters
    constructor
    · intro past
      exact ⟨function.callEvents session arguments live, RemoteFunction.call_watched,
        fun envelope hsent => RemoteFunction.sendsAction_of_enters henters hsent⟩
    · intro hshows
      exact fullPath_of_enters hshows henters

end Session

/-! ## A session with an abacus -/

/-- A library function that sums up what it is given. -/
def addUpEndpoint : Endpoint :=
  { Endpoint.new default libDispatchPath ⟨[.varPositional "items" .any], none⟩ with
    modulePath := "numpy.sum"
    name := "sum" }

/-- The function as it is called. -/
def addUp : RemoteFunction := .ofEndpoint "numpy.sum" addUpEndpoint .lib

/-- The session of the bell, where the library function is offered, too. -/
def abacusStart : Live Unit where
  state := .new { bellCatalog with
    libEndpoints := SortedMap.empty.insert "numpy.sum" addUpEndpoint } default
  world := ()

/-- A sum is made while an earlier trace is taken. -/
def abacusEarlier : List (Session.Request Unit) :=
  [.beginTrace, .call addUp ⟨[.int 7], .empty⟩]

/-- The bell is rung, a sum is refused for an argument that it does not take, and another
one is made. -/
def abacusLater : List (Session.Request Unit) :=
  [.call ring ⟨[], .empty⟩, .call addUp ⟨[], SortedMap.empty.insert "axis" (.int 0)⟩,
    .call addUp ⟨[.int 1, .int 2], .empty⟩]

theorem starts_abacus : Session.Starts bellLogin bellSession abacusStart :=
  ⟨bell, .dev, abacusStart.state.catalog, default, rfl⟩

theorem shows_addUp : Session.Shows bellLogin bellSession addUp :=
  ⟨abacusStart, .libs, ["numpy", "sum"], starts_abacus.reachable, rfl⟩

theorem enters_addUp (live : Live Unit) :
    addUp.Enters bellSession ⟨[.int 1, .int 2], .empty⟩ live
      (.function live.freshIds.1.1 live.freshIds.1.2 "numpy.sum"
        ⟨[.int 1, .int 2], .empty⟩) where
  kind_eq := rfl
  controlled := nofun
  validate_eq := rfl
  agreed := fun ⟨_, hwarning, _⟩ => nomatch hwarning
  carries := ⟨_, rfl, rfl⟩

theorem Session.recorded_abacus (live : Live Unit) :
    ∃ calling : Live Unit, bellSession.Recorded live abacusLater
      [.function calling.freshIds.1.1 calling.freshIds.1.2 "numpy.sum"
        ⟨[.int 1, .int 2], .empty⟩] := by
  refine ⟨_, .passed ?_ (.passed ?_ (.entered ⟨_, _, _, .call _ _, enters_addUp _⟩ (.nil _)))⟩
  · rintro action ⟨_, _, _, hcalls, henters⟩
    cases hcalls
    cases henters.kind_eq
  · rintro action ⟨_, _, _, hcalls, henters⟩
    cases hcalls
    cases henters.validate_eq

theorem Session.endTrace_eq_iff_recorded_abacus :
    Session.Starts bellLogin bellSession abacusStart ∧
      Request.beginTrace ∉ abacusLater ∧ Request.endTrace ∉ abacusLater ∧
      ∃ action,
        (bellSession.performAll (abacusEarlier ++ .beginTrace :: abacusLater)
            abacusStart).state.endTrace.1 = [action] ∧
          action.arguments = ⟨[.int 1, .int 2], .empty⟩ ∧ action.fullPath = "numpy.sum" := by
  have hbegin : Request.beginTrace ∉ abacusLater := by simp [abacusLater]
  have hend : Request.endTrace ∉ abacusLater := by simp [abacusLater]
  obtain ⟨htold, -, -, hsent⟩ := endTrace_eq_iff_recorded starts_abacus hbegin hend
  obtain ⟨calling, hrecorded⟩ := recorded_abacus
    (bellSession.performAll (abacusEarlier ++ [.beginTrace]) abacusStart)
  exact ⟨starts_abacus, hbegin, hend, _, (htold abacusEarlier _).mpr hrecorded, rfl,
    (hsent _ _ _ _ (enters_addUp calling)).2 shows_addUp⟩

end RemoteCall
