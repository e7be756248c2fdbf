import RemoteCall.Proofs.Session.View

/-!
# Watched sessions

Whatever world a session acts on, one can write down beside it what the session hands
to the transport, when it fetches the catalog, when a refresh is asked for, and when
what was set to act on a refresh is run.  Watching changes nothing: a watched session
comes to the same outcomes and states as the session itself.  What is written down in
one call is told in closed form.
-/

namespace RemoteCall

variable {ω : Type}

/-- Something that a session does. -/
inductive SessionEvent where
  /-- An envelope is handed to the transport. -/
  | sent (envelope : Envelope Call)
  /-- The catalog is fetched from the service. -/
  | fetched
  /-- The session is asked for a refresh, whatever is then done about it. -/
  | asked
  /-- What was set to act on the world at a refresh is run. -/
  | ran

/-- A world, and what a session was seen to do to it, the latest last. -/
structure Watched (ω : Type) where
  world : ω
  events : List SessionEvent

/-- The transport, with what is done through it written down.  An envelope counts as
handed over whatever comes of it. -/
def Transport.watched (transport : Transport ω) : Transport (Watched ω) where
  send envelope seen :=
    match transport.send envelope seen.world with
    | (answer, world) => (answer, ⟨world, seen.events ++ [.sent envelope]⟩)
  identity caller seen :=
    match transport.identity caller seen.world with
    | (answer, world) => (answer, { seen with world })
  catalog caller protocol seen :=
    match transport.catalog caller protocol seen.world with
    | (answer, world) => (answer, ⟨world, seen.events ++ [.fetched]⟩)
  obtainable_of_send := transport.obtainable_of_send

def Prompter.watched (prompter : Prompter ω) : Prompter (Watched ω) where
  confirm path message seen :=
    match prompter.confirm path message seen.world with
    | (agreed, world) => (agreed, { seen with world })

namespace RefreshAction

/-- What is done about a refresh, with a run of it written down. -/
def watched : RefreshAction ω → RefreshAction (Watched ω)
  | .nothing => .nothing
  | .reload => .reload
  | .run act => .run fun seen => ⟨act seen.world, seen.events ++ [.ran]⟩

/-- What is seen when it is done once. -/
def events : RefreshAction ω → List SessionEvent
  | .nothing => []
  | .reload => [.fetched]
  | .run _ => [.ran]

end RefreshAction

def Session.watched (session : Session ω) : Session (Watched ω) where
  service := session.service
  key := session.key
  protocol := session.protocol
  transport := session.transport.watched
  engine := session.engine
  prompter := session.prompter.watched
  pinned := session.pinned

def SessionState.watched (state : SessionState ω) : SessionState (Watched ω) where
  catalog := state.catalog
  generation := state.generation
  services := state.services
  libs := state.libs
  onRefresh := state.onRefresh.watched
  trace := state.trace
  ids := state.ids
  notices := state.notices

/-- The session at work, watched after `past` was seen. -/
def Live.watched (live : Live ω) (past : List SessionEvent) : Live (Watched ω) where
  state := live.state.watched
  world := ⟨live.world, past⟩

/-- Write down what a watched session does. -/
def Live.see (live : Live (Watched ω)) (event : SessionEvent) : Live (Watched ω) :=
  { live with world := { live.world with events := live.world.events ++ [event] } }

/-- What calls made in a session need of it, when it is watched. -/
def Session.watchedDispatcher (session : Session ω) : Dispatcher (Live (Watched ω)) :=
  { session.watched.dispatcher with
    requestRefresh := fun live => session.watched.requestRefresh (live.see .asked) }

variable {session : Session ω} {function : RemoteFunction} {live : Live ω}
  {past : List SessionEvent}

/-! ## Before a call is sent -/

theorem Session.ask_watched {path message : String} :
    session.watchedDispatcher.confirm path message (live.watched past) =
      ((session.dispatcher.confirm path message live).1,
        (session.dispatcher.confirm path message live).2.watched past) :=
  rfl

theorem RemoteFunction.confirm_watched :
    function.confirm session.watchedDispatcher (live.watched past) =
      ((function.confirm session.dispatcher live).1,
        (function.confirm session.dispatcher live).2.watched past) := by
  rw [confirm, confirm]
  split
  · rfl
  · rename_i warning _
    split
    · rfl
    · split
      · rfl
      · rw [Session.ask_watched]
        cases session.dispatcher.confirm function.path warning.message live with
        | mk agreed asked => cases agreed <;> rfl

theorem RemoteFunction.recordAction_watched {action : Option Action} :
    recordAction session.watchedDispatcher action (live.watched past) =
      (recordAction session.dispatcher action live).watched past := by
  cases action <;> rfl

/-- What was prepared, with its state seen otherwise. -/
def RemoteFunction.Prepared.map {σ τ : Type} (f : σ → τ) : Prepared σ → Prepared τ
  | .ended outcome s => .ended outcome (f s)
  | .ready outgoing s => .ready outgoing (f s)

theorem RemoteFunction.prepare_watched {arguments : Arguments} :
    function.prepare session.watchedDispatcher arguments (live.watched past) =
      (function.prepare session.dispatcher arguments live).map (·.watched past) := by
  have hadapt :
      function.adapt session.watchedDispatcher.protocol session.watchedDispatcher.engine
          arguments =
        function.adapt session.dispatcher.protocol session.dispatcher.engine arguments :=
    rfl
  have hfresh : session.watchedDispatcher.freshIds (live.watched past) =
      ((session.dispatcher.freshIds live).1,
        (session.dispatcher.freshIds live).2.watched past) :=
    rfl
  rw [prepare, prepare, hadapt]
  cases function.adapt session.dispatcher.protocol session.dispatcher.engine arguments with
  | error e => rfl
  | ok adapted =>
      rw [hfresh]
      dsimp only
      rw [confirm_watched]
      cases function.confirm session.dispatcher (session.dispatcher.freshIds live).2 with
      | mk agreed asked =>
          cases agreed with
          | false => rfl
          | true =>
              dsimp only
              rw [recordAction_watched]
              rfl

/-! ## Sending it -/

/-- What is seen when a call is handed to the transport, if it can be encoded. -/
def Session.sendEvents (session : Session ω) (call : Call) : List SessionEvent :=
  match Envelope.sign session.key call with
  | .error _ => []
  | .ok envelope => [.sent envelope]

theorem Session.receive_watched (live : Live ω) {path : String}
    {reply : Envelope CallResult} :
    session.watched.receive path reply (live.watched past) =
      ((session.receive path reply live).1,
        (session.receive path reply live).2.watched past) := by
  have hpinned : session.watched.pinned = session.pinned := rfl
  simp only [receive, hpinned]
  cases reply.openPayload with
  | mk opened kept =>
      cases session.pinned with
      | none => cases opened <;> rfl
      | some expected =>
          dsimp only
          split
          · cases opened <;> rfl
          · rfl

theorem Session.dispatch_watched {call : Call} :
    session.watched.dispatch call (live.watched past) =
      ((session.dispatch call live).1,
        (session.dispatch call live).2.watched (past ++ session.sendEvents call)) := by
  have hkey : session.watched.key = session.key := rfl
  have hsend : ∀ envelope, session.watched.transport.send envelope (live.watched past).world =
      ((session.transport.send envelope live.world).1,
        ⟨(session.transport.send envelope live.world).2, past ++ [.sent envelope]⟩) :=
    fun _ => rfl
  rw [dispatch, dispatch, sendEvents, hkey]
  cases Envelope.sign session.key call with
  | error cause =>
      dsimp only
      rw [List.append_nil]
  | ok envelope =>
      dsimp only
      rw [hsend]
      cases session.transport.send envelope live.world with
      | mk answer world =>
          cases answer with
          | error cause => rfl
          | ok reply => exact receive_watched { live with world }

/-! ## The refresh at its end -/

theorem Session.replaceCatalog_watched {catalog : Catalog} {state : SessionState ω} :
    session.watched.replaceCatalog catalog state.watched =
      ((session.replaceCatalog catalog state).1,
        (session.replaceCatalog catalog state).2.watched) := by
  have hservice : session.watched.service = session.service := rfl
  rw [replaceCatalog, replaceCatalog, hservice]
  split <;> rfl

theorem Session.refresh_watched :
    session.watched.refresh (live.watched past) =
      ((session.refresh live).1, (session.refresh live).2.watched (past ++ [.fetched])) := by
  have hcatalog : session.watched.transport.catalog session.watched.caller
        session.watched.protocol (live.watched past).world =
      ((session.transport.catalog session.caller session.protocol live.world).1,
        ⟨(session.transport.catalog session.caller session.protocol live.world).2,
          past ++ [.fetched]⟩) :=
    rfl
  have hstate : (live.watched past).state = live.state.watched := rfl
  rw [refresh, refresh, hcatalog, hstate]
  cases session.transport.catalog session.caller session.protocol live.world with
  | mk answer world =>
      cases answer with
      | error cause => rfl
      | ok catalog =>
          dsimp only
          rw [replaceCatalog_watched]
          rfl

theorem Session.requestRefresh_watched :
    session.watched.requestRefresh (live.watched past) =
      (session.requestRefresh live).watched (past ++ live.state.onRefresh.events) := by
  have honRefresh : (live.watched past).state.onRefresh = live.state.onRefresh.watched := rfl
  rw [requestRefresh, requestRefresh, honRefresh]
  cases live.state.onRefresh with
  | nothing => exact congrArg live.watched (List.append_nil past).symm
  | run act => rfl
  | reload =>
      dsimp only [RefreshAction.watched]
      rw [refresh_watched]
      cases session.refresh live with
      | mk outcome refreshed => cases outcome <;> rfl

/-- What is seen when a result is taken in: a refresh, if it is asked for with a value
that can be used. -/
def Session.refreshEvents (session : Session ω) (action : RefreshAction ω) :
    CallResult → List SessionEvent
  | .err _ => []
  | .ok value update =>
    match session.engine.migrateValue .upgrade session.protocol value with
    | .error _ => []
    | .ok _ => if update then .asked :: action.events else []

theorem Session.finish_watched {result : CallResult} :
    RemoteFunction.finish session.watchedDispatcher result (live.watched past) =
      ((RemoteFunction.finish session.dispatcher result live).1,
        (RemoteFunction.finish session.dispatcher result live).2.watched
          (past ++ session.refreshEvents live.state.onRefresh result)) := by
  have hrefresh : session.watchedDispatcher.requestRefresh (live.watched past) =
      (session.dispatcher.requestRefresh live).watched
        (past ++ .asked :: live.state.onRefresh.events) := by
    rw [List.append_cons]
    exact requestRefresh_watched
  have hunseen : live.watched past = live.watched (past ++ []) := by rw [List.append_nil]
  -- Both dispatchers migrate as the session does.
  have hwatched : ∀ value, session.watchedDispatcher.engine.migrateValue .upgrade
        session.watchedDispatcher.protocol value =
      session.engine.migrateValue .upgrade session.protocol value :=
    fun _ => rfl
  have hplain : ∀ value, session.dispatcher.engine.migrateValue .upgrade
        session.dispatcher.protocol value =
      session.engine.migrateValue .upgrade session.protocol value :=
    fun _ => rfl
  rw [RemoteFunction.finish, RemoteFunction.finish]
  cases result with
  | err error => exact congrArg (Prod.mk _) hunseen
  | ok value update =>
      dsimp only [CallResult.toExcept, CallResult.requiresUpdate, refreshEvents]
      rw [hwatched, hplain]
      cases session.engine.migrateValue .upgrade session.protocol value with
      | error cause => exact congrArg (Prod.mk _) hunseen
      | ok usable =>
          cases update with
          | false => exact congrArg (Prod.mk _) hunseen
          | true => exact congrArg (Prod.mk _) hrefresh

/-! ## Whole calls -/

/-- What is seen when a call is sent and its answer taken in. -/
def Session.exchangeEvents (session : Session ω) (call : Call) (live : Live ω) :
    List SessionEvent :=
  session.sendEvents call ++
    match (session.dispatch call live).1 with
    | .error _ => []
    | .ok result => session.refreshEvents live.state.onRefresh result

theorem Session.exchange_watched {call : Call} :
    RemoteFunction.exchange session.watchedDispatcher call (live.watched past) =
      ((RemoteFunction.exchange session.dispatcher call live).1,
        (RemoteFunction.exchange session.dispatcher call live).2.watched
          (past ++ session.exchangeEvents call live)) := by
  have hview := (session.noted_dispatch call live).onRefresh
  have hdispatch : session.watchedDispatcher.dispatch call (live.watched past) =
      ((session.dispatch call live).1,
        (session.dispatch call live).2.watched (past ++ session.sendEvents call)) :=
    dispatch_watched
  have hplain : session.dispatcher.dispatch call live = session.dispatch call live := rfl
  rw [RemoteFunction.exchange, RemoteFunction.exchange, exchangeEvents, hdispatch, hplain]
  cases hanswered : session.dispatch call live with
  | mk answer answered =>
      rw [hanswered] at hview
      cases answer with
      | error e =>
          dsimp only
          rw [List.append_nil]
      | ok result =>
          dsimp only
          rw [finish_watched, List.append_assoc, hview]

/-- What is seen when the function is called. -/
def RemoteFunction.callEvents (function : RemoteFunction) (session : Session ω)
    (arguments : Arguments) (live : Live ω) : List SessionEvent :=
  match function.prepare session.dispatcher arguments live with
  | .ended _ _ => []
  | .ready outgoing ready => session.exchangeEvents outgoing.call ready

/-- What is seen when the function is asked for its jobs. -/
def RemoteFunction.jobsEvents (function : RemoteFunction) (session : Session ω)
    (live : Live ω) : List SessionEvent :=
  match function.userCodeId? with
  | none => []
  | some id => session.exchangeEvents (jobsCall session.service.id session.protocol id) live

/-- A call in a watched session is the call itself, and what is seen of it is told. -/
theorem RemoteFunction.call_watched {arguments : Arguments} :
    function.call (some session.watchedDispatcher) arguments (live.watched past) =
      ((function.call (some session.dispatcher) arguments live).1,
        (function.call (some session.dispatcher) arguments live).2.watched
          (past ++ function.callEvents session arguments live)) := by
  rw [call_eq_run, call_eq_run, callEvents, prepare_watched]
  cases function.prepare session.dispatcher arguments live with
  | ended outcome ended =>
      dsimp only [Prepared.map, Prepared.run]
      rw [List.append_nil]
  | ready outgoing ready =>
      dsimp only [Prepared.map, Prepared.run]
      rw [Session.exchange_watched]

theorem RemoteFunction.events_of_call {arguments : Arguments} :
    (function.call (some session.watchedDispatcher) arguments
        (live.watched past)).2.world.events =
      past ++ function.callEvents session arguments live := by
  rw [call_watched]
  rfl

theorem RemoteFunction.jobs_watched :
    function.jobs (some session.watchedDispatcher) (live.watched past) =
      ((function.jobs (some session.dispatcher) live).1,
        (function.jobs (some session.dispatcher) live).2.watched
          (past ++ function.jobsEvents session live)) := by
  rw [jobs, jobs, jobsEvents]
  cases function.userCodeId? with
  | none =>
      dsimp only
      rw [List.append_nil]
  | some id => exact Session.exchange_watched

end RemoteCall
