import RemoteCall.Proofs.Call.Action
import RemoteCall.Proofs.Session.Sending

/-!
# What a call enters in the trace

While a trace is taken, the call of a library function is entered in it as the action
that is about to be sent, once its arguments passed their checks and the user let it go
out.  Other calls enter nothing, and neither does what happens once the call is sent: the
answer, and a refresh that it may ask for, leave the trace alone.
-/

namespace RemoteCall

variable {ω : Type} {session : Session ω} {function : RemoteFunction}
  {arguments : Arguments} {live : Live ω} {action : Action}

/-! ## What leaves the trace alone -/

theorem SessionState.trace_cache (state : SessionState ω) (branch : Branch)
    (tree : OperationTree) : (state.cache branch tree).trace = state.trace := by
  cases branch <;> rfl

theorem SessionState.trace_tree (state : SessionState ω) (branch : Branch) :
    (state.tree branch).2.trace = state.trace := by
  rw [tree]
  split
  · rfl
  · exact trace_cache _ branch _

namespace Session

theorem trace_replaceCatalog (session : Session ω) (catalog : Catalog)
    (state : SessionState ω) :
    (session.replaceCatalog catalog state).2.trace = state.trace := by
  rw [replaceCatalog]
  split <;> rfl

theorem trace_refresh (session : Session ω) (live : Live ω) :
    (session.refresh live).2.state.trace = live.state.trace := by
  rw [refresh]
  split
  · rfl
  · exact session.trace_replaceCatalog _ live.state

theorem trace_requestRefresh (session : Session ω) (live : Live ω) :
    (session.requestRefresh live).state.trace = live.state.trace := by
  have hrefresh := session.trace_refresh live
  rw [requestRefresh]
  split
  · rfl
  · rfl
  · split
    · rename_i hdone
      rw [hdone] at hrefresh
      exact hrefresh
    · rename_i hfailed
      rw [hfailed] at hrefresh
      exact hrefresh

theorem trace_finish (session : Session ω) (result : CallResult) (live : Live ω) :
    (RemoteFunction.finish session.dispatcher result live).2.state.trace =
      live.state.trace := by
  rw [RemoteFunction.finish]
  split
  · rfl
  · split
    · rfl
    · dsimp only
      split
      · exact session.trace_requestRefresh live
      · rfl

theorem trace_exchange (session : Session ω) (call : Call) (live : Live ω) :
    (RemoteFunction.exchange session.dispatcher call live).2.state.trace =
      live.state.trace := by
  have hdispatch : (session.dispatcher.dispatch call live).2.state.trace = live.state.trace :=
    (session.noted_dispatch call live).trace
  rw [RemoteFunction.exchange]
  split
  · rename_i hfailed
    rw [hfailed] at hdispatch
    exact hdispatch
  · rename_i hanswered
    rw [hanswered] at hdispatch
    exact (session.trace_finish _ _).trans hdispatch

theorem trace_jobs (session : Session ω) (function : RemoteFunction) (live : Live ω) :
    (function.jobs (some session.dispatcher) live).2.state.trace = live.state.trace := by
  rw [RemoteFunction.jobs]
  split
  · rfl
  · exact session.trace_exchange _ live

end Session

/-! ## What is entered -/

namespace RemoteFunction

/-- The call is one of a library function, its arguments pass the checks, and the user
lets it go out.  The action names the function, and holds the arguments as they travel. -/
structure Enters (function : RemoteFunction) (session : Session ω) (arguments : Arguments)
    (live : Live ω) (action : Action) : Prop where
  kind_eq : function.kind = .lib
  controlled : arguments.Controlled
  validate_eq : function.signature.validate arguments.unreserved = .ok arguments.unreserved
  agreed : ¬ function.Declined session live
  carries : ∃ migrated,
    session.engine.migrateArguments .downgrade session.protocol arguments.unreserved =
        .ok migrated ∧
      action = .function live.freshIds.1.1 live.freshIds.1.2 function.endpoint.modulePath
        ⟨(toPointers migrated).args,
          (toPointers migrated).kwargs.union function.endpoint.prebound⟩

/-- The action of what was prepared, if it is to be sent with one. -/
def Prepared.action? {σ : Type} : Prepared σ → Option Action
  | .ended _ _ => none
  | .ready outgoing _ => outgoing.action

theorem compose_action_eq_some_iff {service : Uid} {protocol : ProtocolVersion}
    {ids : Uid × Uid} {adapted : AdaptedArguments} :
    (function.compose service protocol ids adapted).action = some action ↔
      function.kind = .lib ∧
        action = .function ids.1 ids.2 function.endpoint.modulePath adapted.arguments := by
  rw [compose]
  cases function.kind with
  | service => simp
  | lib => simp [eq_comm]
  | userCode id => simp

/-- Arguments that pass their checks are made ready. -/
theorem exists_adapted_of_checks {migrated : Arguments} (hcontrolled : arguments.Controlled)
    (hvalidate : function.signature.validate arguments.unreserved = .ok arguments.unreserved)
    (hmigrate : session.engine.migrateArguments .downgrade session.protocol
      arguments.unreserved = .ok migrated) :
    ∃ adapted, function.adapt session.protocol session.engine arguments = .ok adapted := by
  rw [adapt]
  cases hsplit : splitBlocking arguments with
  | error e =>
      obtain ⟨value, hget, hvalue, -⟩ := splitBlocking_eq_error hsplit
      obtain ⟨blocking, hblocking⟩ := hcontrolled value hget
      exact absurd hblocking (hvalue blocking)
  | ok split =>
      have hunreserved : split.arguments = arguments.unreserved := splitBlocking_eq_ok hsplit
      dsimp only
      rw [hunreserved, hvalidate]
      dsimp only
      rw [hmigrate]
      exact ⟨_, rfl⟩

/-- What a library function is called with, once its arguments are ready. -/
theorem arguments_of_adapt {adapted : AdaptedArguments} (hkind : function.kind = .lib)
    (hadapt : function.adapt session.protocol session.engine arguments = .ok adapted) :
    ∃ migrated,
      session.engine.migrateArguments .downgrade session.protocol arguments.unreserved =
          .ok migrated ∧
        adapted.arguments = ⟨(toPointers migrated).args,
          (toPointers migrated).kwargs.union function.endpoint.prebound⟩ := by
  obtain ⟨checked, migrated, hvalidate, hmigrate, hadapted⟩ := adapt_eq_ok hadapt
  rw [Signature.eq_of_validate hvalidate] at hmigrate
  rw [hkind] at hadapted
  exact ⟨migrated, hmigrate, hadapted⟩

theorem action?_of_enters (henters : function.Enters session arguments live action) :
    (function.prepare session.dispatcher arguments live).action? = some action := by
  obtain ⟨migrated, hmigrate, haction⟩ := henters.carries
  obtain ⟨adapted, hadapt⟩ :=
    exists_adapted_of_checks henters.controlled henters.validate_eq hmigrate
  obtain ⟨_, hmigrate', hadapted⟩ := arguments_of_adapt henters.kind_eq hadapt
  cases hmigrate.symm.trans hmigrate'
  rcases prepare_of_adapt_eq_ok live hadapt with
    ⟨hdeclined, -⟩ | ⟨-, entered, ready, hprepare⟩
  · exact absurd hdeclined henters.agreed
  · obtain ⟨_, hadapt', houtgoing⟩ := ready_of_prepare hprepare
    cases hadapt.symm.trans hadapt'
    rw [hprepare, houtgoing]
    apply compose_action_eq_some_iff.mpr
    rw [hadapted]
    exact ⟨henters.kind_eq, haction⟩

theorem enters_of_ready {outgoing : Outgoing} {ready : Live ω}
    (hprepare : function.prepare session.dispatcher arguments live = .ready outgoing ready)
    (haction : outgoing.action = some action) :
    function.Enters session arguments live action := by
  obtain ⟨adapted, hadapt, rfl⟩ := ready_of_prepare hprepare
  obtain ⟨hkind, haction⟩ := compose_action_eq_some_iff.mp haction
  obtain ⟨migrated, hmigrate, hadapted⟩ := arguments_of_adapt hkind hadapt
  obtain ⟨hcontrolled, hvalidate, -⟩ := checks_of_adapt_eq_ok hadapt
  have hagreed : ¬ function.Declined session live := by
    rcases prepare_of_adapt_eq_ok live hadapt with ⟨-, ended, hended⟩ | ⟨hagreed, -⟩
    · cases hprepare.symm.trans hended
    · exact hagreed
  exact ⟨hkind, hcontrolled, hvalidate, hagreed, migrated, hmigrate, hadapted ▸ haction⟩

/-- What is entered is the action of what is to be sent. -/
theorem enters_iff :
    function.Enters session arguments live action ↔
      (function.prepare session.dispatcher arguments live).action? = some action := by
  constructor
  · exact action?_of_enters
  · intro haction
    cases hprepare : function.prepare session.dispatcher arguments live with
    | ended outcome ended =>
        rw [hprepare] at haction
        cases haction
    | ready outgoing ready =>
        rw [hprepare] at haction
        exact enters_of_ready hprepare haction

theorem trace_recordAction (session : Session ω) (action : Option Action) (live : Live ω) :
    (recordAction session.dispatcher action live).state.trace =
      live.state.trace.map (· ++ action.toList) := by
  cases action with
  | none => simp [recordAction]
  | some action => rfl

theorem trace_prepare (function : RemoteFunction) (session : Session ω)
    (arguments : Arguments) (live : Live ω) :
    (function.prepare session.dispatcher arguments live).state.state.trace =
      live.state.trace.map
        (· ++ (function.prepare session.dispatcher arguments live).action?.toList) := by
  rw [prepare]
  split
  · simp [Prepared.state, Prepared.action?]
  · have hconfirm : (function.confirm session.dispatcher
        (session.dispatcher.freshIds live).2).2.state.trace = live.state.trace :=
      (live.noted_freshIds.trans (function.noted_confirm session _)).trace
    dsimp only
    split
    · rename_i hdeclined
      rw [hdeclined] at hconfirm
      simpa [Prepared.state, Prepared.action?] using hconfirm
    · rename_i hagreed
      rw [hagreed] at hconfirm
      rw [Prepared.state, Prepared.action?, trace_recordAction, hconfirm]

/-- A call leaves in the trace the action of what is to be sent, if there is one. -/
theorem trace_call (function : RemoteFunction) (session : Session ω)
    (arguments : Arguments) (live : Live ω) :
    (function.call (some session.dispatcher) arguments live).2.state.trace =
      live.state.trace.map
        (· ++ (function.prepare session.dispatcher arguments live).action?.toList) := by
  rw [← trace_prepare, call_eq_run]
  cases function.prepare session.dispatcher arguments live with
  | ended outcome ended => rfl
  | ready outgoing ready => exact session.trace_exchange outgoing.call ready

theorem trace_call_of_enters (henters : function.Enters session arguments live action) :
    (function.call (some session.dispatcher) arguments live).2.state.trace =
      live.state.trace.map (· ++ [action]) := by
  rw [trace_call, enters_iff.mp henters, Option.toList_some]

theorem trace_call_of_not_enters
    (hnone : ∀ action, ¬ function.Enters session arguments live action) :
    (function.call (some session.dispatcher) arguments live).2.state.trace =
      live.state.trace := by
  have hprepare : (function.prepare session.dispatcher arguments live).action? = none := by
    apply Option.eq_none_iff_forall_ne_some.mpr
    intro action hentered
    exact hnone action (enters_iff.mpr hentered)
  rw [trace_call, hprepare]
  simp

/-! ## What is sent -/

theorem call_of_compose_action {service : Uid} {protocol : ProtocolVersion}
    {ids : Uid × Uid} {adapted : AdaptedArguments}
    (hcompose : (function.compose service protocol ids adapted).action = some action) :
    (function.compose service protocol ids adapted).call.path = libDispatchPath ∧
      (function.compose service protocol ids adapted).call.arguments.args =
        [toValue action] := by
  obtain ⟨hkind, rfl⟩ := compose_action_eq_some_iff.mp hcompose
  rw [compose, hkind]
  exact ⟨rfl, rfl⟩

end RemoteFunction

/-- The envelope is that of a call of the one operation that library functions are
dispatched to, and the action is read from its only positional argument. -/
def Session.SendsAction (session : Session ω) (action : Action) (envelope : Envelope Call) :
    Prop :=
  ∃ call value, Envelope.sign session.key call = .ok envelope ∧
    call.path = libDispatchPath ∧ call.arguments.args = [value] ∧
      Action.ofValue? value = some action

namespace RemoteFunction

/-- What is sent for a call that was entered brings along its action. -/
theorem sendsAction_of_enters (henters : function.Enters session arguments live action)
    {envelope : Envelope Call}
    (hsent : envelope ∈
      (function.callEvents session arguments live).filterMap SessionEvent.envelope?) :
    session.SendsAction action envelope := by
  have hentered := enters_iff.mp henters
  rw [callEvents] at hsent
  cases hprepare : function.prepare session.dispatcher arguments live with
  | ended outcome ended =>
      rw [hprepare] at hentered
      cases hentered
  | ready outgoing ready =>
      rw [hprepare] at hentered hsent
      obtain ⟨adapted, -, rfl⟩ := ready_of_prepare hprepare
      obtain ⟨hpath, hargs⟩ := call_of_compose_action hentered
      dsimp only at hsent
      cases hsign : Envelope.sign session.key (function.compose session.dispatcher.service
          session.dispatcher.protocol (session.dispatcher.freshIds live).1 adapted).call with
      | error cause =>
          obtain ⟨reason, -, rfl⟩ := Envelope.sign_eq_error hsign
          rw [(exchange_of_sign_eq_error ready hsign).2] at hsent
          cases hsent
      | ok signed =>
          rw [filterMap_exchangeEvents hsign, List.mem_singleton] at hsent
          rw [hsent]
          exact ⟨_, _, hsign, hpath, hargs, action.ofValue?_toValue⟩

end RemoteFunction

end RemoteCall
