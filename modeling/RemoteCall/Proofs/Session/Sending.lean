import RemoteCall.Proofs.Session.Watched
import RemoteCall.Proofs.Signature.Binding

/-!
# Sent once or not at all

What can hold a call back is told here without the order of events: the keyword that
controls the call, the check of the arguments, their migration, the user, and the
encoding.  A call that is held back sends nothing, asks for no refresh and leaves the
view of the session alone.  Every other call sends one envelope, signed by the caller.
-/

namespace RemoteCall

open SessionState (SameView)

variable {ω : Type}

/-- The reserved keyword is absent, or tells whether to wait. -/
def Arguments.Controlled (arguments : Arguments) : Prop :=
  ∀ value, arguments.kwargs.get? reservedKeyword = some value →
    ∃ blocking, value = .bool blocking

/-- The envelope that is handed to the transport. -/
def SessionEvent.envelope? : SessionEvent → Option (Envelope Call)
  | .sent envelope => some envelope
  | .fetched | .asked | .ran => none

theorem Envelope.sign_eq_ok {key : SigningKey} {call : Call} {envelope : Envelope Call}
    (hsign : Envelope.sign key call = .ok envelope) : envelope.signer = key.verifyKey := by
  rw [sign] at hsign
  split at hsign
  · cases hsign
  · cases hsign
    rfl

theorem Envelope.sign_eq_error {key : SigningKey} {call : Call} {cause : EnvelopeError}
    (hsign : Envelope.sign key call = .error cause) :
    ∃ reason, Codec.encode call = .error reason ∧ cause = .codec reason := by
  rw [sign] at hsign
  split at hsign
  · rename_i reason hencode
    cases hsign
    exact ⟨reason, hencode, rfl⟩
  · cases hsign

namespace RemoteFunction

/-- The user has to confirm the call, and does not. -/
def Declined (function : RemoteFunction) (session : Session ω) (live : Live ω) : Prop :=
  ∃ warning, function.endpoint.warning = some warning ∧ warning.enabled ∧
    warning.confirmation ∧
      (session.prompter.confirm function.path warning.message live.world).1 = false

/-- The call that goes out with the given arguments. -/
def outgoing (function : RemoteFunction) (session : Session ω) (live : Live ω)
    (adapted : AdaptedArguments) : Call :=
  (function.compose session.service.id session.protocol live.freshIds.1 adapted).call

/-- Something holds the call back, and so the call comes to an outcome. -/
inductive HeldBack (function : RemoteFunction) (session : Session ω) (arguments : Arguments)
    (live : Live ω) : Except SessionError (Option Value) → Prop where
  | blocking {value : Value} (hget : arguments.kwargs.get? reservedKeyword = some value)
      (hvalue : ∀ blocking, value ≠ .bool blocking) :
      HeldBack function session arguments live
        (.error (.validation (.typeMismatch reservedKeyword "bool" value.typeName)))
  | validation {cause : ValidationError} (hcontrolled : arguments.Controlled)
      (hvalidate : function.signature.validate arguments.unreserved = .error cause) :
      HeldBack function session arguments live (.error (.validation cause))
  | migration {cause : MigrationError} (hcontrolled : arguments.Controlled)
      (hvalidate :
        function.signature.validate arguments.unreserved = .ok arguments.unreserved)
      (hmigrate : session.engine.migrateArguments .downgrade session.protocol
        arguments.unreserved = .error cause) :
      HeldBack function session arguments live (.error (.migration cause))
  | declined {adapted : AdaptedArguments}
      (hadapt : function.adapt session.protocol session.engine arguments = .ok adapted)
      (hdeclined : function.Declined session live) :
      HeldBack function session arguments live (.ok none)
  | encoding {adapted : AdaptedArguments} {cause : CodecError}
      (hadapt : function.adapt session.protocol session.engine arguments = .ok adapted)
      (hagreed : ¬ function.Declined session live)
      (hencode : Codec.encode (function.outgoing session live adapted) = .error cause) :
      HeldBack function session arguments live (.error (.codec cause))

variable {function : RemoteFunction} {session : Session ω} {arguments : Arguments}
  {live : Live ω}

/-! ## The checks of the arguments -/

theorem controlled_of_splitBlocking {split : AdaptedArguments}
    (hsplit : splitBlocking arguments = .ok split) : arguments.Controlled := by
  intro value hget
  simp only [splitBlocking, hget] at hsplit
  split at hsplit
  · rename_i hnone
    cases hnone
  · rename_i blocking hsome
    exact ⟨blocking, Option.some.inj hsome⟩
  · cases hsplit

theorem splitBlocking_eq_error {e : SessionError} (hsplit : splitBlocking arguments = .error e) :
    ∃ value, arguments.kwargs.get? reservedKeyword = some value ∧
      (∀ blocking, value ≠ .bool blocking) ∧
        e = .validation (.typeMismatch reservedKeyword "bool" value.typeName) := by
  rw [splitBlocking] at hsplit
  split at hsplit
  · cases hsplit
  · cases hsplit
  · rename_i value hbool hget
    cases hsplit
    exact ⟨value, hget, hbool, rfl⟩

/-- Arguments that cannot be made ready hold the call back. -/
theorem heldBack_of_adapt_eq_error {e : SessionError}
    (hadapt : function.adapt session.protocol session.engine arguments = .error e) :
    function.HeldBack session arguments live (.error e) := by
  rw [adapt] at hadapt
  split at hadapt
  · rename_i hsplit
    cases hadapt
    obtain ⟨value, hget, hvalue, rfl⟩ := splitBlocking_eq_error hsplit
    exact .blocking hget hvalue
  · rename_i hsplit
    have hcontrolled := controlled_of_splitBlocking hsplit
    have hunreserved := splitBlocking_eq_ok hsplit
    dsimp only at hunreserved
    subst hunreserved
    split at hadapt
    · rename_i hvalidate
      cases hadapt
      exact .validation hcontrolled hvalidate
    · rename_i hvalidate
      cases Signature.eq_of_validate hvalidate
      split at hadapt
      · rename_i hmigrate
        cases hadapt
        exact .migration hcontrolled hvalidate hmigrate
      · cases hadapt

/-- Arguments that are made ready passed every check. -/
theorem checks_of_adapt_eq_ok {protocol : ProtocolVersion} {engine : MigrationEngine}
    {adapted : AdaptedArguments}
    (hadapt : function.adapt protocol engine arguments = .ok adapted) :
    arguments.Controlled ∧
      function.signature.validate arguments.unreserved = .ok arguments.unreserved ∧
        ∃ migrated,
          engine.migrateArguments .downgrade protocol arguments.unreserved = .ok migrated := by
  obtain ⟨checked, migrated, hvalidate, hmigrate, -⟩ := adapt_eq_ok hadapt
  cases Signature.eq_of_validate hvalidate
  refine ⟨?_, hvalidate, migrated, hmigrate⟩
  rw [adapt] at hadapt
  split at hadapt
  · cases hadapt
  · rename_i hsplit
    exact controlled_of_splitBlocking hsplit

/-! ## The user's answer -/

theorem confirm_eq_false_iff :
    (function.confirm session.dispatcher live).1 = false ↔ function.Declined session live := by
  have hask : ∀ message, (session.dispatcher.confirm function.path message live).1 =
      (session.prompter.confirm function.path message live.world).1 :=
    fun _ => rfl
  rw [confirm]
  cases hwarning : function.endpoint.warning with
  | none => simp [Declined, hwarning]
  | some warning =>
      have hdeclined : function.Declined session live ↔ warning.enabled ∧
          warning.confirmation ∧
            (session.dispatcher.confirm function.path warning.message live).1 = false := by
        simp [Declined, hwarning, hask]
      rw [hdeclined]
      dsimp only
      split
      · rename_i hdisabled
        simp_all
      · split
        · rename_i hquiet
          simp_all
        · cases hanswer : session.dispatcher.confirm function.path warning.message live with
          | mk agreed asked => cases agreed <;> simp_all

/-- A call whose arguments are ready ends here if the user declines, and else goes out. -/
theorem prepare_of_adapt_eq_ok (live : Live ω) {adapted : AdaptedArguments}
    (hadapt : function.adapt session.protocol session.engine arguments = .ok adapted) :
    (function.Declined session live ∧
      ∃ ended, function.prepare session.dispatcher arguments live = .ended (.ok none) ended) ∨
    (¬ function.Declined session live ∧ ∃ action ready,
      function.prepare session.dispatcher arguments live =
        .ready ⟨function.outgoing session live adapted, action⟩ ready) := by
  have hhost : function.adapt session.dispatcher.protocol session.dispatcher.engine arguments =
      .ok adapted := hadapt
  have hdeclined : (function.confirm session.dispatcher
      (session.dispatcher.freshIds live).2).1 = false ↔ function.Declined session live :=
    confirm_eq_false_iff
  rw [prepare, hhost]
  dsimp only
  cases hconfirm : function.confirm session.dispatcher (session.dispatcher.freshIds live).2 with
  | mk agreed asked =>
      rw [hconfirm] at hdeclined
      cases agreed with
      | false => exact .inl ⟨hdeclined.mp rfl, asked, rfl⟩
      | true =>
          refine .inr ⟨fun hdeclines => ?_, _, _, rfl⟩
          cases hdeclined.mpr hdeclines

/-! ## What is handed to the transport -/

theorem filterMap_events (action : RefreshAction ω) :
    action.events.filterMap SessionEvent.envelope? = [] := by
  cases action <;> rfl

theorem filterMap_refreshEvents (action : RefreshAction ω) (result : CallResult) :
    (session.refreshEvents action result).filterMap SessionEvent.envelope? = [] := by
  rw [Session.refreshEvents.eq_def]
  split
  · rfl
  · split
    · rfl
    · split
      · exact filterMap_events action
      · rfl

theorem filterMap_exchangeEvents {call : Call} {envelope : Envelope Call}
    (hsign : Envelope.sign session.key call = .ok envelope) :
    (session.exchangeEvents call live).filterMap SessionEvent.envelope? = [envelope] := by
  rw [Session.exchangeEvents, Session.sendEvents, hsign]
  cases (session.dispatch call live).1 with
  | error e => rfl
  | ok result =>
      rw [List.filterMap_append, filterMap_refreshEvents]
      rfl

/-- A call that cannot be encoded ends without a trace outside. -/
theorem exchange_of_sign_eq_error (live : Live ω) {call : Call} {reason : CodecError}
    (hsign : Envelope.sign session.key call = .error (.codec reason)) :
    exchange session.dispatcher call live = (.error (.codec reason), live) ∧
      session.exchangeEvents call live = [] := by
  have hdispatch : session.dispatch call live = (.error (.codec reason), live) := by
    rw [Session.dispatch, hsign]
    rfl
  have hhost : session.dispatcher.dispatch call live = (.error (.codec reason), live) :=
    hdispatch
  constructor
  · rw [exchange, hhost]
  · rw [Session.exchangeEvents, Session.sendEvents, hsign, hdispatch]
    rfl

/-! ## The whole call -/

/-- Nothing holds a call back that is ready and can be encoded. -/
theorem not_heldBack {adapted : AdaptedArguments} {bytes : List UInt8}
    {outcome : Except SessionError (Option Value)}
    (hadapt : function.adapt session.protocol session.engine arguments = .ok adapted)
    (hagreed : ¬ function.Declined session live)
    (hencode : Codec.encode (function.outgoing session live adapted) = .ok bytes) :
    ¬ function.HeldBack session arguments live outcome := by
  obtain ⟨hcontrolled, hvalidated, migrated, hmigrated⟩ := checks_of_adapt_eq_ok hadapt
  intro hheld
  cases hheld with
  | blocking hget hvalue =>
      obtain ⟨blocking, heq⟩ := hcontrolled _ hget
      exact hvalue blocking heq
  | validation _ hvalidate => cases hvalidated.symm.trans hvalidate
  | migration _ _ hmigrate => cases hmigrated.symm.trans hmigrate
  | declined _ hdeclined => exact hagreed hdeclined
  | encoding hadapt' _ hencode' =>
      cases hadapt.symm.trans hadapt'
      cases hencode.symm.trans hencode'

theorem callEvents_of_heldBack_or_sent (function : RemoteFunction) (session : Session ω)
    (arguments : Arguments) (live : Live ω) :
    (function.HeldBack session arguments live
        (function.call (some session.dispatcher) arguments live).1 ∧
      function.callEvents session arguments live = [] ∧
      SameView live.state (function.call (some session.dispatcher) arguments live).2.state) ∨
    ((∀ outcome, ¬ function.HeldBack session arguments live outcome) ∧
      ∃ adapted envelope,
        function.adapt session.protocol session.engine arguments = .ok adapted ∧
        Envelope.sign session.key (function.outgoing session live adapted) = .ok envelope ∧
        (function.callEvents session arguments live).filterMap SessionEvent.envelope? =
          [envelope]) := by
  have hview := function.sameView_prepare session arguments live
  rw [call_eq_run, callEvents]
  cases hadapt : function.adapt session.protocol session.engine arguments with
  | error e =>
      have hprepare : function.prepare session.dispatcher arguments live =
          .ended (.error e) live := by
        have hhost : function.adapt session.dispatcher.protocol session.dispatcher.engine
            arguments = .error e := hadapt
        rw [prepare, hhost]
      rw [hprepare]
      exact .inl ⟨heldBack_of_adapt_eq_error hadapt, rfl, .refl _⟩
  | ok adapted =>
      rcases prepare_of_adapt_eq_ok live hadapt with
        ⟨hdeclined, ended, hprepare⟩ | ⟨hagreed, action, ready, hprepare⟩
      · rw [hprepare] at hview ⊢
        exact .inl ⟨.declined hadapt hdeclined, rfl, hview⟩
      · rw [hprepare] at hview ⊢
        dsimp only [Prepared.run]
        cases hsign : Envelope.sign session.key (function.outgoing session live adapted) with
        | error cause =>
            obtain ⟨reason, hencode, rfl⟩ := Envelope.sign_eq_error hsign
            obtain ⟨hexchange, hevents⟩ := exchange_of_sign_eq_error ready hsign
            rw [hexchange]
            exact .inl ⟨.encoding hadapt hagreed hencode, hevents, hview⟩
        | ok envelope =>
            refine .inr ⟨fun outcome => ?_, adapted, envelope, rfl, hsign,
              filterMap_exchangeEvents hsign⟩
            cases hencode : Codec.encode (function.outgoing session live adapted) with
            | error reason =>
                rw [Envelope.sign, hencode] at hsign
                cases hsign
            | ok bytes => exact not_heldBack hadapt hagreed hencode

/-- In a session that is gone, nothing happens.  In a session at work, whatever the
transport, the prompter and the function are, a call is either held back, comes to the
outcome that this means, does nothing outside and leaves the view of the session as it
was; or nothing holds it back, and it hands just one envelope to the transport, which
the caller has signed. -/
theorem heldBack_or_sent_once (function : RemoteFunction) (arguments : Arguments) :
    (∀ {σ : Type} (s : σ),
      function.call none arguments s = (.error .transportUnavailable, s)) ∧
    ∀ {ω : Type} (session : Session ω) (live : Live ω) (past : List SessionEvent),
      ∃ events,
        function.call (some session.watchedDispatcher) arguments (live.watched past) =
            ((function.call (some session.dispatcher) arguments live).1,
              (function.call (some session.dispatcher) arguments live).2.watched
                (past ++ events)) ∧
          ((function.HeldBack session arguments live
                (function.call (some session.dispatcher) arguments live).1 ∧
              events = [] ∧
              SameView live.state
                (function.call (some session.dispatcher) arguments live).2.state) ∨
            ((∀ outcome, ¬ function.HeldBack session arguments live outcome) ∧
              ∃ adapted envelope,
                function.adapt session.protocol session.engine arguments = .ok adapted ∧
                Envelope.sign session.key (function.outgoing session live adapted) =
                  .ok envelope ∧
                envelope.signer = session.caller ∧
                events.filterMap SessionEvent.envelope? = [envelope])) := by
  refine ⟨fun _ => rfl, fun session live past =>
    ⟨function.callEvents session arguments live, call_watched, ?_⟩⟩
  rcases callEvents_of_heldBack_or_sent function session arguments live with
    hheld | ⟨hfree, adapted, envelope, hadapt, hsign, hsent⟩
  · exact .inl hheld
  · exact .inr ⟨hfree, adapted, envelope, hadapt, hsign, Envelope.sign_eq_ok hsign, hsent⟩

end RemoteFunction

end RemoteCall
