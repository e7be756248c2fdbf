import RemoteCall.Operation.Function
import RemoteCall.Proofs.Outcome

/-!
# Before a call is sent, and after

A call ends before it is sent, for a reason that has nothing to do with the
service, or it is sent once, and then its outcome is settled by the answer alone.
-/

namespace RemoteCall

/-- The arguments without the keyword that controls the call. -/
def Arguments.unreserved (arguments : Arguments) : Arguments :=
  { arguments with kwargs := arguments.kwargs.erase reservedKeyword }

namespace RemoteFunction

variable {σ : Type}

/-! ## Before -/

/-- What the call of a function comes to before it is sent. -/
inductive Prepared (σ : Type) where
  /-- It is not sent. -/
  | ended (outcome : Except SessionError (Option Value)) (state : σ)
  /-- It is to be sent. -/
  | ready (outgoing : Outgoing) (state : σ)

/-- All that is done before a call is sent. -/
def prepare (function : RemoteFunction) (host : Dispatcher σ) (arguments : Arguments) (s : σ) :
    Prepared σ :=
  match function.adapt host.protocol host.engine arguments with
  | .error e => .ended (.error e) s
  | .ok adapted =>
    let (ids, s) := host.freshIds s
    let outgoing := function.compose host.service host.protocol ids adapted
    match function.confirm host s with
    | (false, s) => .ended (.ok none) s
    | (true, s) => .ready outgoing (recordAction host outgoing.action s)

/-- Sending what was prepared. -/
def Prepared.run (host : Dispatcher σ) : Prepared σ → Except SessionError (Option Value) × σ
  | .ended outcome s => (outcome, s)
  | .ready outgoing s =>
    match exchange host outgoing.call s with
    | (outcome, s) => (outcome.map some, s)

theorem call_eq_run (function : RemoteFunction) (host : Dispatcher σ) (arguments : Arguments)
    (s : σ) :
    function.call (some host) arguments s = (function.prepare host arguments s).run host := by
  rw [call, prepare]
  dsimp only
  cases function.adapt host.protocol host.engine arguments with
  | error e => rfl
  | ok adapted =>
      dsimp only
      rw [send]
      cases function.confirm host (host.freshIds s).2 with
      | mk agreed s =>
          cases agreed with
          | false => rfl
          | true =>
              dsimp only [Prepared.run]
              generalize exchange host _ _ = answered
              obtain ⟨outcome, s⟩ := answered
              cases outcome <;> rfl

/-- What keeps a call from being sent, when it is an error, is one of the
caller's own. -/
theorem adapt_eq_error {function : RemoteFunction} {protocol : ProtocolVersion}
    {engine : MigrationEngine} {arguments : Arguments} {e : SessionError}
    (hadapt : function.adapt protocol engine arguments = .error e) :
    (∃ cause, e = .validation cause) ∨
      ∃ cause checked, engine.migrateArguments .downgrade protocol checked = .error cause ∧
        e = .migration cause := by
  rw [adapt] at hadapt
  split at hadapt
  · rename_i hblocking
    rw [splitBlocking] at hblocking
    cases hadapt
    split at hblocking <;> cases hblocking
    exact .inl ⟨_, rfl⟩
  · split at hadapt
    · cases hadapt
      exact .inl ⟨_, rfl⟩
    · split at hadapt
      · rename_i hmigrate
        cases hadapt
        exact .inr ⟨_, _, hmigrate, rfl⟩
      · cases hadapt

theorem splitBlocking_eq_ok {arguments : Arguments} {split : AdaptedArguments}
    (hsplit : splitBlocking arguments = .ok split) : split.arguments = arguments.unreserved := by
  rw [splitBlocking] at hsplit
  split at hsplit <;> cases hsplit <;> rfl

/-- What is ready to be sent is what was checked and migrated, with the arguments
that go with every call. -/
theorem adapt_eq_ok {function : RemoteFunction} {protocol : ProtocolVersion}
    {engine : MigrationEngine} {arguments : Arguments} {adapted : AdaptedArguments}
    (hadapt : function.adapt protocol engine arguments = .ok adapted) :
    ∃ checked migrated, function.signature.validate arguments.unreserved = .ok checked ∧
      engine.migrateArguments .downgrade protocol checked = .ok migrated ∧
      adapted.arguments = ⟨(forKind function.kind migrated).args,
        (forKind function.kind migrated).kwargs.union function.endpoint.prebound⟩ := by
  rw [adapt] at hadapt
  split at hadapt
  · cases hadapt
  · rename_i split hsplit
    have hunreserved := splitBlocking_eq_ok hsplit
    split at hadapt
    · cases hadapt
    · rename_i checked hvalidate
      split at hadapt
      · cases hadapt
      · rename_i migrated hmigrate
        cases hadapt
        exact ⟨checked, migrated, hunreserved ▸ hvalidate, hmigrate, rfl⟩

theorem ready_of_prepare {function : RemoteFunction} {host : Dispatcher σ}
    {arguments : Arguments} {s s' : σ} {outgoing : Outgoing}
    (hprepare : function.prepare host arguments s = .ready outgoing s') :
    ∃ adapted, function.adapt host.protocol host.engine arguments = .ok adapted ∧
      outgoing =
        function.compose host.service host.protocol (host.freshIds s).1 adapted := by
  rw [prepare] at hprepare
  split at hprepare
  · cases hprepare
  · rename_i adapted hadapt
    dsimp only at hprepare
    split at hprepare
    · cases hprepare
    · cases hprepare
      exact ⟨adapted, hadapt, rfl⟩

theorem ended_of_prepare {function : RemoteFunction} {host : Dispatcher σ}
    {arguments : Arguments} {s s' : σ} {outcome : Except SessionError (Option Value)}
    (hprepare : function.prepare host arguments s = .ended outcome s') :
    outcome = .ok none ∨ (∃ cause, outcome = .error (.validation cause)) ∨
      ∃ cause checked,
        host.engine.migrateArguments .downgrade host.protocol checked = .error cause ∧
          outcome = .error (.migration cause) := by
  rw [prepare] at hprepare
  split at hprepare
  · rename_i e hadapt
    cases hprepare
    right
    rcases adapt_eq_error hadapt with ⟨cause, rfl⟩ | ⟨cause, checked, hmigrate, rfl⟩
    · exact .inl ⟨cause, rfl⟩
    · exact .inr ⟨cause, checked, hmigrate, rfl⟩
  · dsimp only at hprepare
    split at hprepare
    · cases hprepare
      exact .inl rfl
    · cases hprepare

/-! ## After -/

/-- What a result means for the caller. -/
def settle (engine : MigrationEngine) (protocol : ProtocolVersion) (result : CallResult) :
    Except SessionError Value :=
  match result with
  | .err error => .error (.remote error)
  | .ok value _ => (engine.migrateValue .upgrade protocol value).mapError .migration

theorem finish_fst (host : Dispatcher σ) (result : CallResult) (s : σ) :
    (finish host result s).1 = settle host.engine host.protocol result := by
  cases result with
  | err error => rfl
  | ok value update =>
      simp only [finish, CallResult.toExcept, settle]
      cases host.engine.migrateValue .upgrade host.protocol value <;> rfl

theorem exchange_fst (host : Dispatcher σ) (call : Call) (s : σ) :
    (exchange host call s).1 =
      (host.dispatch call s).1.bind (settle host.engine host.protocol) := by
  rw [exchange]
  split
  · rename_i hdispatch
    rw [hdispatch]
    rfl
  · rename_i hdispatch
    rw [hdispatch, finish_fst]
    rfl

variable {engine : MigrationEngine} {protocol : ProtocolVersion} {result : CallResult}

theorem settle_eq_ok_iff {value : Value} :
    settle engine protocol result = .ok value ↔
      ∃ sent update, result = .ok sent update ∧
        engine.migrateValue .upgrade protocol sent = .ok value := by
  cases result with
  | err error => simp [settle]
  | ok sent update =>
      rw [settle, Outcome.mapError_eq_ok_iff]
      simp

theorem settle_eq_remote_iff {error : ErrorDescriptor} :
    settle engine protocol result = .error (.remote error) ↔ result = .err error := by
  cases result with
  | err error => simp [settle]
  | ok sent update =>
      rw [settle, Outcome.mapError_eq_error_iff]
      simp

theorem settle_eq_migration_iff {cause : MigrationError} :
    settle engine protocol result = .error (.migration cause) ↔
      ∃ sent update, result = .ok sent update ∧
        engine.migrateValue .upgrade protocol sent = .error cause := by
  cases result with
  | err error => simp [settle]
  | ok sent update =>
      rw [settle, Outcome.mapError_eq_error_iff]
      simp

end RemoteFunction

end RemoteCall
