import RemoteCall.Proofs.Operation.Call
import RemoteCall.Proofs.Signing.Envelope
import RemoteCall.Session.Login

/-!
# Answers of the service itself

A transport may hand back any envelope.  In a session that pins the service's key,
what a caller gets to see as a value or as an error of the service was signed with
that key, byte for byte.  Whatever else comes back is refused.
-/

namespace RemoteCall

/-! ## Envelopes under a key -/

namespace Envelope

/-- The envelope is signed with the key, and its signed bytes are those of the
result. -/
structure Vouches (key : VerifyKey) (reply : Envelope CallResult) (result : CallResult) :
    Prop where
  signer_eq : reply.signer = key
  verify : key.verify reply.payload reply.signature
  decode_eq : Codec.decode reply.payload = .ok result

/-- The result in an answer, if only those under the key are taken. -/
def accept (key : VerifyKey) (reply : Envelope CallResult) : Except SessionError CallResult :=
  if reply.signer = key then reply.openAnew.mapError .ofEnvelope else .error .invalidSignature

variable {key : VerifyKey} {reply : Envelope CallResult} {result : CallResult}

theorem accept_eq_ok_iff : reply.accept key = .ok result ↔ reply.Vouches key result := by
  rw [accept]
  by_cases hsigner : reply.signer = key
  · subst key
    rw [if_pos rfl, Outcome.mapError_eq_ok_iff, openAnew_eq_ok_iff]
    constructor
    · rintro ⟨hverify, hdecode⟩
      exact ⟨rfl, hverify, hdecode⟩
    · rintro ⟨-, hverify, hdecode⟩
      exact ⟨hverify, hdecode⟩
  · rw [if_neg hsigner]
    constructor
    · intro haccept
      cases haccept
    · intro hvouches
      exact absurd hvouches.signer_eq hsigner

theorem accept_ne_remote {error : ErrorDescriptor} :
    reply.accept key ≠ .error (.remote error) := by
  intro haccept
  rw [accept] at haccept
  split at haccept
  · obtain ⟨cause, -, hcause⟩ := Outcome.mapError_eq_error_iff.mp haccept
    cases cause <;> cases hcause
  · cases haccept

theorem accept_of_not_vouched (hforeign : reply.signer ≠ key ∨ ¬ reply.verify) :
    reply.accept key = .error .invalidSignature := by
  rw [accept]
  split
  · rename_i hsigner
    rw [openAnew_of_not_verify (hforeign.resolve_left (not_not_intro hsigner))]
    rfl
  · rfl

end Envelope

/-! ## What comes back to a call -/

variable {ω : Type}

/-- The envelope that the transport hands back to a call, if there is one. -/
def Session.answer? (session : Session ω) (call : Call) (live : Live ω) :
    Option (Envelope CallResult) :=
  match Envelope.sign session.key call with
  | .error _ => none
  | .ok envelope => (session.transport.send envelope live.world).1.toOption

/-- The envelope that comes back when the function is called. -/
def RemoteFunction.answer? (function : RemoteFunction) (session : Session ω)
    (arguments : Arguments) (live : Live ω) : Option (Envelope CallResult) :=
  match function.prepare session.dispatcher arguments live with
  | .ended _ _ => none
  | .ready outgoing live => session.answer? outgoing.call live

/-- The envelope that comes back when the function is asked for its jobs. -/
def RemoteFunction.jobsAnswer? (function : RemoteFunction) (session : Session ω)
    (live : Live ω) : Option (Envelope CallResult) :=
  match function.userCodeId? with
  | none => none
  | some id =>
    session.answer? (jobsCall session.service.id session.protocol id) live

/-- The outcome is settled by the answer, of which only one under the key counts. -/
structure SettledBy (key : VerifyKey) (engine : MigrationEngine) (protocol : ProtocolVersion)
    (answer : Option (Envelope CallResult)) (outcome : Except SessionError (Option Value)) :
    Prop where
  of_value : ∀ value, outcome = .ok (some value) →
    ∃ reply sent update, answer = some reply ∧ reply.Vouches key (.ok sent update) ∧
      engine.migrateValue .upgrade protocol sent = .ok value
  of_remote : ∀ error, outcome = .error (.remote error) →
    ∃ reply, answer = some reply ∧ reply.Vouches key (.err error)
  of_foreign : ∀ reply, answer = some reply → reply.signer ≠ key ∨ ¬ reply.verify →
    outcome = .error .invalidSignature

theorem settledBy_none {key : VerifyKey} {engine : MigrationEngine}
    {protocol : ProtocolVersion} {outcome : Except SessionError (Option Value)}
    (hvalue : ∀ value, outcome ≠ .ok (some value))
    (hremote : ∀ error, outcome ≠ .error (.remote error)) :
    SettledBy key engine protocol none outcome where
  of_value value heq := absurd heq (hvalue value)
  of_remote error heq := absurd heq (hremote error)
  of_foreign _ hreply := nomatch hreply

namespace Session

variable {session : Session ω} {key : VerifyKey} {call : Call} {live : Live ω}

theorem receive_fst {path : String} {reply : Envelope CallResult}
    (hpinned : session.pinned = some key) (hobtainable : reply.Obtainable) :
    (session.receive path reply live).1 = reply.accept key := by
  simp only [receive, hpinned, Envelope.accept]
  split
  · rw [← hobtainable.genuine.openPayload_fst]
    cases reply.openPayload with
    | mk opened kept => cases opened <;> rfl
  · rfl

/-- An answer that came back is checked, whatever else the sending did. -/
theorem dispatch_eq_receive {reply : Envelope CallResult}
    (hanswer : session.answer? call live = some reply) :
    reply.Obtainable ∧ ∃ world,
      session.dispatch call live = session.receive call.path reply { live with world } := by
  rw [answer?] at hanswer
  cases hsign : Envelope.sign session.key call with
  | error cause => simp [hsign] at hanswer
  | ok envelope =>
      cases hsend : session.transport.send envelope live.world with
      | mk sent world =>
          cases sent with
          | error cause => simp [hsign, hsend, Except.toOption] at hanswer
          | ok reply' =>
              simp only [hsign, hsend, Except.toOption, Option.some.injEq] at hanswer
              subst reply'
              refine ⟨session.transport.obtainable_of_send (congrArg Prod.fst hsend), world, ?_⟩
              simp only [dispatch, hsign, hsend]

theorem dispatch_of_answer {reply : Envelope CallResult} (hpinned : session.pinned = some key)
    (hanswer : session.answer? call live = some reply) :
    (session.dispatch call live).1 = reply.accept key := by
  obtain ⟨hobtainable, world, hdispatch⟩ := dispatch_eq_receive hanswer
  rw [hdispatch]
  exact receive_fst hpinned hobtainable

theorem dispatch_of_no_answer (hanswer : session.answer? call live = none) :
    ∃ e, (session.dispatch call live).1 = .error e ∧ ∀ error, e ≠ .remote error := by
  rw [answer?] at hanswer
  cases hsign : Envelope.sign session.key call with
  | error cause =>
      refine ⟨.ofEnvelope cause, by simp only [dispatch, hsign], fun error => ?_⟩
      cases cause <;> simp [SessionError.ofEnvelope]
  | ok envelope =>
      cases hsend : session.transport.send envelope live.world with
      | mk sent world =>
          cases sent with
          | error cause =>
              refine ⟨.ofTransport cause, by simp only [dispatch, hsign, hsend], fun error => ?_⟩
              cases cause <;> simp [SessionError.ofTransport]
          | ok reply => simp [hsign, hsend, Except.toOption] at hanswer

theorem settledBy_accept (key : VerifyKey) (engine : MigrationEngine)
    (protocol : ProtocolVersion) (reply : Envelope CallResult) :
    SettledBy key engine protocol (some reply)
      (((reply.accept key).bind (RemoteFunction.settle engine protocol)).map some) := by
  constructor
  · intro value hvalue
    obtain ⟨settled, hbind, hsome⟩ := Outcome.map_eq_ok_iff.mp hvalue
    cases hsome
    obtain ⟨result, haccept, hsettle⟩ := Outcome.bind_eq_ok_iff.mp hbind
    obtain ⟨sent, update, rfl, hup⟩ := RemoteFunction.settle_eq_ok_iff.mp hsettle
    exact ⟨reply, sent, update, rfl, Envelope.accept_eq_ok_iff.mp haccept, hup⟩
  · intro error herror
    rcases Outcome.bind_eq_error_iff.mp (Outcome.map_eq_error_iff.mp herror) with
      haccept | ⟨result, haccept, hsettle⟩
    · exact absurd haccept Envelope.accept_ne_remote
    · cases RemoteFunction.settle_eq_remote_iff.mp hsettle
      exact ⟨reply, rfl, Envelope.accept_eq_ok_iff.mp haccept⟩
  · intro reply' hreply hforeign
    cases hreply
    rw [Envelope.accept_of_not_vouched hforeign]
    rfl

/-- The dispatcher of a session is the session's own. -/
theorem exchange_dispatcher (call : Call) (live : Live ω) :
    (RemoteFunction.exchange session.dispatcher call live).1 =
      (session.dispatch call live).1.bind
        (RemoteFunction.settle session.engine session.protocol) :=
  RemoteFunction.exchange_fst session.dispatcher call live

theorem settledBy_exchange (hpinned : session.pinned = some key) (call : Call)
    (live : Live ω) :
    SettledBy key session.engine session.protocol (session.answer? call live)
      ((RemoteFunction.exchange session.dispatcher call live).1.map some) := by
  rw [exchange_dispatcher]
  cases hanswer : session.answer? call live with
  | none =>
      obtain ⟨e, hdispatch, hremote⟩ := dispatch_of_no_answer hanswer
      rw [hdispatch]
      exact settledBy_none nofun fun error heq => hremote error (Except.error.inj heq)
  | some reply =>
      rw [dispatch_of_answer hpinned hanswer]
      exact settledBy_accept key session.engine session.protocol reply

theorem settledBy_call (hpinned : session.pinned = some key) (function : RemoteFunction)
    (arguments : Arguments) (live : Live ω) :
    SettledBy key session.engine session.protocol (function.answer? session arguments live)
      (function.call (some session.dispatcher) arguments live).1 := by
  rw [RemoteFunction.call_eq_run, RemoteFunction.answer?]
  cases hprepare : function.prepare session.dispatcher arguments live with
  | ended outcome live' =>
      rcases RemoteFunction.ended_of_prepare hprepare with
        rfl | ⟨cause, rfl⟩ | ⟨cause, checked, -, rfl⟩
      · exact settledBy_none nofun nofun
      · exact settledBy_none nofun nofun
      · exact settledBy_none nofun nofun
  | ready outgoing live' => exact settledBy_exchange hpinned outgoing.call live'

theorem call_of_answer {function : RemoteFunction} {arguments : Arguments}
    {reply : Envelope CallResult} (hpinned : session.pinned = some key)
    (hanswer : function.answer? session arguments live = some reply) :
    (function.call (some session.dispatcher) arguments live).1 =
      ((reply.accept key).bind
        (RemoteFunction.settle session.engine session.protocol)).map some := by
  rw [RemoteFunction.answer?] at hanswer
  rw [RemoteFunction.call_eq_run]
  cases hprepare : function.prepare session.dispatcher arguments live with
  | ended outcome live' => simp [hprepare] at hanswer
  | ready outgoing live' =>
      rw [hprepare] at hanswer
      change (RemoteFunction.exchange session.dispatcher outgoing.call live').1.map some = _
      rw [exchange_dispatcher, dispatch_of_answer hpinned hanswer]

theorem settledBy_jobs (hpinned : session.pinned = some key) (function : RemoteFunction)
    (live : Live ω) :
    SettledBy key session.engine session.protocol (function.jobsAnswer? session live)
      ((function.jobs (some session.dispatcher) live).1.map some) := by
  rw [RemoteFunction.jobs, RemoteFunction.jobsAnswer?]
  cases function.userCodeId? with
  | none => exact settledBy_none nofun nofun
  | some id => exact settledBy_exchange hpinned _ live

end Session

theorem Login.pinned_of_build {login : Login ω} {metadata : IdentityMetadata}
    {protocol : ProtocolVersion} {catalog : Catalog} {ids : IdSource} {session : Session ω}
    {state : SessionState ω}
    (hbuild : login.build metadata protocol catalog ids = .ok (session, state)) :
    session.pinned = if login.pin then some metadata.identity.verifyKey else none := by
  rw [build] at hbuild
  split at hbuild
  · cases hbuild
  · cases hbuild
    rfl

/-- In a session that pins the key of the service it was built for, every outcome of
a call, and of asking for jobs, is settled by what came back under that key. -/
theorem Login.settledBy_of_build {login : Login ω} {metadata : IdentityMetadata}
    {protocol : ProtocolVersion} {catalog : Catalog} {ids : IdSource} {session : Session ω}
    {state : SessionState ω} (hpin : login.pin)
    (hbuild : login.build metadata protocol catalog ids = .ok (session, state))
    (function : RemoteFunction) (arguments : Arguments) (live : Live ω) :
    SettledBy metadata.identity.verifyKey session.engine session.protocol
        (function.answer? session arguments live)
        (function.call (some session.dispatcher) arguments live).1 ∧
      SettledBy metadata.identity.verifyKey session.engine session.protocol
        (function.jobsAnswer? session live)
        ((function.jobs (some session.dispatcher) live).1.map some) := by
  have hpinned := pinned_of_build hbuild
  rw [if_pos hpin] at hpinned
  exact ⟨Session.settledBy_call hpinned function arguments live,
    Session.settledBy_jobs hpinned function live⟩

/-! ## A service that answers with nothing -/

/-- The key of the service. -/
def bellKey : SigningKey := .ofSeed (List.replicate 32 7)

/-- What it answers to every call. -/
def bellReply : Envelope CallResult :=
  .signBytes bellKey "\x7b\"status\":\"ok\",\"value\":\x7b\"type\":\"none\"\x7d\x7d".toUTF8.toList

/-- The identity of the service. -/
def bell : IdentityMetadata := ⟨⟨default, "bell", bellKey.verifyKey⟩, .dev, [.dev]⟩

/-- A login that knows no other way to the service than to call it. -/
def bellLogin : Login Unit where
  transport := {
    send _ world := (.ok bellReply, world)
    identity _ world := (.error (.unavailable "bell"), world)
    catalog _ _ world := (.error (.unavailable "bell"), world)
    obtainable_of_send hreply := by
      cases hreply
      exact .ofParts _ _ _ }
  key := .ofSeed (List.replicate 32 9)
  engine := .empty
  prompter := .declineAll
  newest := .dev
  pin := true

/-- The session with the service. -/
def bellSession : Session Unit where
  service := bell.identity
  key := bellLogin.key
  protocol := .dev
  transport := bellLogin.transport
  engine := .empty
  prompter := .declineAll
  pinned := some bellKey.verifyKey

/-- The session at its beginning. -/
def bellStart : Live Unit := ⟨.new default default, ()⟩

/-- The operation that rings the bell. -/
def ring : RemoteFunction := .ofEndpoint "ring" (.new default "ring" ⟨[], none⟩) .service

theorem build_bell :
    bellLogin.build bell .dev default default = .ok (bellSession, bellStart.state) := rfl

/-- Whether it was decoded that nothing came back. -/
def isSilent : Except CodecError CallResult → Bool
  | .ok (.ok .none false) => true
  | _ => false

theorem eq_of_isSilent {decoded : Except CodecError CallResult} (hsilent : isSilent decoded) :
    decoded = .ok (.ok .none false) := by
  rw [isSilent.eq_def] at hsilent
  split at hsilent
  · rfl
  · cases hsilent

set_option maxRecDepth 100000 in
theorem decode_bellReply :
    (Codec.decode bellReply.payload : Except CodecError CallResult) = .ok (.ok .none false) :=
  eq_of_isSilent (by decide +kernel)

set_option maxRecDepth 100000 in
theorem verify_bellReply : bellReply.verify := by
  rw [bellReply, bellKey, Envelope.verify_signBytes]
  decide +kernel

theorem answer?_ring : ring.answer? bellSession ⟨[], .empty⟩ bellStart = some bellReply := rfl

theorem call_ring :
    (ring.call (some bellSession.dispatcher) ⟨[], .empty⟩ bellStart).1 = .ok (some .none) := by
  have haccept : bellReply.accept bellKey.verifyKey = .ok (.ok .none false) :=
    Envelope.accept_eq_ok_iff.mpr ⟨rfl, verify_bellReply, decode_bellReply⟩
  rw [Session.call_of_answer rfl answer?_ring, haccept]
  rfl

theorem Login.settledBy_of_build_bell :
    bellLogin.build bell .dev default default = .ok (bellSession, bellStart.state) ∧
      ∃ reply sent update, ring.answer? bellSession ⟨[], .empty⟩ bellStart = some reply ∧
        reply.Vouches bell.identity.verifyKey (.ok sent update) ∧
          bellSession.engine.migrateValue .upgrade bellSession.protocol sent = .ok .none :=
  ⟨build_bell,
    (settledBy_of_build rfl build_bell ring ⟨[], .empty⟩ bellStart).1.of_value .none call_ring⟩

end RemoteCall
