import RemoteCall.Proofs.Session.Answers
import RemoteCall.Proofs.Session.Watched

/-!
# Answers that ask for a refresh

A service asks for a refresh with the value that it answers.  The session does what
was set for that just once, provided that the value is one that it can bring to the
newest versions.  A value that it cannot bring there takes the request along: the
caller gets the error, and nothing is done about the refresh.
-/

namespace RemoteCall

variable {ω : Type}

/-- Something is done when a refresh is asked for. -/
def RefreshAction.IsSet : RefreshAction ω → Prop
  | .nothing => False
  | .reload | .run _ => True

namespace SessionEvent

/-- Whether the session is asked for a refresh. -/
def isAsk : SessionEvent → Bool
  | .asked => true
  | .sent _ | .fetched | .ran => false

/-- Whether what is set for a refresh is done, in one of the two ways there are. -/
def isRefresh : SessionEvent → Bool
  | .fetched | .ran => true
  | .sent _ | .asked => false

end SessionEvent

namespace Session

/-! ## The results that are taken -/

/-- The answer comes to a result: it is signed, by the pinned key if there is one. -/
structure Takes (session : Session ω) (reply : Envelope CallResult) (result : CallResult) :
    Prop where
  vouches : reply.Vouches reply.signer result
  signer_eq : ∀ key, session.pinned = some key → reply.signer = key

/-- The answer asks for a refresh. -/
def Asks (session : Session ω) (answer : Option (Envelope CallResult)) : Prop :=
  ∃ reply value, answer = some reply ∧ session.Takes reply (.ok value true)

/-- The result asks for a refresh, with a value that can be brought to the newest
versions. -/
def Requests (session : Session ω) (result : CallResult) : Prop :=
  ∃ value usable, result = .ok value true ∧
    session.engine.migrateValue .upgrade session.protocol value = .ok usable

/-- The answer asks for a refresh, with such a value. -/
def AsksUsably (session : Session ω) (answer : Option (Envelope CallResult)) : Prop :=
  ∃ reply result, answer = some reply ∧ session.Takes reply result ∧ session.Requests result

variable {session : Session ω} {call : Call} {live : Live ω} {result : CallResult}

theorem receive_eq_ok_iff {path : String} {reply : Envelope CallResult}
    (hobtainable : reply.Obtainable) :
    (session.receive path reply live).1 = .ok result ↔ session.Takes reply result := by
  cases hpinned : session.pinned with
  | none =>
      have hreceive : (session.receive path reply live).1 = reply.accept reply.signer := by
        simp only [receive, hpinned, Envelope.accept, if_true]
        rw [← hobtainable.genuine.openPayload_fst]
        cases reply.openPayload with
        | mk opened kept => cases opened <;> rfl
      rw [hreceive, Envelope.accept_eq_ok_iff]
      refine ⟨fun hvouches => ⟨hvouches, fun key hkey => ?_⟩, Takes.vouches⟩
      cases hpinned.symm.trans hkey
  | some expected =>
      rw [receive_fst hpinned hobtainable, Envelope.accept_eq_ok_iff]
      constructor
      · intro hvouches
        refine ⟨hvouches.signer_eq ▸ hvouches, fun key hkey => ?_⟩
        cases hpinned.symm.trans hkey
        exact hvouches.signer_eq
      · intro htakes
        exact htakes.signer_eq expected hpinned ▸ htakes.vouches

theorem dispatch_eq_ok_iff :
    (session.dispatch call live).1 = .ok result ↔
      ∃ reply, session.answer? call live = some reply ∧ session.Takes reply result := by
  cases hanswer : session.answer? call live with
  | none =>
      obtain ⟨e, hdispatch, -⟩ := dispatch_of_no_answer hanswer
      rw [hdispatch]
      exact ⟨nofun, nofun⟩
  | some reply =>
      obtain ⟨hobtainable, world, hdispatch⟩ := dispatch_eq_receive hanswer
      rw [hdispatch, receive_eq_ok_iff hobtainable]
      simp

/-- The request is a matter of the result alone that was taken from the answer. -/
theorem asksUsably_answer?_iff (session : Session ω) (call : Call) (live : Live ω) :
    session.AsksUsably (session.answer? call live) ↔
      ∃ result, (session.dispatch call live).1 = .ok result ∧ session.Requests result := by
  simp only [dispatch_eq_ok_iff]
  constructor
  · rintro ⟨reply, result, hanswer, htakes, hrequests⟩
    exact ⟨result, ⟨reply, hanswer, htakes⟩, hrequests⟩
  · rintro ⟨result, ⟨reply, hanswer, htakes⟩, hrequests⟩
    exact ⟨reply, result, hanswer, htakes, hrequests⟩

theorem not_asksUsably_none : ¬ session.AsksUsably none := nofun

/-! ## What is seen of it -/

/-- No refresh is asked for, and nothing is done about one. -/
structure Quiet (events : List SessionEvent) : Prop where
  unasked : events.countP SessionEvent.isAsk = 0
  untouched : events.countP SessionEvent.isRefresh = 0

/-- The request that an answer makes is heeded.  The session is asked once, and what
is set is done once; without a request neither happens. -/
structure Heeds (session : Session ω) (answer : Option (Envelope CallResult))
    (action : RefreshAction ω) (events : List SessionEvent) : Prop where
  asked : session.AsksUsably answer → events.countP SessionEvent.isAsk = 1
  refreshed : session.AsksUsably answer → action.IsSet → events.countP SessionEvent.isRefresh = 1
  unset : ¬ action.IsSet → events.countP SessionEvent.isRefresh = 0
  quiet : ¬ session.AsksUsably answer → Quiet events

variable {answer : Option (Envelope CallResult)} {action : RefreshAction ω}
  {events : List SessionEvent}

theorem Quiet.nil : Quiet [] := ⟨rfl, rfl⟩

theorem quiet_sendEvents : Quiet (session.sendEvents call) := by
  rw [sendEvents.eq_def]
  split
  · exact .nil
  · exact ⟨rfl, rfl⟩

theorem heeds_of_quiet (hquiet : Quiet events) (hasks : ¬ session.AsksUsably answer) :
    session.Heeds answer action events where
  asked husable := absurd husable hasks
  refreshed husable := absurd husable hasks
  unset _ := hquiet.untouched
  quiet _ := hquiet

theorem heeds_of_asked (hquiet : Quiet events) (hasks : session.AsksUsably answer) :
    session.Heeds answer action (events ++ .asked :: action.events) where
  asked _ := by
    rw [List.countP_append, hquiet.unasked]
    cases action <;> rfl
  refreshed _ hset := by
    rw [List.countP_append, hquiet.untouched]
    cases action with
    | nothing => exact hset.elim
    | reload => rfl
    | run act => rfl
  unset hunset := by
    rw [List.countP_append, hquiet.untouched]
    cases action with
    | nothing => rfl
    | reload => exact absurd trivial hunset
    | run act => exact absurd trivial hunset
  quiet husable := absurd hasks husable

theorem refreshEvents_of_requests (hrequests : session.Requests result) :
    session.refreshEvents action result = .asked :: action.events := by
  obtain ⟨value, usable, rfl, hmigrate⟩ := hrequests
  rw [refreshEvents, hmigrate]
  rfl

theorem refreshEvents_of_not_requests (hrequests : ¬ session.Requests result) :
    session.refreshEvents action result = [] := by
  rw [refreshEvents.eq_def]
  split
  · rfl
  · split
    · rfl
    · rename_i usable hmigrate
      split
      · rename_i hupdate
        subst hupdate
        exact absurd ⟨_, usable, rfl, hmigrate⟩ hrequests
      · rfl

theorem heeds_exchangeEvents :
    session.Heeds (session.answer? call live) live.state.onRefresh
      (session.exchangeEvents call live) := by
  have hsent : Quiet (session.sendEvents call) := quiet_sendEvents
  have hquiet : Quiet (session.sendEvents call ++ []) := by
    rw [List.append_nil]
    exact hsent
  have hasks := session.asksUsably_answer?_iff call live
  rw [exchangeEvents]
  cases hdispatch : (session.dispatch call live).1 with
  | error e =>
      simp only [hdispatch] at hasks
      exact heeds_of_quiet hquiet (by simp [hasks])
  | ok result =>
      rw [hdispatch] at hasks
      by_cases hrequests : session.Requests result
      · dsimp only
        rw [refreshEvents_of_requests hrequests]
        exact heeds_of_asked hsent (hasks.mpr ⟨result, rfl, hrequests⟩)
      · dsimp only
        rw [refreshEvents_of_not_requests hrequests]
        refine heeds_of_quiet hquiet fun husable => ?_
        obtain ⟨_, hresult, hrequested⟩ := hasks.mp husable
        cases hresult
        exact hrequests hrequested

end Session

namespace RemoteFunction

theorem heeds_callEvents (function : RemoteFunction) (session : Session ω)
    (arguments : Arguments) (live : Live ω) :
    session.Heeds (function.answer? session arguments live) live.state.onRefresh
      (function.callEvents session arguments live) := by
  have hview := (function.sameView_prepare session arguments live).onRefresh
  rw [answer?, callEvents]
  cases hprepare : function.prepare session.dispatcher arguments live with
  | ended outcome ended => exact Session.heeds_of_quiet .nil Session.not_asksUsably_none
  | ready outgoing ready =>
      rw [hprepare] at hview
      dsimp only [Prepared.state] at hview ⊢
      rw [← hview]
      exact Session.heeds_exchangeEvents

theorem heeds_jobsEvents (function : RemoteFunction) (session : Session ω)
    (live : Live ω) :
    session.Heeds (function.jobsAnswer? session live) live.state.onRefresh
      (function.jobsEvents session live) := by
  rw [jobsAnswer?, jobsEvents]
  cases function.userCodeId? with
  | none => exact Session.heeds_of_quiet .nil Session.not_asksUsably_none
  | some id => exact Session.heeds_exchangeEvents

/-- Whatever a function is called with, and whatever the transport answers: an answer
that is taken and asks for a refresh, with a value that can be brought to the newest
versions, makes the session do once what is set for that, and nothing else does.  The
same holds where the function is asked for its jobs. -/
theorem refresh_heeded (function : RemoteFunction) (session : Session ω)
    (arguments : Arguments) (live : Live ω) (past : List SessionEvent) :
    (∃ events,
      function.call (some session.watchedDispatcher) arguments (live.watched past) =
          ((function.call (some session.dispatcher) arguments live).1,
            (function.call (some session.dispatcher) arguments live).2.watched
              (past ++ events)) ∧
        session.Heeds (function.answer? session arguments live) live.state.onRefresh events) ∧
    ∃ events,
      function.jobs (some session.watchedDispatcher) (live.watched past) =
          ((function.jobs (some session.dispatcher) live).1,
            (function.jobs (some session.dispatcher) live).2.watched (past ++ events)) ∧
        session.Heeds (function.jobsAnswer? session live) live.state.onRefresh events :=
  ⟨⟨function.callEvents session arguments live, call_watched,
      function.heeds_callEvents session arguments live⟩,
    ⟨function.jobsEvents session live, jobs_watched, function.heeds_jobsEvents session live⟩⟩

end RemoteFunction

/-! ## A request that is lost -/

/-- Two versions of memos, which nothing brings from the one to the other. -/
def memoHistory : History := (History.single 1 ⟨[], .none⟩).insert 2 ⟨[], .none⟩

/-- A memo of the older version. -/
def memo : Value := .object ⟨"Memo", 1, []⟩

/-- What the service answers to every call: the memo, and a request for a refresh. -/
def memoReply : Envelope CallResult :=
  .signBytes bellKey ("\x7b\"require_api_update\":true,\"status\":\"ok\",\"value\":" ++
    "\x7b\"type\":\"object\",\"value\":\x7b\"canonical_name\":\"Memo\"," ++
    "\"fields\":\x7b\x7d,\"version\":1\x7d\x7d\x7d").toUTF8.toList

/-- The session of a client that knows both versions. -/
def memoSession : Session Unit where
  service := bell.identity
  key := bellLogin.key
  protocol := .dev
  transport := { bellLogin.transport with
    send _ world := (.ok memoReply, world)
    obtainable_of_send hreply := by
      cases hreply
      exact .ofParts _ _ _ }
  engine := { MigrationEngine.empty with
    registry := ⟨SortedMap.empty.insert "Memo" memoHistory⟩ }
  prompter := .declineAll
  pinned := some bellKey.verifyKey

/-- The session, with the catalog to be fetched anew when a refresh is asked for. -/
def memoStart : Live Unit := ⟨{ (default : SessionState Unit) with onRefresh := .reload }, ()⟩

/-- The operation that reads the memo. -/
def readMemo : RemoteFunction :=
  .ofEndpoint "memo.read" (.new default "memo.read" ⟨[], none⟩) .service

/-- Whether the memo was decoded, with a request for a refresh. -/
def isMemo : Except CodecError CallResult → Bool
  | .ok (.ok (.object ⟨"Memo", 1, []⟩) true) => true
  | _ => false

theorem eq_of_isMemo {decoded : Except CodecError CallResult} (hmemo : isMemo decoded) :
    decoded = .ok (.ok memo true) := by
  rw [isMemo.eq_def] at hmemo
  split at hmemo
  · rfl
  · cases hmemo

set_option maxRecDepth 100000 in
theorem decode_memoReply :
    (Codec.decode memoReply.payload : Except CodecError CallResult) = .ok (.ok memo true) :=
  eq_of_isMemo (by decide +kernel)

set_option maxRecDepth 100000 in
theorem verify_memoReply : memoReply.verify := by
  rw [memoReply, bellKey, Envelope.verify_signBytes]
  decide +kernel

theorem takes_memoReply : memoSession.Takes memoReply (.ok memo true) where
  vouches := ⟨rfl, verify_memoReply, decode_memoReply⟩
  signer_eq key hkey := by
    cases hkey
    rfl

theorem answer?_readMemo :
    readMemo.answer? memoSession ⟨[], .empty⟩ memoStart = some memoReply := rfl

theorem migrateValue_memo :
    memoSession.engine.migrateValue .upgrade memoSession.protocol memo =
      .error (.noConversionPath "Memo" 1 2) := rfl

theorem not_asksUsably_memoReply : ¬ memoSession.AsksUsably (some memoReply) := by
  rintro ⟨reply, result, hreply, htakes, value, usable, rfl, hmigrate⟩
  cases hreply
  cases decode_memoReply.symm.trans htakes.vouches.decode_eq
  cases migrateValue_memo.symm.trans hmigrate

/-- The answer asks for a refresh and something is set for that, yet it is not done. -/
theorem RemoteFunction.refresh_lost_readMemo :
    memoSession.Asks (readMemo.answer? memoSession ⟨[], .empty⟩ memoStart) ∧
      memoStart.state.onRefresh.IsSet ∧
      (readMemo.call (some memoSession.watchedDispatcher) ⟨[], .empty⟩
        (memoStart.watched [])).2.world.events.countP SessionEvent.isRefresh = 0 := by
  refine ⟨⟨memoReply, memo, answer?_readMemo, takes_memoReply⟩, trivial, ?_⟩
  have hheeds := readMemo.heeds_callEvents memoSession ⟨[], .empty⟩ memoStart
  rw [answer?_readMemo] at hheeds
  rw [events_of_call, List.nil_append]
  exact (hheeds.quiet not_asksUsably_memoReply).untouched

end RemoteCall
