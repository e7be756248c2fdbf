import RemoteCall.Proofs.Migration.ProtocolVersion
import RemoteCall.Proofs.Operation.Outgoing
import RemoteCall.Proofs.Session.Sending

/-!
# What a call says

A call that goes out is told here from what the caller gave, and not from the stages it
went through.  Each argument has migrated on its own or become a pointer, and stands in
its place or under its name; what goes with every call replaces what the caller gave
under the same name, and the protocol version replaces both on the call itself.
-/

namespace RemoteCall

variable {ω : Type}

namespace Call

@[simp]
theorem protocol?_withProtocol (call : Call) (protocol : ProtocolVersion) :
    (call.withProtocol protocol).protocol? = some protocol := by
  have hread : ProtocolVersion.ofString (toString protocol) = .ok protocol := by
    have htext : (toString protocol).toList = protocol.toChars := String.toList_ofList
    rw [ProtocolVersion.ofString, htext, ProtocolVersion.ofChars?_toChars]
  rw [protocol?, withProtocol, SortedMap.get?_insert_eq_ite, if_pos rfl]
  change (ProtocolVersion.ofString (toString protocol)).toOption = some protocol
  rw [hread]
  rfl

end Call

namespace RemoteFunction

/-- A value that the caller gave, and what it travels as. -/
inductive Travels (function : RemoteFunction) (session : Session ω) : Value → Value → Prop where
  | pointed {object : RemoteObject} (hkind : function.kind ≠ .service) :
      Travels function session (.remote object) (.pointer object.id)
  | migrated {given sent : Value}
      (hgiven : function.kind = .service ∨ ∀ object, given ≠ .remote object)
      (hmigrate :
        session.engine.migrateValue .downgrade session.protocol given = .ok sent) :
      Travels function session given sent

/-- The arguments of a call that brings the given ones to the function: these with the
protocol version, or else an action with these and, beside it, the protocol version. -/
inductive Carries (function : RemoteFunction) (protocol : ProtocolVersion)
    (carried : Arguments) : Arguments → Prop where
  | plain (hkind : function.kind ≠ .lib) :
      Carries function protocol carried
        ⟨carried.args, carried.kwargs.insert protocolKeyword (.str (toString protocol))⟩
  | action {id resultId : Uid} (hkind : function.kind = .lib) :
      Carries function protocol carried
        ⟨[toValue (Action.function id resultId function.endpoint.modulePath carried)],
          SortedMap.empty.insert protocolKeyword (.str (toString protocol))⟩

/-- What a call says, given what the caller gave. -/
structure SentAs (function : RemoteFunction) (session : Session ω) (given : Arguments)
    (call : Call) : Prop where
  target_eq : call.target = session.service.id
  blocking_eq : (given.kwargs.get? reservedKeyword).getD (.bool true) = .bool call.blocking
  protocol_eq : call.protocol? = some session.protocol
  path_eq : call.path =
    if function.kind = .lib then libDispatchPath else function.endpoint.servicePath
  /-- Positional arguments keep their places.  Under a name stands what goes with every
  call, or else what the caller gave, and nothing under any other name. -/
  carries : ∃ carried, function.Carries session.protocol carried call.arguments ∧
    List.Forall₂ (function.Travels session) given.args carried.args ∧
    ∀ name, ∃ kept,
      Option.Rel (function.Travels session) (given.unreserved.kwargs.get? name) kept ∧
        carried.kwargs.get? name = (function.endpoint.prebound.get? name).or kept

variable {function : RemoteFunction} {session : Session ω} {arguments migrated : Arguments}
  {adapted : AdaptedArguments}

/-! ## One argument -/

/-- A value as an argument of the function's kind of call. -/
def argumentFor : FunctionKind → Value → Value
  | .service => id
  | .lib | .userCode _ => toPointer

theorem args_forKind (kind : FunctionKind) (arguments : Arguments) :
    (forKind kind arguments).args = arguments.args.map (argumentFor kind) := by
  cases kind with
  | service => exact (List.map_id _).symm
  | lib => rfl
  | userCode id => rfl

theorem get?_kwargs_forKind (kind : FunctionKind) (arguments : Arguments) (name : String) :
    (forKind kind arguments).kwargs.get? name =
      (arguments.kwargs.get? name).map (argumentFor kind) := by
  cases kind with
  | service => exact Option.map_id_apply.symm
  | lib => exact SortedMap.get?_mapValues
  | userCode id => exact SortedMap.get?_mapValues

theorem argumentFor_eq_toPointer {kind : FunctionKind} (hkind : kind ≠ .service) :
    argumentFor kind = toPointer := by
  cases kind with
  | service => exact absurd rfl hkind
  | lib => rfl
  | userCode id => rfl

/-- An argument travels as what it migrates to, in the form for the kind of call. -/
theorem travels_argumentFor {given value : Value}
    (hmigrate : session.engine.migrateValue .downgrade session.protocol given = .ok value) :
    function.Travels session given (argumentFor function.kind value) := by
  by_cases hkind : function.kind = .service
  · rw [hkind]
    exact .migrated (.inl hkind) hmigrate
  · rw [argumentFor_eq_toPointer hkind]
    by_cases hremote : ∃ object, given = .remote object
    · obtain ⟨object, rfl⟩ := hremote
      rw [MigrationEngine.eq_of_migrateValue_remote hmigrate]
      exact .pointed hkind
    · have hgiven : ∀ object, given ≠ .remote object := not_exists.mp hremote
      have hvalue : toPointer value = value := by
        cases value with
        | remote object =>
            exact absurd (MigrationEngine.eq_of_migrateValue_eq_remote hmigrate) (hgiven object)
        | _ => rfl
      rw [hvalue]
      exact .migrated (.inr hgiven) hmigrate

/-! ## All arguments -/

theorem travels_forKind (function : RemoteFunction)
    (hmigrate : session.engine.migrateArguments .downgrade session.protocol arguments =
      .ok migrated) :
    List.Forall₂ (function.Travels session) arguments.args
        (forKind function.kind migrated).args ∧
      ∀ name, Option.Rel (function.Travels session) (arguments.kwargs.get? name)
        ((forKind function.kind migrated).kwargs.get? name) := by
  obtain ⟨hargs, hkwargs⟩ := MigrationEngine.migrateValue_of_migrateArguments hmigrate
  constructor
  · rw [args_forKind]
    apply List.forall₂_map_right_iff.mpr
    exact hargs.imp fun _ _ => travels_argumentFor
  · intro name
    rw [get?_kwargs_forKind]
    exact rel_map_right (hkwargs name) fun _ _ => travels_argumentFor

/-! ## The reserved keyword -/

theorem getD_blocking_of_splitBlocking {split : AdaptedArguments}
    (hsplit : splitBlocking arguments = .ok split) :
    (arguments.kwargs.get? reservedKeyword).getD (.bool true) = .bool split.blocking := by
  rw [splitBlocking] at hsplit
  split at hsplit
  · rename_i hget
    cases hsplit
    rw [hget]
    rfl
  · rename_i hget
    cases hsplit
    rw [hget]
    rfl
  · cases hsplit

/-- The call waits as the caller says, or waits if the caller does not say. -/
theorem getD_blocking_of_adapt {protocol : ProtocolVersion} {engine : MigrationEngine}
    (hadapt : function.adapt protocol engine arguments = .ok adapted) :
    (arguments.kwargs.get? reservedKeyword).getD (.bool true) = .bool adapted.blocking := by
  rw [adapt] at hadapt
  split at hadapt
  · cases hadapt
  · rename_i hsplit
    have hblocking := getD_blocking_of_splitBlocking hsplit
    split at hadapt
    · cases hadapt
    · split at hadapt
      · cases hadapt
      · cases hadapt
        exact hblocking

/-! ## The call -/

/-- Whatever its arguments are, the call is begun in one way. -/
theorem exists_compose_call_eq (function : RemoteFunction) (service : Uid)
    (protocol : ProtocolVersion) (ids : Uid × Uid) (adapted : AdaptedArguments) :
    ∃ arguments, (function.compose service protocol ids adapted).call =
      ((Call.new service
        (if function.kind = .lib then libDispatchPath else function.endpoint.servicePath)
        arguments).withBlocking adapted.blocking).withProtocol protocol := by
  rw [compose]
  split
  · rename_i hkind
    rw [hkind, if_pos rfl]
    exact ⟨_, rfl⟩
  · rename_i hkind
    rw [hkind, if_neg (by simp)]
    exact ⟨_, rfl⟩
  · rename_i hkind
    rw [hkind, if_neg (by simp)]
    exact ⟨_, rfl⟩

theorem carries_compose (function : RemoteFunction) (service : Uid) (protocol : ProtocolVersion)
    (ids : Uid × Uid) (adapted : AdaptedArguments) :
    function.Carries protocol adapted.arguments
      (function.compose service protocol ids adapted).call.arguments := by
  rw [compose]
  split
  · rename_i hlib
    exact .action hlib
  · rename_i hservice
    exact .plain (by simp [hservice])
  · rename_i hcode
    exact .plain (by simp [hcode])

theorem sentAs_of_adapt (live : Live ω)
    (hadapt : function.adapt session.protocol session.engine arguments = .ok adapted) :
    function.SentAs session arguments (function.outgoing session live adapted) := by
  obtain ⟨checked, migrated, hvalidate, hmigrate, hadapted⟩ := adapt_eq_ok hadapt
  cases Signature.eq_of_validate hvalidate
  obtain ⟨hargs, hkwargs⟩ := travels_forKind function hmigrate
  obtain ⟨base, hcall⟩ := function.exists_compose_call_eq session.service.id session.protocol
    live.freshIds.1 adapted
  constructor
  case target_eq => exact congrArg Call.target hcall
  case blocking_eq =>
    calc
      _ = Value.bool adapted.blocking := getD_blocking_of_adapt hadapt
      _ = .bool (function.outgoing session live adapted).blocking :=
        congrArg (fun call => Value.bool call.blocking) hcall.symm
  case protocol_eq =>
    rw [outgoing, hcall]
    exact Call.protocol?_withProtocol _ _
  case path_eq => exact congrArg Call.path hcall
  case carries =>
    refine ⟨adapted.arguments, function.carries_compose _ _ _ _, ?_, fun name =>
      ⟨(forKind function.kind migrated).kwargs.get? name, hkwargs name, ?_⟩⟩
    · rw [hadapted]
      exact hargs
    · rw [hadapted]
      exact SortedMap.get?_union

/-- A call in a session at work is held back, or hands one envelope to the transport,
and that is the signed call that says what the caller gave. -/
theorem heldBack_or_sentAs (function : RemoteFunction) (arguments : Arguments)
    (session : Session ω) (live : Live ω) (past : List SessionEvent) :
    ∃ events,
      function.call (some session.watchedDispatcher) arguments (live.watched past) =
          ((function.call (some session.dispatcher) arguments live).1,
            (function.call (some session.dispatcher) arguments live).2.watched
              (past ++ events)) ∧
        ((function.HeldBack session arguments live
              (function.call (some session.dispatcher) arguments live).1 ∧ events = []) ∨
          ∃ call envelope,
            events.filterMap SessionEvent.envelope? = [envelope] ∧
            Envelope.sign session.key call = .ok envelope ∧
            function.SentAs session arguments call) := by
  refine ⟨function.callEvents session arguments live, call_watched, ?_⟩
  rcases callEvents_of_heldBack_or_sent function session arguments live with
    ⟨hheld, hnone, -⟩ | ⟨-, adapted, envelope, hadapt, hsign, hsent⟩
  · exact .inl ⟨hheld, hnone⟩
  · exact .inr ⟨_, envelope, hsent, hsign, sentAs_of_adapt live hadapt⟩

end RemoteFunction

end RemoteCall
