import RemoteCall.Operation.Recording
import RemoteCall.Proofs.Catalog.Check
import RemoteCall.Proofs.Migration.Walk
import RemoteCall.Proofs.Operation.Call
import RemoteCall.Proofs.Signature.Binding

/-!
# What travels

Between the check of a caller's arguments and their travel, remote objects among
them become pointers, and named arguments are added: those that go with every
call, and the protocol version.  Two things are told here of what that does.

* A positional argument is still bound to the parameter that it was checked
  against, just if no parameter up to it is among those that were named.
* Remote objects travel as pointers where they are arguments themselves, and as
  they are where they stand inside of one, or come with every call.
-/

namespace RemoteCall

namespace RemoteFunction

variable {σ : Type} {function : RemoteFunction} {host : Dispatcher σ}
  {arguments migrated : Arguments} {s s' : σ} {outgoing : Outgoing}

/-! ## The arguments that travel -/

/-- The named arguments that are added to those of the caller. -/
def added (function : RemoteFunction) (protocol : ProtocolVersion) : SortedMap String Value :=
  match function.kind with
  | .lib => function.endpoint.prebound
  | .service | .userCode _ =>
    function.endpoint.prebound.insert protocolKeyword (.str (toString protocol))

/-- The arguments for the function that a call brings along: those of the action that
it carries, if it does, or else its own. -/
def Outgoing.carried (outgoing : Outgoing) : Arguments :=
  match outgoing.action with
  | some action => action.arguments
  | none => outgoing.call.arguments

theorem contains_added_iff {protocol : ProtocolVersion} {name : String}
    (hkind : function.kind ≠ .lib) :
    (function.added protocol).contains name ↔
      function.endpoint.prebound.contains name ∨ name = protocolKeyword := by
  have hadded : function.added protocol =
      function.endpoint.prebound.insert protocolKeyword (.str (toString protocol)) := by
    rw [added]
    split
    · rename_i hlib
      exact absurd hlib hkind
    · rfl
    · rfl
  rw [hadded, SortedMap.contains, SortedMap.contains, SortedMap.get?_insert_eq_ite]
  split
  · rename_i heq
    simp [heq]
  · rename_i hne
    simp [hne]

/-- What travels is what was migrated, in the form for the function's kind of call,
under what is added. -/
theorem carried_of_ready (hready : function.prepare host arguments s = .ready outgoing s') :
    ∃ migrated,
      function.signature.validate arguments.unreserved = .ok arguments.unreserved ∧
      host.engine.migrateArguments .downgrade host.protocol arguments.unreserved =
        .ok migrated ∧
      outgoing.carried.args = (forKind function.kind migrated).args ∧
      ∀ name, outgoing.carried.kwargs.get? name =
        ((function.added host.protocol).get? name).or
          ((forKind function.kind migrated).kwargs.get? name) := by
  obtain ⟨adapted, hadapt, rfl⟩ := ready_of_prepare hready
  obtain ⟨checked, migrated, hvalidate, hmigrate, hadapted⟩ := adapt_eq_ok hadapt
  have hchecked := Signature.eq_of_validate hvalidate
  subst checked
  refine ⟨migrated, hvalidate, hmigrate, ?_, fun name => ?_⟩
  · cases hkind : function.kind <;> simp [compose, hkind, Outgoing.carried, Action.function,
      Call.withProtocol, Call.withBlocking, Call.new, hadapted]
  · cases hkind : function.kind with
    | lib =>
        simp [compose, hkind, Outgoing.carried, Action.function, hadapted, added,
          SortedMap.get?_union]
    | service =>
        simp only [compose, hkind, Outgoing.carried, Call.withProtocol, Call.withBlocking,
          Call.new, hadapted, added, SortedMap.get?_insert_eq_ite, SortedMap.get?_union]
        split <;> simp
    | userCode id =>
        simp only [compose, hkind, Outgoing.carried, Call.withProtocol, Call.withBlocking,
          Call.new, hadapted, added, SortedMap.get?_insert_eq_ite, SortedMap.get?_union]
        split <;> simp

theorem carried_eq_of_kind (hready : function.prepare host arguments s = .ready outgoing s')
    (hkind : function.kind ≠ .lib) : outgoing.carried = outgoing.call.arguments := by
  obtain ⟨adapted, -, rfl⟩ := ready_of_prepare hready
  rw [compose]
  split
  · rename_i hlib
    exact absurd hlib hkind
  · rfl
  · rfl

end RemoteFunction

/-! ## Positional arguments keep their parameters -/

namespace RemoteFunction

variable {σ : Type} {host : Dispatcher σ} {arguments : Arguments} {s s' : σ}
  {outgoing : Outgoing}

theorem length_forKind (kind : FunctionKind) (arguments : Arguments) :
    (forKind kind arguments).args.length = arguments.args.length := by
  cases kind <;> simp [forKind, toPointers]

theorem contains_forKind (kind : FunctionKind) (arguments : Arguments) (name : String) :
    (forKind kind arguments).kwargs.contains name = arguments.kwargs.contains name := by
  cases kind <;> simp [forKind, toPointers, SortedMap.contains, SortedMap.get?_mapValues]

theorem length_carried {function : RemoteFunction}
    (hready : function.prepare host arguments s = .ready outgoing s') :
    outgoing.carried.args.length = arguments.args.length := by
  obtain ⟨migrated, -, hmigrate, hargs, -⟩ := carried_of_ready hready
  obtain ⟨target, hwalked, -⟩ := MigrationEngine.migrateArguments_eq_ok hmigrate
  rw [hargs, length_forKind, ← hwalked.length_eq]
  rfl

/-- Named arguments travel under the caller's names and the added ones. -/
theorem contains_carried_iff {function : RemoteFunction} {name : String}
    (hready : function.prepare host arguments s = .ready outgoing s') :
    outgoing.carried.kwargs.contains name ↔
      arguments.unreserved.kwargs.contains name ∨
        (function.added host.protocol).contains name := by
  obtain ⟨migrated, -, hmigrate, -, hkwargs⟩ := carried_of_ready hready
  obtain ⟨target, -, hwalked⟩ := MigrationEngine.migrateArguments_eq_ok hmigrate
  have hmigrated : arguments.unreserved.kwargs.contains name =
      (forKind function.kind migrated).kwargs.contains name := by
    rw [contains_forKind]
    exact isSome_eq_of_rel (hwalked name)
  rw [hmigrated]
  simp only [SortedMap.contains, hkwargs, Option.isSome_or, Bool.or_eq_true]
  exact or_comm

/-- In a call of an endpoint of a usable catalog the positional arguments are bound to
the parameters that they were checked against, just if none of those parameters is
named by what goes with every call or is called like the protocol version. -/
theorem binding?_sent_eq_iff {catalog : Catalog} {key path : String} {endpoint : Endpoint}
    {kind : FunctionKind} (hcheck : catalog.check = .ok ())
    (hmem : (key, endpoint) ∈ catalog.endpoints.entries ++ catalog.libEndpoints.entries)
    (hkind : (ofEndpoint path endpoint kind).kind ≠ .lib)
    (hready : (ofEndpoint path endpoint kind).prepare host arguments s = .ready outgoing s') :
    let signature := (ofEndpoint path endpoint kind).signature
    outgoing.call.arguments.args.length = arguments.args.length ∧
      (∀ place value, arguments.args[place]? = some value →
        ∃ param, signature.binding? arguments.unreserved.kwargs place = some param ∧
          param.type.accepts value) ∧
      ((∀ place < arguments.args.length,
          signature.binding? outgoing.call.arguments.kwargs place =
            signature.binding? arguments.unreserved.kwargs place) ↔
        ∀ param ∈ (signature.openPositionals arguments.unreserved.kwargs).take
            arguments.args.length,
          ¬ endpoint.prebound.contains param.name ∧ param.name ≠ protocolKeyword) := by
  intro signature
  obtain ⟨migrated, hvalidate, -, -, -⟩ := carried_of_ready hready
  have hcarried := carried_eq_of_kind hready hkind
  have hsent : ∀ name, outgoing.call.arguments.kwargs.contains name ↔
      arguments.unreserved.kwargs.contains name ∨
        ((ofEndpoint path endpoint kind).added host.protocol).contains name :=
    fun _ => hcarried ▸ contains_carried_iff hready
  have husable : endpoint.Usable := Catalog.check_eq_ok_iff.mp hcheck (key, endpoint) hmem
  have hnames : signature.names.Nodup :=
    Signature.nodup_names_withoutReceiver (Signature.check_eq_ok_iff.mp husable.signature).1
  refine ⟨hcarried ▸ length_carried hready,
    fun place value hplace => Signature.exists_binding_of_validate hvalidate hplace, ?_⟩
  rw [Signature.binding?_eq_iff hnames fun name hname => (hsent name).mpr (.inl hname)]
  refine forall₂_congr fun param hparam => ?_
  -- The parameters looked at are open, so only what is added can name them.
  have hopen : ¬ arguments.unreserved.kwargs.contains param.name := by
    have := (List.mem_filter.mp (List.mem_of_mem_take hparam)).2
    simpa using this
  rw [hsent, contains_added_iff hkind, not_or, not_or, and_iff_right hopen]
  rfl

/-- User code with a parameter of the name that its identifier travels under. -/
def census : Endpoint :=
  (Endpoint.new default Endpoint.userCodePath
    ⟨[.positional "uid" (.primitive .int), .positional "age" (.primitive .int)], none⟩).withPrebound
      Endpoint.userCodeKeyword (.uid default)

/-- The catalog that offers it. -/
def censusCatalog : Catalog where
  service := default
  serviceName := "census"
  protocol := .dev
  role := .guest
  endpoints := SortedMap.empty.insert "code.call_count" census
  libEndpoints := .empty

/-- The user code as it is called. -/
def count : RemoteFunction := .ofEndpoint "code.count" census .service

/-- A session that sends nothing. -/
def silent : Dispatcher Recording := Recording.dispatcher default .dev .empty true []

/-- With both arguments by position the first is checked as the number and sent as the
age. -/
theorem binding?_sent_census :
    censusCatalog.check = .ok () ∧
      ("code.call_count", census) ∈ censusCatalog.endpoints.entries ∧
      count.kind = .userCode default ∧
      ∃ outgoing s, count.prepare silent ⟨[.int 1, .int 2], .empty⟩ default =
          .ready outgoing s ∧
        count.signature.binding? SortedMap.empty 0 =
          some (.positional "uid" (.primitive .int)) ∧
        count.signature.binding? outgoing.call.arguments.kwargs 0 =
          some (.positional "age" (.primitive .int)) :=
  ⟨rfl, List.mem_cons_self, rfl, _, _, rfl, rfl, rfl⟩

/-- With the number given by name the age keeps its parameter. -/
theorem binding?_sent_eq_iff_census :
    censusCatalog.check = .ok () ∧ count.kind ≠ .lib ∧
      ∃ outgoing s, count.prepare silent
          ⟨[.int 2], SortedMap.empty.insert "uid" (.int 1)⟩ default = .ready outgoing s ∧
        ∀ place < 1, count.signature.binding? outgoing.call.arguments.kwargs place =
          count.signature.binding? (SortedMap.empty.insert "uid" (.int 1)) place := by
  have hkind : count.kind ≠ .lib := nofun
  have hmem : ("code.call_count", census) ∈
      censusCatalog.endpoints.entries ++ censusCatalog.libEndpoints.entries :=
    List.mem_cons_self
  have hready : count.prepare silent ⟨[.int 2], SortedMap.empty.insert "uid" (.int 1)⟩ default =
      .ready _ _ := rfl
  have hcheck : censusCatalog.check = .ok () := rfl
  have hbindings := (binding?_sent_eq_iff hcheck hmem hkind hready).2.2
  refine ⟨hcheck, hkind, _, _, hready, hbindings.mpr fun param hparam => ?_⟩
  cases List.mem_singleton.mp hparam
  decide

end RemoteFunction

/-! ## Remote objects -/

/-- Whether the value is a remote object itself. -/
def Value.IsRemote (value : Value) : Prop := ∃ object, value = .remote object

/-- No part of the value is a remote object. -/
def Value.RemoteFree (value : Value) : Prop := ∀ part ∈ value.parts, ¬ part.IsRemote

/-- No part of any argument is a remote object. -/
def Arguments.RemoteFree (arguments : Arguments) : Prop :=
  (∀ value ∈ arguments.args, value.RemoteFree) ∧
    ∀ name value, arguments.kwargs.get? name = some value → value.RemoteFree

namespace RemoteFunction

variable {σ : Type} {function : RemoteFunction} {host : Dispatcher σ} {arguments : Arguments}
  {s s' : σ} {outgoing : Outgoing}

/-- Turning a value into a pointer leaves the values inside it alone. -/
theorem remoteFree_toPointer_iff {value : Value} :
    (toPointer value).RemoteFree ↔ ∀ part ∈ value.inside, ¬ part.IsRemote := by
  have hself : ¬ (toPointer value).IsRemote := by
    rintro ⟨object, heq⟩
    cases value <;> cases heq
  have hinside : (toPointer value).inside = value.inside := by
    cases value <;> rfl
  rw [Value.RemoteFree, Value.parts, List.forall_mem_cons, hinside, and_iff_right hself]

theorem forKind_eq_toPointers (hkind : function.kind ≠ .service) (arguments : Arguments) :
    forKind function.kind arguments = toPointers arguments := by
  cases hfunction : function.kind with
  | service => exact absurd hfunction hkind
  | lib => rfl
  | userCode id => rfl

/-- The call of a library function carries an action as its only positional argument. -/
theorem exists_action_of_lib (hready : function.prepare host arguments s = .ready outgoing s')
    (hlib : function.kind = .lib) :
    ∃ action, outgoing.action = some action ∧
      outgoing.call.arguments.args = [toValue action] := by
  obtain ⟨adapted, -, rfl⟩ := ready_of_prepare hready
  simp [compose, hlib, Call.withProtocol, Call.withBlocking, Call.new]

/-- Remote objects that are arguments of library functions and user code travel as
pointers in their places, unless a named argument is replaced.  Those that stand inside
of arguments travel as they are: nothing that travels is or holds a remote object, just
if no migrated argument that stays holds one and nothing that is added is or holds
one. -/
theorem remoteFree_carried_iff (hkind : function.kind ≠ .service)
    (hready : function.prepare host arguments s = .ready outgoing s') :
    (function.kind = .lib → ∃ action, outgoing.action = some action ∧
        outgoing.call.arguments.args = [toValue action]) ∧
      (∀ (place : Nat) object, arguments.args[place]? = some (.remote object) →
        outgoing.carried.args[place]? = some (.pointer object.id)) ∧
      (∀ name object, arguments.unreserved.kwargs.get? name = some (.remote object) →
        ¬ (function.added host.protocol).contains name →
          outgoing.carried.kwargs.get? name = some (.pointer object.id)) ∧
      ∃ migrated, host.engine.migrateArguments .downgrade host.protocol
            arguments.unreserved = .ok migrated ∧
        (outgoing.carried.RemoteFree ↔
          (∀ value ∈ migrated.args, ∀ part ∈ value.inside, ¬ part.IsRemote) ∧
          (∀ name value, migrated.kwargs.get? name = some value →
            ¬ (function.added host.protocol).contains name →
              ∀ part ∈ value.inside, ¬ part.IsRemote) ∧
          ∀ name value, (function.added host.protocol).get? name = some value →
            value.RemoteFree) := by
  obtain ⟨migrated, -, hmigrate, hargs, hkwargs⟩ := carried_of_ready hready
  obtain ⟨target, hwalkedArgs, hwalkedKwargs⟩ := MigrationEngine.migrateArguments_eq_ok hmigrate
  rw [forKind_eq_toPointers hkind] at hargs hkwargs
  simp only [toPointers, SortedMap.get?_mapValues] at hargs hkwargs
  -- A remote object has nothing to migrate.
  have hremote : ∀ {object value}, host.engine.migrateTo target (.remote object) = .ok value →
      toPointer value = .pointer object.id := by
    intro object value hwalk
    rw [MigrationEngine.migrateTo_of_depth_eq_zero rfl] at hwalk
    cases hwalk
    rfl
  refine ⟨exists_action_of_lib hready, fun place object hplace => ?_,
    fun name object hname hkept => ?_, migrated, hmigrate, ?_⟩
  · obtain ⟨value, hvalue, hwalk⟩ := exists_right_of_getElem? hwalkedArgs hplace
    rw [hargs, List.getElem?_map, hvalue]
    exact congrArg some (hremote hwalk)
  · have hwalked := hwalkedKwargs name
    rw [hname] at hwalked
    cases hvalue : migrated.kwargs.get? name with
    | none =>
        rw [hvalue] at hwalked
        cases hwalked
    | some value =>
        rw [hvalue, Option.rel_some_some] at hwalked
        rw [hkwargs, hvalue]
        rw [SortedMap.contains, Bool.not_eq_true, Option.isSome_eq_false_iff,
          Option.isNone_iff_eq_none] at hkept
        rw [hkept]
        exact congrArg some (hremote hwalked)
  · rw [Arguments.RemoteFree, hargs, List.forall_mem_map]
    refine and_congr (forall₂_congr fun value _ => remoteFree_toPointer_iff) ?_
    constructor
    · intro hfree
      refine ⟨fun name value hname hkept => ?_, fun name value hname => ?_⟩
      · rw [SortedMap.contains, Bool.not_eq_true, Option.isSome_eq_false_iff,
          Option.isNone_iff_eq_none] at hkept
        refine remoteFree_toPointer_iff.mp (hfree name _ ?_)
        rw [hkwargs, hkept, hname]
        rfl
      · refine hfree name value ?_
        rw [hkwargs, hname]
        rfl
    · rintro ⟨hmigrated, hadded⟩ name value hname
      rw [hkwargs] at hname
      rcases Option.or_eq_some_iff.mp hname with hname | ⟨hkept, hname⟩
      · exact hadded name value hname
      · obtain ⟨value, hvalue, rfl⟩ := Option.map_eq_some_iff.mp hname
        refine remoteFree_toPointer_iff.mpr (hmigrated name value hvalue ?_)
        rw [SortedMap.contains, hkept]
        exact Bool.false_ne_true

/-- A library function that takes anything. -/
def sumUp : RemoteFunction :=
  .ofEndpoint "numpy.sum" { Endpoint.new default libDispatchPath
    ⟨[.varPositional "args" .any, .keyword "by" .any], none⟩ with modulePath := "numpy.sum" } .lib

/-- An object on the service. -/
def column : RemoteObject := ⟨default, default, "Column"⟩

/-- A remote object in a list travels as it is, beside one that became a pointer. -/
theorem remote_inside_carried :
    sumUp.kind = .lib ∧
      ∃ outgoing s, sumUp.prepare silent
          ⟨[.list [.remote column], .remote column], .empty⟩ default = .ready outgoing s ∧
        outgoing.carried.args = [.list [.remote column], .pointer column.id] ∧
        ¬ outgoing.carried.RemoteFree := by
  refine ⟨rfl, _, _, rfl, rfl, fun hfree => ?_⟩
  have hpart : Value.remote column ∈ (Value.list [.remote column]).parts :=
    List.mem_cons_of_mem _ List.mem_cons_self
  exact hfree.1 _ List.mem_cons_self _ hpart ⟨column, rfl⟩

theorem remoteFree_carried_iff_column :
    sumUp.kind ≠ .service ∧
      ∃ outgoing s, sumUp.prepare silent
          ⟨[.remote column], SortedMap.empty.insert "by" (.remote column)⟩ default =
            .ready outgoing s ∧
        outgoing.carried.args[0]? = some (.pointer column.id) ∧
        outgoing.carried.kwargs.get? "by" = some (.pointer column.id) := by
  have hkind : sumUp.kind ≠ .service := nofun
  have hready : sumUp.prepare silent
      ⟨[.remote column], SortedMap.empty.insert "by" (.remote column)⟩ default =
        .ready _ _ := rfl
  obtain ⟨-, hargs, hkwargs, -⟩ := remoteFree_carried_iff hkind hready
  exact ⟨hkind, _, _, hready, hargs 0 column rfl, hkwargs "by" column rfl nofun⟩

end RemoteFunction

end RemoteCall
