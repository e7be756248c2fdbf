import RemoteCall.Migration.DataProtocol
import RemoteCall.Signature.Arguments

/-!
# Migration between protocol versions

Locally every object is of the newest version of its type.  On its way out a
value is brought to the versions that the session's protocol understands; on its
way in it is brought to the newest again.  Signatures are downgraded for a
protocol in the same manner.

Converters may put objects of their own into fields, and those are migrated in
turn.  The walk therefore goes down a bounded number of levels, counted from
the depth of the value it starts with; how many there are below that depth is a
matter of the room that an engine has.
-/

namespace RemoteCall

/-- Which way a value goes. -/
inductive Direction where
  /-- Out, to the versions of a protocol. -/
  | downgrade
  /-- In, to the newest versions. -/
  | upgrade
  deriving DecidableEq, Repr

/-- What the objects of a value are brought to. -/
inductive Target where
  | versions (versions : ObjectVersions)
  | latest

/-- The registered types, and what the protocols understand of them. -/
structure MigrationEngine where
  registry : TypeRegistry
  data : DataProtocol
  /-- How many levels converters may add below the depth of a value. -/
  room : Nat := 1000

mutual

/-- How many lists, maps and objects are nested in a value. -/
def Value.depth : Value → Nat
  | .list items => 1 + Value.depthItems items
  | .map entries => 1 + Value.depthEntries entries
  | .object ⟨_, _, fields⟩ => 1 + Value.depthEntries fields
  | _ => 0

def Value.depthItems : List Value → Nat
  | [] => 0
  | item :: rest => max (Value.depth item) (Value.depthItems rest)

def Value.depthEntries : List (String × Value) → Nat
  | [] => 0
  | (_, value) :: rest => max (Value.depth value) (Value.depthEntries rest)

end

namespace MigrationEngine

/-- The engine that knows no types and speaks `dev` only. -/
def empty : MigrationEngine where
  registry := .empty
  data := .empty

instance : Inhabited MigrationEngine := ⟨empty⟩

def objectVersions (engine : MigrationEngine) (protocol : ProtocolVersion) :
    Except MigrationError ObjectVersions :=
  engine.data.objectVersions engine.registry protocol

/-! ## Signatures -/

/-- The version of a domain type to use for a protocol that understands
`versions`. -/
def downgradeRef (engine : MigrationEngine) (versions : ObjectVersions) (ref : DomainRef) :
    Except MigrationError DomainRef :=
  match engine.registry.history? ref.name with
  | none => .ok ref
  | some history =>
    match versions.newest? ref.name with
    | none => .error (.typeNotInProtocol ref.name)
    | some newest =>
      match history.atOrBelow? newest with
      | none => .error (.noConversionPath ref.name ref.version newest)
      | some version => .ok ⟨ref.name, version⟩

mutual

/-- A type with every domain type in it downgraded for a protocol that
understands `versions`. -/
def downgradeType (engine : MigrationEngine) (versions : ObjectVersions) :
    TypeExpr → Except MigrationError TypeExpr
  | .any => .ok .any
  | .primitive kind => .ok (.primitive kind)
  | .optional inner => (downgradeType engine versions inner).map .optional
  | .union alternatives => (downgradeTypes engine versions alternatives).map .union
  | .list inner => (downgradeType engine versions inner).map .list
  | .map inner => (downgradeType engine versions inner).map .map
  | .domain ref => (engine.downgradeRef versions ref).map .domain

/-- `downgradeType` of several types, in order. -/
def downgradeTypes (engine : MigrationEngine) (versions : ObjectVersions) :
    List TypeExpr → Except MigrationError (List TypeExpr)
  | [] => .ok []
  | type :: rest =>
    match downgradeType engine versions type with
    | .error e => .error e
    | .ok type =>
      match downgradeTypes engine versions rest with
      | .error e => .error e
      | .ok types => .ok (type :: types)

end

def downgradeParam (engine : MigrationEngine) (versions : ObjectVersions) (param : Param) :
    Except MigrationError Param :=
  (engine.downgradeType versions param.type).map fun type => { param with type }

/-- Parameters with their types downgraded, in order. -/
def downgradeParams (engine : MigrationEngine) (versions : ObjectVersions) :
    List Param → Except MigrationError (List Param)
  | [] => .ok []
  | param :: rest =>
    match engine.downgradeParam versions param with
    | .error e => .error e
    | .ok param =>
      match downgradeParams engine versions rest with
      | .error e => .error e
      | .ok params => .ok (param :: params)

/-- A signature with every domain type in it downgraded. -/
def downgradeSignature (engine : MigrationEngine) (versions : ObjectVersions)
    (signature : Signature) : Except MigrationError Signature :=
  match engine.downgradeParams versions signature.params with
  | .error e => .error e
  | .ok params =>
    match signature.returns with
    | none => .ok ⟨params, none⟩
    | some type => (engine.downgradeType versions type).map fun type => ⟨params, some type⟩

/-! ## Values -/

/-- The version that objects of a registered type are brought to. -/
def goal (target : Target) (name : String) (history : History) :
    Except MigrationError UInt32 :=
  match target with
  | .latest => .ok history.latest
  | .versions versions =>
    match versions.newest? name with
    | some newest => .ok newest
    | none => .error (.typeNotInProtocol name)

/-- An object brought to the target, its fields not yet walked. -/
def migrateObject (engine : MigrationEngine) (target : Target) (object : ObjectValue) :
    Except MigrationError ObjectValue :=
  match engine.registry.history? object.name with
  | none => .ok object
  | some history =>
    match goal target object.name history with
    | .error e => .error e
    | .ok version => history.migrate object version

/-- Migrate what stands in a list, in order. -/
def walkItems (walk : Value → Except MigrationError Value) :
    List Value → Except MigrationError (List Value)
  | [] => .ok []
  | item :: rest =>
    match walk item with
    | .error e => .error e
    | .ok item =>
      match walkItems walk rest with
      | .error e => .error e
      | .ok items => .ok (item :: items)

/-- Migrate a value and all within it, at most `fuel` levels down. -/
def walk (engine : MigrationEngine) (target : Target) : Nat → Value → Except MigrationError Value
  | fuel, .list items =>
    match fuel with
    | 0 => .error (.endlessNesting "list")
    | fuel + 1 => (walkItems (walk engine target fuel) items).map .list
  | fuel, .map entries =>
    match fuel with
    | 0 => .error (.endlessNesting "dict")
    | fuel + 1 => (Entries.traverse (fun _ value => walk engine target fuel value) entries).map .map
  | fuel, .object object =>
    match fuel with
    | 0 => .error (.endlessNesting object.name)
    | fuel + 1 =>
      match engine.migrateObject target object with
      | .error e => .error e
      | .ok object =>
        (Entries.traverse (fun _ value => walk engine target fuel value) object.fields).map
          fun fields => .object { object with fields }
  | _, value => .ok value

/-- Migrate a value and all within it. -/
def migrateTo (engine : MigrationEngine) (target : Target) (value : Value) :
    Except MigrationError Value :=
  engine.walk target (value.depth + engine.room) value

/-- What the objects of a value are brought to on its way. -/
def target (engine : MigrationEngine) (direction : Direction) (protocol : ProtocolVersion) :
    Except MigrationError Target :=
  match direction with
  | .upgrade => .ok .latest
  | .downgrade => (engine.objectVersions protocol).map .versions

/-- Migrate a value on its way out or in. -/
def migrateValue (engine : MigrationEngine) (direction : Direction)
    (protocol : ProtocolVersion) (value : Value) : Except MigrationError Value :=
  match engine.target direction protocol with
  | .error e => .error e
  | .ok target => engine.migrateTo target value

/-- Migrate the arguments of a call: the positional ones in order, then the
named ones in the order of their names. -/
def migrateArguments (engine : MigrationEngine) (direction : Direction)
    (protocol : ProtocolVersion) (arguments : Arguments) : Except MigrationError Arguments :=
  match engine.target direction protocol with
  | .error e => .error e
  | .ok target =>
    match walkItems (engine.migrateTo target) arguments.args with
    | .error e => .error e
    | .ok args =>
      match arguments.kwargs.traverse fun _ value => engine.migrateTo target value with
      | .error e => .error e
      | .ok kwargs => .ok ⟨args, kwargs⟩

end MigrationEngine

end RemoteCall
