import RemoteCall.Migration.Conversion
import RemoteCall.Signature.TypeExpr

/-!
# Version histories

The registry knows the versions of each domain type, and how to convert an
object step by step from one to the next.  A type that it does not know has no
versions to tell apart, and its objects are left as they are.
-/

namespace RemoteCall

/-- A declared field of a domain type. -/
structure FieldDescriptor where
  name : String
  type : TypeExpr

/-- The shape of one version of a domain type. -/
structure TypeDescriptor where
  name : String
  version : UInt32
  fields : List FieldDescriptor

namespace TypeDescriptor

def hasField (descriptor : TypeDescriptor) (name : String) : Bool :=
  descriptor.fields.any fun field => field.name == name

/-- The names of the declared fields, in order. -/
def fieldNames (descriptor : TypeDescriptor) : List String :=
  descriptor.fields.map FieldDescriptor.name

end TypeDescriptor

/-- What is known of one version of a type: its fields, and the step between it
and the version before. -/
structure VersionEntry where
  fields : List FieldDescriptor
  step : Step

/-- The versions of a type, of which there is at least one. -/
structure History where
  versions : SortedMap UInt32 VersionEntry
  nonempty : versions.entries ≠ []

namespace History

/-- The newest version. -/
def latest (history : History) : UInt32 :=
  (history.versions.entries.getLast history.nonempty).1

/-- The newest version that is at most `target`. -/
def atOrBelow? (history : History) (target : UInt32) : Option UInt32 :=
  (history.versions.filter fun version _ => version ≤ target).lastKey?

/-- The steps from `start` down to `goal`, the newest first. -/
def below (history : History) (start goal : UInt32) : List (UInt32 × VersionEntry) :=
  (history.versions.entries.filter fun entry =>
    decide (goal < entry.1) && decide (entry.1 ≤ start)).reverse

/-- The steps from `start` up to `goal`, the oldest first. -/
def above (history : History) (start goal : UInt32) : List (UInt32 × VersionEntry) :=
  history.versions.entries.filter fun entry =>
    decide (start < entry.1) && decide (entry.1 ≤ goal)

/-- The version below the first of the remaining steps down to `goal`. -/
def next (goal : UInt32) : List (UInt32 × VersionEntry) → UInt32
  | [] => goal
  | (version, _) :: _ => version

/-- Take the steps down to `goal`. -/
def descend (type : String) (goal : UInt32) : List (UInt32 × VersionEntry) → Converter
  | [], fields => .ok fields
  | (version, entry) :: rest, fields =>
    match entry.step.down? type with
    | none => .error (.noConversionPath type version (next goal rest))
    | some convert =>
      match convert fields with
      | .error e => .error e
      | .ok fields => descend type goal rest fields

/-- Take the steps up from `start`. -/
def ascend (type : String) (start : UInt32) : List (UInt32 × VersionEntry) → Converter
  | [], fields => .ok fields
  | (version, entry) :: rest, fields =>
    match entry.step.up? type with
    | none => .error (.noConversionPath type start version)
    | some convert =>
      match convert fields with
      | .error e => .error e
      | .ok fields => ascend type version rest fields

/-- Bring an object of a type with this history to the newest version that is at
most `target`. -/
def migrate (history : History) (object : ObjectValue) (target : UInt32) :
    Except MigrationError ObjectValue :=
  if history.versions.contains object.version then
    match history.atOrBelow? target with
    | none => .error (.noConversionPath object.name object.version target)
    | some goal =>
      match descend object.name goal (history.below object.version goal) object.fields with
      | .error e => .error e
      | .ok fields =>
        match ascend object.name object.version (history.above object.version goal) fields with
        | .error e => .error e
        | .ok fields => .ok ⟨object.name, goal, fields⟩
  else .error (.unknownVersion object.name object.version)

def single (version : UInt32) (entry : VersionEntry) : History :=
  ⟨⟨[(version, entry)], List.pairwise_singleton _ _⟩, List.cons_ne_nil _ _⟩

def insert (history : History) (version : UInt32) (entry : VersionEntry) : History :=
  ⟨history.versions.insert version entry, Entries.insert_ne_nil⟩

end History

/-- The histories of all versioned types. -/
structure TypeRegistry where
  types : SortedMap String History
  deriving Inhabited

namespace TypeRegistry

def empty : TypeRegistry := ⟨.empty⟩

def history? (registry : TypeRegistry) (name : String) : Option History :=
  registry.types.get? name

def isVersioned (registry : TypeRegistry) (name : String) : Bool :=
  registry.types.contains name

/-- The names of the registered types, ascending. -/
def names (registry : TypeRegistry) : List String := registry.types.keys

/-- The registered versions of a type, ascending. -/
def versions (registry : TypeRegistry) (name : String) : List UInt32 :=
  match registry.history? name with
  | none => []
  | some history => history.versions.keys

/-- The newest version of a type. -/
def latest? (registry : TypeRegistry) (name : String) : Option UInt32 :=
  (registry.history? name).map History.latest

/-- The shape of a version of a type. -/
def descriptor? (registry : TypeRegistry) (name : String) (version : UInt32) :
    Option TypeDescriptor := do
  let entry ← (← registry.history? name).versions.get? version
  return ⟨name, version, entry.fields⟩

/-- The shape of the newest version that is at most `target`. -/
def variantAtOrBelow? (registry : TypeRegistry) (name : String) (target : UInt32) :
    Option TypeDescriptor := do
  registry.descriptor? name (← (← registry.history? name).atOrBelow? target)

/-- Bring an object to the newest version of its type that is at most `target`.
Objects of types that are not registered stay as they are. -/
def migrateObject (registry : TypeRegistry) (object : ObjectValue) (target : UInt32) :
    Except MigrationError ObjectValue :=
  match registry.history? object.name with
  | none => .ok object
  | some history => history.migrate object target

/-- Register a version of a type, once. -/
def register (registry : TypeRegistry) (descriptor : TypeDescriptor) (step : Step) :
    Except MigrationError TypeRegistry :=
  let entry := ⟨descriptor.fields, step⟩
  match registry.history? descriptor.name with
  | none => .ok ⟨registry.types.insert descriptor.name (.single descriptor.version entry)⟩
  | some history =>
    if history.versions.contains descriptor.version then
      .error (.duplicateVersion descriptor.name descriptor.version)
    else
      .ok ⟨registry.types.insert descriptor.name (history.insert descriptor.version entry)⟩

/-- The registry of the given versions; the first that is given twice is an
error. -/
def ofList (versions : List (TypeDescriptor × Step)) : Except MigrationError TypeRegistry :=
  versions.foldlM (fun registry version => registry.register version.1 version.2) empty

end TypeRegistry

/-! ## Wire form -/

open Json (Wire)

instance : Wire FieldDescriptor where
  toJson field := .obj [("name", .str field.name), ("type", Json.toJson field.type)]
  ofJson? value := do
    match ← Json.fields? ["name", "type"] value with
    | [some name, some type] => return ⟨← Json.str? name, ← Json.ofJson? type⟩
    | _ => none

instance : Wire TypeDescriptor where
  toJson descriptor := .obj [("canonical_name", .str descriptor.name),
    ("version", .int descriptor.version.toNat),
    ("fields", .arr (descriptor.fields.map Json.toJson))]
  ofJson? value := do
    match ← Json.fields? ["canonical_name", "version", "fields"] value with
    | [some name, some version, some fields] =>
      return ⟨← Json.str? name, ← Json.word? version, ← Json.list? Json.ofJson? fields⟩
    | _ => none

end RemoteCall
