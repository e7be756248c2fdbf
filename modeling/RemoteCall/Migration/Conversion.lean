import RemoteCall.Fault
import RemoteCall.Migration.ProtocolVersion
import RemoteCall.Value.Basic

/-!
# Conversion of fields

Two neighbouring versions of a domain type differ by a list of field changes.
A change is told from the newer version's side; going up it is undone, and the
list is then gone through from its end.
-/

namespace RemoteCall

/-- Why values or signatures cannot be brought to a protocol version. -/
inductive MigrationError where
  | unknownProtocol (version : ProtocolVersion)
  | typeNotInProtocol (type : String)
  | noConversionPath (type : String) (source target : UInt32)
  | unknownVersion (type : String) (version : UInt32)
  | duplicateVersion (type : String) (version : UInt32)
  | missingField (type field : String)
  | converter (type message : String)
  /-- Conversion keeps putting objects into objects. -/
  | endlessNesting (type : String)
  deriving DecidableEq, Repr

def MigrationError.message : MigrationError → String
  | .unknownProtocol version =>
    "protocol version " ++ toString version ++ " is not known to this data protocol"
  | .typeNotInProtocol type =>
    "type `" ++ type ++ "` does not exist in the target protocol"
  | .noConversionPath type source target =>
    "no conversion registered for `" ++ type ++ "` from v" ++ toString source.toNat ++
      " to v" ++ toString target.toNat
  | .unknownVersion type version =>
    "`" ++ type ++ "` v" ++ toString version.toNat ++ " is not registered"
  | .duplicateVersion type version =>
    "`" ++ type ++ "` v" ++ toString version.toNat ++ " is registered twice"
  | .missingField type field => "`" ++ type ++ "` has no field `" ++ field ++ "` to migrate"
  | .converter type message => "migration of `" ++ type ++ "` failed: " ++ message
  | .endlessNesting type => "migration of `" ++ type ++ "` does not end"

def MigrationError.kind : MigrationError → String
  | .unknownProtocol _ => "UnknownProtocol"
  | .typeNotInProtocol _ => "TypeNotInProtocol"
  | .noConversionPath .. => "NoConversionPath"
  | .unknownVersion .. => "UnknownVersion"
  | .duplicateVersion .. => "DuplicateVersion"
  | .missingField .. => "MissingField"
  | .converter .. => "Converter"
  | .endlessNesting _ => "EndlessNesting"

instance : Fault MigrationError := ⟨MigrationError.kind, MigrationError.message⟩

/-- Fields of an object, in the order of their names. -/
abbrev Fields := List (String × Value)

/-- Brings the fields of an object from one version to a neighbouring one. -/
abbrev Converter := Fields → Except MigrationError Fields

/-- A difference between a version and the one before it. -/
inductive FieldOp where
  /-- The field `newer` is called `older` in the older version. -/
  | rename (newer older : String)
  /-- The field is in the newer version only; going up it gets the default. -/
  | remove (name : String) (default : Value)
  /-- The field is in the older version only; going down it gets the default. -/
  | add (name : String) (default : Value)

namespace FieldOp

/-- Move the value of one field to another, which loses what it had. -/
def move (type source target : String) : Converter := fun fields =>
  match Entries.find? source fields with
  | none => .error (.missingField type source)
  | some value => .ok (Entries.insert target value (Entries.erase source fields))

/-- Apply the change to the newer version's fields. -/
def downgrade (type : String) : FieldOp → Converter
  | .rename newer older => move type newer older
  | .remove name _ => fun fields => .ok (Entries.erase name fields)
  | .add name default => fun fields => .ok (Entries.insertIfNew name default fields)

/-- Undo the change on the older version's fields. -/
def upgrade (type : String) : FieldOp → Converter
  | .rename newer older => move type older newer
  | .remove name default => fun fields => .ok (Entries.insertIfNew name default fields)
  | .add name _ => fun fields => .ok (Entries.erase name fields)

end FieldOp

/-- Apply converters one after the other. -/
def Converter.all : List Converter → Converter
  | [] => fun fields => .ok fields
  | convert :: rest => fun fields =>
    match convert fields with
    | .error e => .error e
    | .ok fields => Converter.all rest fields

/-- How a version of a type and the one before it are converted into each other. -/
inductive Step where
  /-- Not at all. -/
  | none
  /-- By field changes. -/
  | ops (changes : List FieldOp)
  /-- By functions of one's own, up to this version and down from it. -/
  | custom (up down : Option Converter)

namespace Step

/-- From this version of `type` to the one before it. -/
def down? (type : String) : Step → Option Converter
  | .none => Option.none
  | .ops changes => some (Converter.all (changes.map (FieldOp.downgrade type)))
  | .custom _ down => down

/-- From the version before it to this version of `type`. -/
def up? (type : String) : Step → Option Converter
  | .none => Option.none
  | .ops changes => some (Converter.all (changes.reverse.map (FieldOp.upgrade type)))
  | .custom up _ => up

end Step

end RemoteCall
