import RemoteCall.Number.Binary64
import RemoteCall.SortedMap
import RemoteCall.Value.Uid

/-!
# Values

Arguments and results of calls are values of one closed type.  A domain object
carries the name of its type and the version of that type it was made for; an
object that already lives on the service is named by its identifier.

Entries of maps and fields of objects are kept in the order of their names,
each name once.
-/

namespace RemoteCall

/-- A domain object with fields of type `α`: the name and version of its type,
and its fields in the order of their names. -/
structure ObjectOf (α : Type) where
  name : String
  version : UInt32
  fields : List (String × α)

/-- An object that lives on a service, with the name of its type. -/
structure RemoteObject where
  id : Uid
  service : Uid
  typeName : String
  deriving DecidableEq

/-- An argument or a result of a call. -/
inductive Value where
  | none
  | bool (b : Bool)
  | int (n : Int64)
  | float (x : Binary64)
  | str (s : String)
  | bytes (bytes : List UInt8)
  | uid (uid : Uid)
  | list (items : List Value)
  | map (entries : List (String × Value))
  | object (object : ObjectOf Value)
  | remote (remote : RemoteObject)
  | pointer (uid : Uid)

/-- A domain object. -/
abbrev ObjectValue := ObjectOf Value

namespace ObjectOf

def new {α : Type} (name : String) (version : UInt32) : ObjectOf α := ⟨name, version, []⟩

def withField {α : Type} (object : ObjectOf α) (name : String) (value : α) : ObjectOf α :=
  { object with fields := Entries.insert name value object.fields }

def get? {α : Type} (object : ObjectOf α) (name : String) : Option α :=
  Entries.find? name object.fields

end ObjectOf

namespace Value

instance : Inhabited Value := ⟨.none⟩

/-- The name of a value's type, in the words that types are shown in. -/
def typeName : Value → String
  | .none => "None"
  | .bool _ => "bool"
  | .int _ => "int"
  | .float _ => "float"
  | .str _ => "str"
  | .bytes _ => "bytes"
  | .uid _ => "UID"
  | .list _ => "list"
  | .map _ => "dict"
  | .object o => o.name
  | .remote r => "Remote[" ++ r.typeName ++ "]"
  | .pointer _ => "Pointer"

def isNone : Value → Bool
  | .none => true
  | _ => false

def asBool? : Value → Option Bool
  | .bool b => some b
  | _ => Option.none

def asInt? : Value → Option Int64
  | .int n => some n
  | _ => Option.none

def asStr? : Value → Option String
  | .str s => some s
  | _ => Option.none

def asUid? : Value → Option Uid
  | .uid u => some u
  | _ => Option.none

/-- The items of the list that it is. -/
def asList? : Value → Option (List Value)
  | .list items => some items
  | _ => Option.none

def asObject? : Value → Option ObjectValue
  | .object o => some o
  | _ => Option.none

/-- A map with the given entries; of equally named ones the last wins. -/
def mapOf (entries : List (String × Value)) : Value := .map (Entries.ofList entries)

mutual

/-- Equality of values, by which the two zeros are equal and a float that is no
number equals nothing. -/
def same : Value → Value → Bool
  | .none, .none => true
  | .bool b, .bool b' => b == b'
  | .int n, .int n' => n == n'
  | .float x, .float x' => x.same x'
  | .str s, .str s' => s == s'
  | .bytes b, .bytes b' => b == b'
  | .uid u, .uid u' => u == u'
  | .list items, .list items' => sameItems items items'
  | .map entries, .map entries' => sameEntries entries entries'
  | .object ⟨name, version, fields⟩, .object ⟨name', version', fields'⟩ =>
    name == name' && version == version' && sameEntries fields fields'
  | .remote r, .remote r' => r == r'
  | .pointer u, .pointer u' => u == u'
  | _, _ => false

/-- Equality item by item. -/
def sameItems : List Value → List Value → Bool
  | [], [] => true
  | item :: rest, item' :: rest' => same item item' && sameItems rest rest'
  | _, _ => false

def sameEntries : List (String × Value) → List (String × Value) → Bool
  | [], [] => true
  | (name, value) :: rest, (name', value') :: rest' =>
    name == name' && same value value' && sameEntries rest rest'
  | _, _ => false

end

mutual

/-- Names of entries and fields ascend at every depth. -/
def Ordered : Value → Prop
  | .list items => OrderedItems items
  | .map entries => Entries.Ascending entries ∧ OrderedEntries entries
  | .object ⟨_, _, fields⟩ => Entries.Ascending fields ∧ OrderedEntries fields
  | _ => True

def OrderedItems : List Value → Prop
  | [] => True
  | item :: rest => Ordered item ∧ OrderedItems rest

def OrderedEntries : List (String × Value) → Prop
  | [] => True
  | (_, value) :: rest => Ordered value ∧ OrderedEntries rest

end

end Value

/-- Things that are values of their own accord. -/
class ToValue (α : Type) where
  toValue : α → Value

export ToValue (toValue)

instance : ToValue Value := ⟨id⟩
instance : ToValue Bool := ⟨.bool⟩
instance : ToValue Int64 := ⟨.int⟩
instance : ToValue Int32 := ⟨fun n => .int n.toInt64⟩
instance : ToValue UInt32 := ⟨fun n => .int n.toUInt64.toInt64⟩
instance : ToValue Binary64 := ⟨.float⟩
instance : ToValue String := ⟨.str⟩
instance : ToValue Uid := ⟨.uid⟩
instance : ToValue ObjectValue := ⟨.object⟩
instance : ToValue RemoteObject := ⟨.remote⟩
instance : ToValue (List Value) := ⟨.list⟩

instance {α : Type} [ToValue α] : ToValue (Option α) where
  toValue
    | none => .none
    | some a => toValue a

end RemoteCall
