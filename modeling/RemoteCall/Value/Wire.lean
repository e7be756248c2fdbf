import RemoteCall.Json.Reader
import RemoteCall.Value.Basic

/-!
# Values on the wire

A value is written as an object with its kind under `type` and what it holds
under `value`; none has nothing to hold.
-/

namespace RemoteCall

open Json (Wire)

instance : Wire RemoteObject where
  toJson r := .obj [("id", Json.toJson r.id), ("service_id", Json.toJson r.service),
    ("type_name", .str r.typeName)]
  ofJson? value := do
    match ← Json.fields? ["id", "service_id", "type_name"] value with
    | [some id, some service, some typeName] =>
      return ⟨← Json.ofJson? id, ← Json.ofJson? service, ← Json.str? typeName⟩
    | _ => none

namespace Value

def tagged (kind : String) (content : Json) : Json :=
  .obj [("type", .str kind), ("value", content)]

/-- The parts of an object, its fields written already. -/
def objectJson (name : String) (version : UInt32) (fields : List (String × Json)) : Json :=
  .obj [("canonical_name", .str name), ("version", .int version.toNat), ("fields", .obj fields)]

mutual

def toJson : Value → Json
  | .none => .obj [("type", .str "none")]
  | .bool b => tagged "bool" (.bool b)
  | .int n => tagged "int" (.int n.toInt)
  | .float x => tagged "float" (.float x)
  | .str s => tagged "str" (.str s)
  | .bytes b => tagged "bytes" (.arr (b.map fun byte => .int byte.toNat))
  | .uid u => tagged "uid" (Json.toJson u)
  | .list items => tagged "list" (.arr (itemsToJson items))
  | .map entries => tagged "map" (.obj (entriesToJson entries))
  | .object ⟨name, version, fields⟩ =>
    tagged "object" (objectJson name version (entriesToJson fields))
  | .remote r => tagged "remote" (Json.toJson r)
  | .pointer u => tagged "pointer" (Json.toJson u)

def itemsToJson : List Value → List Json
  | [] => []
  | item :: rest => toJson item :: itemsToJson rest

def entriesToJson : List (String × Value) → List (String × Json)
  | [] => []
  | (name, value) :: rest => (name, toJson value) :: entriesToJson rest

end

/-- The kinds of values, in the order in which they are declared. -/
def kinds : List String :=
  ["none", "bool", "int", "float", "str", "bytes", "uid", "list", "map", "object", "remote",
    "pointer"]

/-- The parts of an object whose fields are read by `read`. -/
def objectOfJson? (read : Json → Option Value) (value : Json) : Option ObjectValue := do
  match ← Json.fields? ["canonical_name", "version", "fields"] value with
  | [some name, some version, fields] =>
    let fields ← Json.orElse [] (fun fields =>
      (Json.members? read fields).map Entries.ofList) fields
    return ⟨← Json.str? name, ← Json.word? version, fields⟩
  | _ => Option.none

/-- What a value of the given kind holds; the values inside are read by
`read`. -/
def holding? (read : Json → Option Value) (kind : String) (content : Json) : Option Value :=
  match kind with
  | "bool" => (Json.bool? content).map .bool
  | "int" => (Json.int64? content).map .int
  | "float" => (Json.float? content).map .float
  | "str" => (Json.str? content).map .str
  | "bytes" => (Json.list? Json.byte? content).map .bytes
  | "uid" => (Json.ofJson? content).map .uid
  | "list" => (Json.list? read content).map .list
  | "map" => (Json.members? read content).map mapOf
  | "object" => (objectOfJson? read content).map .object
  | "remote" => (Json.ofJson? content).map .remote
  | "pointer" => (Json.ofJson? content).map .pointer
  | _ => Option.none

/-- The value of a tree that nests fewer than `fuel` arrays and objects;
`waited` says whether the tree was taken in before its use. -/
def ofJsonWithin? : Nat → Bool → Json → Option Value
  | 0, _, _ => Option.none
  | fuel + 1, waited, json =>
    match Json.tagged? "type" "value" kinds waited json with
    | Option.none => Option.none
    | some tagged =>
      if tagged.tag = "none" then
        if tagged.isBare then some .none else Option.none
      else tagged.content.bind (holding? (ofJsonWithin? fuel tagged.waited) tagged.tag)

def ofJson? (json : Json) : Option Value := ofJsonWithin? (json.depth + 1) false json

instance : Wire Value := ⟨toJson, ofJson?⟩

end Value

instance : Wire ObjectValue where
  toJson object :=
    Value.objectJson object.name object.version (Value.entriesToJson object.fields)
  ofJson? := Value.objectOfJson? Value.ofJson?

end RemoteCall
