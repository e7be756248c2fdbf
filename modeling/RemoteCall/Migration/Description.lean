import RemoteCall.Description
import RemoteCall.Migration.Engine

/-!
# Engines described by JSON

What an engine knows can be written down as a JSON tree:

* `types` lists the versions of types.  Each has `name`, `version` and `fields`,
  and may have `ops`, the field changes that make it of the version before, or
  `converters`, of which `up` and `down` are `null` or tell which fields to drop
  and which to set, or with which message to fail.
* `protocols` lists numbers of protocols, each with pairs of a type's name and a
  version of it that the protocol understands.
-/

namespace RemoteCall

namespace FieldOp

def ofDescription (tree : Json) : Described FieldOp := do
  match ← tree.textAt "op" with
  | "rename" => return .rename (← tree.textAt "from") (← tree.textAt "to")
  | "remove" => return .remove (← tree.textAt "name") (← (tree.part "default").described)
  | "add" => return .add (← tree.textAt "name") (← (tree.part "default").described)
  | _ => throw .malformed

end FieldOp

/-- Drop some fields, then set some. -/
def Fields.edit (drop : List String) (set : List (String × Value)) (fields : Fields) : Fields :=
  let kept := drop.foldl (fun fields name => Entries.erase name fields) fields
  set.foldl (fun fields entry => Entries.insert entry.1 entry.2 fields) kept

def Converter.ofDescription (type : String) (tree : Json) : Described (Option Converter) := do
  if tree.tells "fail" then
    let message ← tree.textAt "fail"
    return some fun _ => .error (.converter type message)
  else
    match tree with
    | .obj _ =>
      let drop ← (tree.part "drop").items.mapM Json.textIn
      let set ← (tree.part "set").members.mapM fun member => do
        return (member.1, ← member.2.described)
      return some fun fields => .ok (fields.edit drop set)
    | _ => return none

namespace MigrationEngine

/-- The described version of a type, with its difference to the one before. -/
def versionOfDescription (tree : Json) : Described (TypeDescriptor × Step) := do
  let name ← tree.textAt "name"
  let version ← (tree.part "version").wordIn
  let fields ← (tree.part "fields").items.mapM fun field => field.described
  let converters := tree.part "converters"
  let step ←
    if tree.tells "ops" then
      Step.ops <$> (tree.part "ops").items.mapM FieldOp.ofDescription
    else if tree.tells "converters" then
      Step.custom <$> Converter.ofDescription name (converters.part "up")
        <*> Converter.ofDescription name (converters.part "down")
    else pure .none
  return (⟨name, version, fields⟩, step)

def protocolOfDescription (tree : Json) : Described (UInt32 × List (String × UInt32)) := do
  match tree with
  | .arr [number, versions] =>
    let pairs ← versions.items.mapM fun pair => do
      match pair with
      | .arr [name, version] => return (← name.textIn, ← version.wordIn)
      | _ => throw .malformed
    return (← number.wordIn, pairs)
  | _ => throw .malformed

def ofDescription (tree : Json) : Described MigrationEngine := do
  let versions ← (tree.part "types").items.mapM versionOfDescription
  let registry ← (TypeRegistry.ofList versions).mapError .migration
  let protocols ← (tree.part "protocols").items.mapM protocolOfDescription
  let data := protocols.foldl (fun data entry => data.withProtocol entry.1 entry.2) DataProtocol.empty
  return { registry, data }

end MigrationEngine

end RemoteCall
