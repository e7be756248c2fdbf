import RemoteCall.Json.Parser
import RemoteCall.Json.Reader
import RemoteCall.Value.Basic

/-!
# Values as people write them

On the command line values are typed and shown as plain JSON, without the tags
that tell one kind of value from another.  Whatever plain JSON can say comes
back as it was typed: numbers that are whole and fit into 64 bits are whole
numbers, all others are floating-point numbers, and objects are maps.  The other
kinds of values can be shown but not typed.
-/

namespace RemoteCall.Value

mutual

/-- The value that a tree stands for. -/
def ofPlain : Json → Value
  | .null | .unreadable => .none
  | .bool b => .bool b
  | .int n =>
    match Json.int64? (.int n) with
    | some word => .int word
    | _ => .float (Binary64.ofInt n)
  | .float x => .float x
  | .str s => .str s
  | .arr items => .list (ofPlainItems items)
  | .obj members => mapOf (ofPlainMembers members)

def ofPlainItems : List Json → List Value
  | [] => []
  | item :: rest => ofPlain item :: ofPlainItems rest

def ofPlainMembers : List (String × Json) → List (String × Value)
  | [] => []
  | (name, tree) :: rest => (name, ofPlain tree) :: ofPlainMembers rest

end

mutual

/-- The tree that a value is shown as. -/
def toPlain : Value → Json
  | .none => .null
  | .bool b => .bool b
  | .int n => .int n.toInt
  | .float x => if x.isFinite then .float x else .null
  | .str s => .str s
  | .bytes data => .str (String.ofList (Text.Hex.encode data))
  | .uid id => .str (toString id)
  | .pointer id => .str (toString id)
  | .list items => .arr (toPlainItems items)
  | .map entries => .obj (toPlainEntries entries)
  | .object ⟨name, version, fields⟩ =>
    .obj [("fields", .obj (toPlainEntries fields)), ("type", .str name),
      ("version", .int version.toNat)]
  | .remote ⟨id, _, typeName⟩ => .obj [("remote", .str (toString id)), ("type", .str typeName)]

def toPlainItems : List Value → List Json
  | [] => []
  | item :: rest => toPlain item :: toPlainItems rest

def toPlainEntries : List (String × Value) → List (String × Json)
  | [] => []
  | (name, value) :: rest => (name, toPlain value) :: toPlainEntries rest

end

/-- The value that was typed: that of the text as JSON, or else the text. -/
def ofTyped (text : String) : Value :=
  match Json.ofText? text with
  | some tree => if tree.isReadable then ofPlain tree else .str text
  | _ => .str text

end RemoteCall.Value
