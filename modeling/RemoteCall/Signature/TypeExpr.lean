import RemoteCall.Json.Reader
import RemoteCall.Value.Basic

/-!
# Types of parameters and results

A type says which values a parameter takes.  A domain type is named together
with a version of it; which versions there are is for the type registry to say.
-/

namespace RemoteCall

/-- Types without parts. -/
inductive Primitive where
  | none
  | bool
  | int
  | float
  | str
  | bytes
  | uid
  deriving DecidableEq, Repr

/-- One version of a domain type. -/
structure DomainRef where
  name : String
  version : UInt32
  deriving DecidableEq, Repr

/-- A declared type. -/
inductive TypeExpr where
  /-- Every value. -/
  | any
  | primitive (kind : Primitive)
  /-- None, or a value of the inner type. -/
  | optional (inner : TypeExpr)
  | union (alternatives : List TypeExpr)
  | list (inner : TypeExpr)
  /-- Maps with values of the inner type. -/
  | map (inner : TypeExpr)
  | domain (ref : DomainRef)
  deriving Inhabited

namespace Primitive

instance : ToString Primitive where
  toString
    | .none => "None"
    | .bool => "bool"
    | .int => "int"
    | .float => "float"
    | .str => "str"
    | .bytes => "bytes"
    | .uid => "UID"

/-- The name that goes over the wire. -/
def wireName : Primitive → String
  | .none => "none"
  | .bool => "bool"
  | .int => "int"
  | .float => "float"
  | .str => "str"
  | .bytes => "bytes"
  | .uid => "uid"

/-- The type with the given name on the wire. -/
def ofWireName? : String → Option Primitive
  | "none" => some .none
  | "bool" => some .bool
  | "int" => some .int
  | "float" => some .float
  | "str" => some .str
  | "bytes" => some .bytes
  | "uid" => some .uid
  | _ => Option.none

/-- Whether a value is of the type; whole numbers pass for floats. -/
def accepts : Primitive → Value → Bool
  | .none, .none => true
  | .bool, .bool _ => true
  | .int, .int _ => true
  | .float, .float _ => true
  | .float, .int _ => true
  | .str, .str _ => true
  | .bytes, .bytes _ => true
  | .uid, .uid _ => true
  | _, _ => false

end Primitive

namespace TypeExpr

mutual

/-- The domain types named in a type, from left to right. -/
def domainRefs : TypeExpr → List DomainRef
  | .any => []
  | .primitive _ => []
  | .optional inner => domainRefs inner
  | .union alternatives => domainRefsOf alternatives
  | .list inner => domainRefs inner
  | .map inner => domainRefs inner
  | .domain ref => [ref]

def domainRefsOf : List TypeExpr → List DomainRef
  | [] => []
  | type :: rest => domainRefs type ++ domainRefsOf rest

end

mutual

/-- The text of a type; versions are not shown. -/
def text : TypeExpr → String
  | .any => "Any"
  | .primitive kind => toString kind
  | .optional inner => "Optional[" ++ text inner ++ "]"
  | .union alternatives => "Union[" ++ String.intercalate ", " (texts alternatives) ++ "]"
  | .list inner => "list[" ++ text inner ++ "]"
  | .map inner => "dict[str, " ++ text inner ++ "]"
  | .domain ref => ref.name

def texts : List TypeExpr → List String
  | [] => []
  | type :: rest => text type :: texts rest

end

instance : ToString TypeExpr := ⟨text⟩

mutual

/-- Whether a value is of a type.  Objects, and references to objects on the
service, match a domain type by its name; their version is reconciled when the
call is made. -/
def accepts : TypeExpr → Value → Bool
  | .any, _ => true
  | .primitive kind, value => kind.accepts value
  | .optional inner, value => value.isNone || accepts inner value
  | .union alternatives, value => anyAccepts alternatives value
  | .list inner, value =>
    match value with
    | .list items => items.all fun item => accepts inner item
    | _ => false
  | .map inner, value =>
    match value with
    | .map entries => entries.all fun entry => accepts inner entry.2
    | _ => false
  | .domain ref, value =>
    match value with
    | .object object => object.name == ref.name
    | .remote remote => remote.typeName == ref.name
    | _ => false

/-- Whether a value is of one of several types. -/
def anyAccepts : List TypeExpr → Value → Bool
  | [], _ => false
  | type :: rest, value => accepts type value || anyAccepts rest value

end

end TypeExpr

/-! ## Wire form -/

open Json (Wire)

namespace Primitive

def ofJson? (waited : Bool) (json : Json) : Option Primitive :=
  (Json.name? waited json).bind ofWireName?

end Primitive

instance : Wire DomainRef where
  toJson ref := .obj [("name", .str ref.name), ("version", .int ref.version.toNat)]
  ofJson? value := do
    match ← Json.fields? ["name", "version"] value with
    | [some name, some version] => return ⟨← Json.str? name, ← Json.word? version⟩
    | _ => none

namespace TypeExpr

/-- A type of the given kind with its parts. -/
def tagged (kind : String) (content : Json) : Json :=
  .obj [("kind", .str kind), ("of", content)]

mutual

def toJson : TypeExpr → Json
  | .any => .obj [("kind", .str "any")]
  | .primitive kind => tagged "primitive" (.str kind.wireName)
  | .optional inner => tagged "optional" (toJson inner)
  | .union alternatives => tagged "union" (.arr (alternativesToJson alternatives))
  | .list inner => tagged "list" (toJson inner)
  | .map inner => tagged "map" (toJson inner)
  | .domain ref => tagged "domain" (Json.toJson ref)

def alternativesToJson : List TypeExpr → List Json
  | [] => []
  | type :: rest => toJson type :: alternativesToJson rest

end

/-- The kinds of types, in the order in which they are declared. -/
def kinds : List String := ["any", "primitive", "optional", "union", "list", "map", "domain"]

/-- A type of the given kind; the types inside are read by `read`. -/
def holding? (read : Json → Option TypeExpr) (waited : Bool) (kind : String) (content : Json) :
    Option TypeExpr :=
  match kind with
  | "primitive" => (Primitive.ofJson? waited content).map .primitive
  | "optional" => (read content).map .optional
  | "union" => (Json.list? read content).map .union
  | "list" => (read content).map .list
  | "map" => (read content).map .map
  | "domain" => (Json.ofJson? content).map .domain
  | _ => none

/-- The type of a tree that nests fewer than `fuel` arrays and objects; `waited`
says whether the tree was taken in before its use. -/
def ofJsonWithin? : Nat → Bool → Json → Option TypeExpr
  | 0, _, _ => none
  | fuel + 1, waited, json =>
    match Json.tagged? "kind" "of" kinds waited json with
    | none => none
    | some tagged =>
      if tagged.tag = "any" then if tagged.isBare then some .any else none
      else
        tagged.content.bind
          (holding? (ofJsonWithin? fuel tagged.waited) tagged.waited tagged.tag)

def ofJson? (json : Json) : Option TypeExpr := ofJsonWithin? (json.depth + 1) false json

instance : Wire TypeExpr := ⟨toJson, ofJson?⟩

end TypeExpr

end RemoteCall
