import RemoteCall.Json.Basic

/-!
# Reading values out of JSON trees

A record is written as an object with one member for each field, or as an array
of the fields in order.  In the object every field stands at most once and
other members are skipped; in the array the last fields may be missing but
nothing may follow them.

A variant of a tagged type is written as an object with the tag under one name
and the content under another, in either order, or as an array of the two.
When the content comes first its reading has to wait for the tag; it is then
taken in as a whole, so no part of it may be unreadable, not even one that is
skipped later.  In what was taken in so, an array may give its tag as a number.
-/

namespace RemoteCall.Json

/-- How values of a type are written as JSON and read back. -/
class Wire (α : Type) where
  toJson : α → Json
  ofJson? : Json → Option α

export Wire (toJson ofJson?)

/-- The value of the field called `name`, `none` inside if it is missing, and
no answer if it is repeated. -/
def fieldOf (members : List (String × Json)) (name : String) : Option (Option Json) :=
  match members.filter fun member => member.1 == name with
  | [] => some none
  | [member] => some (some member.2)
  | _ => none

/-- The values of a record's fields in order, each `none` if it is missing. -/
def fields? (names : List String) : Json → Option (List (Option Json))
  | .obj members => names.mapM (fieldOf members)
  | .arr items =>
    if items.length ≤ names.length then
      some (items.map some ++ List.replicate (names.length - items.length) none)
    else none
  | _ => none

/-- A field that may be missing, and is `fallback` then. -/
def orElse {α : Type} (fallback : α) (read : Json → Option α) : Option Json → Option α
  | none => some fallback
  | some value => read value

def nullable {α : Type} (read : Json → Option α) : Json → Option (Option α)
  | .null => some none
  | value => (read value).map some

/-- A field that may be missing or null. -/
def optional {α : Type} (read : Json → Option α) (field : Option Json) : Option (Option α) :=
  orElse none (nullable read) field

def bool? : Json → Option Bool
  | .bool b => some b
  | _ => none

def str? : Json → Option String
  | .str s => some s
  | _ => none

/-- A whole number from `0` up to but without `bound`. -/
def below? (bound : Nat) : Json → Option Nat
  | .int n => if 0 ≤ n ∧ n < bound then some n.toNat else none
  | _ => none

def byte? (value : Json) : Option UInt8 := (below? UInt8.size value).map UInt8.ofNat

def word? (value : Json) : Option UInt32 := (below? UInt32.size value).map UInt32.ofNat

def int64? : Json → Option Int64
  | .int n =>
    if Int64.minValue.toInt ≤ n ∧ n ≤ Int64.maxValue.toInt then some (Int64.ofInt n) else none
  | _ => none

/-- A floating-point number; whole numbers are taken as well. -/
def float? : Json → Option Binary64
  | .float x => some x
  | .int n => some (Binary64.ofInt n)
  | _ => none

def list? {α : Type} (read : Json → Option α) : Json → Option (List α)
  | .arr items => items.mapM read
  | _ => none

/-- The members of an object, their values read. -/
def members? {α : Type} (read : Json → Option α) : Json → Option (List (String × α))
  | .obj members => members.mapM fun member => (read member.2).map fun value => (member.1, value)
  | _ => none

/-- An object as a map by name; of equally named members the last wins. -/
def map? {α : Type} (read : Json → Option α) (value : Json) : Option (SortedMap String α) :=
  (members? read value).map SortedMap.ofList

/-- Whether a name without content may be followed by this.  Content that was
taken in before its use may also be an empty object. -/
def isUnit (waited : Bool) : Json → Bool
  | .null => true
  | .obj [] => waited
  | _ => false

/-- One of several names: a text, or an object with the name as its only member
and no content. -/
def name? (waited : Bool) : Json → Option String
  | .str s => some s
  | .obj [(name, content)] => if isUnit waited content then some name else none
  | _ => none

/-- A tagged variant as it was found. -/
structure Tagged where
  tag : String
  content : Option Json
  /-- Whether the content was taken in before its use. -/
  waited : Bool

/-- The tag at the head of an array: a text.  If the array was taken in before its
use, the tag may also be told by its place among the `tags`. -/
def leadingTag? (tags : List String) (waited : Bool) : Json → Option String
  | .str tag => some tag
  | .int n => if waited ∧ 0 ≤ n then tags[n.toNat]? else none
  | _ => none

/-- The parts of a tagged variant whose tag and content stand under the two
names; the `tags` are in the order in which the variants are declared. -/
def tagged? (tagName contentName : String) (tags : List String) (waited : Bool) :
    Json → Option Tagged
  | .obj members =>
    match members.filter fun member => member.1 == tagName || member.1 == contentName with
    | [(first, value)] =>
      if first = tagName then
        (name? waited value).map fun tag => ⟨tag, none, waited⟩
      else none
    | [(first, value), (second, value')] =>
      if first = tagName ∧ second = contentName then
        (name? waited value).map fun tag => ⟨tag, some value', waited⟩
      else if first = contentName ∧ second = tagName ∧ value.isReadable then
        (name? waited value').map fun tag => ⟨tag, some value, true⟩
      else none
    | _ => none
  | .arr [tag, content] => (leadingTag? tags waited tag).map fun tag => ⟨tag, some content, waited⟩
  | _ => none

def Tagged.isBare (tagged : Tagged) : Bool :=
  match tagged.content with
  | none => true
  | some .null => true
  | some _ => false

end RemoteCall.Json
