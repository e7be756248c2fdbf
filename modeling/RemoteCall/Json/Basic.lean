import RemoteCall.Number.Binary64
import RemoteCall.SortedMap

/-!
# JSON trees

Members of an object are kept in the order in which they were written, and with
repetitions: what a repeated or a missing member means is for the reader of the
object to say.

`unreadable` stands where a text is well formed but denotes no value: a number
beyond the floating-point numbers, a string with half a surrogate pair, or
nesting beyond the limit.  A reader that skips a member does not mind; every
reader that looks refuses it.
-/

namespace RemoteCall

/-- A JSON value. -/
inductive Json where
  | null
  | bool (value : Bool)
  | int (value : Int)
  | float (value : Binary64)
  | str (value : String)
  | arr (items : List Json)
  | obj (members : List (String × Json))
  | unreadable
  deriving Inhabited

namespace Json

/-- How many arrays and objects a text may nest. -/
def nestingLimit : Nat := 127

mutual

/-- How many arrays and objects are nested in the tree. -/
def depth : Json → Nat
  | .arr items => 1 + depthItems items
  | .obj members => 1 + depthMembers members
  | _ => 0

def depthItems : List Json → Nat
  | [] => 0
  | item :: rest => max (depth item) (depthItems rest)

def depthMembers : List (String × Json) → Nat
  | [] => 0
  | (_, value) :: rest => max (depth value) (depthMembers rest)

end

mutual

/-- Whether every part of the tree denotes a value. -/
def isReadable : Json → Bool
  | .unreadable => false
  | .arr items => areReadable items
  | .obj members => membersReadable members
  | _ => true

def areReadable : List Json → Bool
  | [] => true
  | item :: rest => isReadable item && areReadable rest

def membersReadable : List (String × Json) → Bool
  | [] => true
  | (_, value) :: rest => isReadable value && membersReadable rest

end

mutual

/-- The first number in the tree that JSON has no form for. -/
def nonFinite? : Json → Option Binary64
  | .float x => if x.isFinite then none else some x
  | .arr items => nonFiniteItem? items
  | .obj members => nonFiniteMember? members
  | _ => none

def nonFiniteItem? : List Json → Option Binary64
  | [] => none
  | item :: rest => (nonFinite? item).or (nonFiniteItem? rest)

def nonFiniteMember? : List (String × Json) → Option Binary64
  | [] => none
  | (_, value) :: rest => (nonFinite? value).or (nonFiniteMember? rest)

end

mutual

/-- The tree with every object's members in the order of their names and of
equally named ones only the last, as a reader sees it that takes any value;
`none` if some part is unreadable. -/
def distinct? : Json → Option Json
  | .unreadable => none
  | .arr items => (distinctItems? items).map .arr
  | .obj members => (distinctMembers? members).map fun members => .obj (Entries.ofList members)
  | other => some other

/-- `distinct?` of every item. -/
def distinctItems? : List Json → Option (List Json)
  | [] => some []
  | item :: rest =>
    match distinct? item, distinctItems? rest with
    | some item, some rest => some (item :: rest)
    | _, _ => none

def distinctMembers? : List (String × Json) → Option (List (String × Json))
  | [] => some []
  | (name, value) :: rest =>
    match distinct? value, distinctMembers? rest with
    | some value, some rest => some ((name, value) :: rest)
    | _, _ => none

end

def member? (name : String) : Json → Option Json
  | .obj members => Entries.find? name members
  | _ => none

end Json

end RemoteCall
