import RemoteCall.Json.Basic
import RemoteCall.Number.Layout
import RemoteCall.Text.Decimal

/-!
# Writing JSON text

The canonical text of a tree has no white space and one order for the members
of every object: that of their names as they stand in the text, quotation marks
and escapes included.  So a name comes after every longer name that goes on
with a blank or an exclamation mark, and names that start with an escaped
character stand among those that start with a backslash.

The indented text is for people.
-/

namespace RemoteCall.Json

/-- How a character is written in a string literal. -/
def escape (c : Char) : List Char :=
  match c with
  | '"' => ['\\', '"']
  | '\\' => ['\\', '\\']
  | '\x08' => ['\\', 'b']
  | '\x0c' => ['\\', 'f']
  | '\n' => ['\\', 'n']
  | '\r' => ['\\', 'r']
  | '\t' => ['\\', 't']
  | _ =>
    if c.toNat < 0x20 then
      ['\\', 'u', '0', '0', Nat.digitChar (c.toNat / 16), Nat.digitChar (c.toNat % 16)]
    else [c]

def quote (s : String) : List Char :=
  '"' :: s.toList.flatMap escape ++ ['"']

/-- Members in the order of their names as written. -/
def arrange (members : List (String × Json)) : List (String × Json) :=
  (Entries.ofList (members.map fun member =>
    (String.ofList (quote member.1), member))).map Prod.snd

mutual

/-- The tree with the members of every object in canonical order. -/
def canonical : Json → Json
  | .arr items => .arr (canonicalItems items)
  | .obj members => .obj (arrange (canonicalMembers members))
  | other => other

def canonicalItems : List Json → List Json
  | [] => []
  | item :: rest => canonical item :: canonicalItems rest

def canonicalMembers : List (String × Json) → List (String × Json)
  | [] => []
  | (name, value) :: rest => (name, canonical value) :: canonicalMembers rest

end

mutual

/-- The text of a tree without white space, members in the order they have. -/
def render : Json → List Char
  | .null => "null".toList
  | .bool true => "true".toList
  | .bool false => "false".toList
  | .int n => Text.Decimal.ofInt n
  | .float x => if x.isFinite then Binary64.scriptLayout.write x else "null".toList
  | .str s => quote s
  | .arr [] => ['[', ']']
  | .arr (item :: rest) => '[' :: render item ++ renderItems rest
  | .obj [] => ['{', '}']
  | .obj ((name, value) :: rest) =>
    '{' :: quote name ++ ':' :: render value ++ renderMembers rest
  | .unreadable => "null".toList

/-- Further items of an array, each after a comma, and the closing bracket. -/
def renderItems : List Json → List Char
  | [] => [']']
  | item :: rest => ',' :: render item ++ renderItems rest

/-- Further members of an object, each after a comma, and the closing brace. -/
def renderMembers : List (String × Json) → List Char
  | [] => ['}']
  | (name, value) :: rest =>
    ',' :: quote name ++ ':' :: render value ++ renderMembers rest

end

def canonicalText (value : Json) : List Char := render (canonical value)

/-- A new line, indented by two blanks for each of `depth` levels. -/
def newLine (depth : Nat) : List Char := '\n' :: List.replicate (2 * depth) ' '

mutual

/-- The text of a tree over several lines, for a value `depth` levels down. -/
def indentedAt (depth : Nat) : Json → List Char
  | .float x => if x.isFinite then Binary64.plainLayout.write x else "null".toList
  | .arr [] => ['[', ']']
  | .arr (item :: rest) =>
    '[' :: newLine (depth + 1) ++ indentedAt (depth + 1) item ++ indentedItems depth rest
  | .obj [] => ['{', '}']
  | .obj ((name, value) :: rest) =>
    '{' :: newLine (depth + 1) ++ quote name ++ ':' :: ' ' :: indentedAt (depth + 1) value ++
      indentedMembers depth rest
  | other => render other

/-- Further items of an array `depth` levels down. -/
def indentedItems (depth : Nat) : List Json → List Char
  | [] => newLine depth ++ [']']
  | item :: rest =>
    ',' :: newLine (depth + 1) ++ indentedAt (depth + 1) item ++ indentedItems depth rest

/-- Further members of an object `depth` levels down. -/
def indentedMembers (depth : Nat) : List (String × Json) → List Char
  | [] => newLine depth ++ ['}']
  | (name, value) :: rest =>
    ',' :: newLine (depth + 1) ++ quote name ++ ':' :: ' ' :: indentedAt (depth + 1) value ++
      indentedMembers depth rest

end

/-- The text of a tree over several lines, two blanks a level. -/
def indented (value : Json) : String := String.ofList (indentedAt 0 value)

end RemoteCall.Json
