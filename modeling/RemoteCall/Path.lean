import RemoteCall.Fault
import RemoteCall.Text.Quoted

/-!
# Dotted paths

The path of an operation is made of identifiers with dots between them.
-/

namespace RemoteCall

/-- A text that is no dotted path. -/
structure InvalidPath where
  path : String
  deriving DecidableEq, Repr

def InvalidPath.message (e : InvalidPath) : String :=
  "endpoint path " ++ Text.Quoted.text e.path ++ " is not a dotted identifier path"

def InvalidPath.kind : InvalidPath → String
  | _ => "InvalidPath"

instance : Fault InvalidPath := ⟨InvalidPath.kind, InvalidPath.message⟩

namespace Path

/-- Whether a segment may start with the character: an ASCII letter or an
underscore. -/
def isStart (c : Char) : Bool := c.isAlpha || c == '_'

/-- Whether a segment may go on with the character. -/
def isPart (c : Char) : Bool := isStart c || c.isDigit

def isIdentifier : List Char → Bool
  | [] => false
  | c :: rest => isStart c && rest.all isPart

/-- The parts of a text between its dots. -/
def splitDots : List Char → List (List Char)
  | [] => [[]]
  | c :: rest =>
    if c = '.' then [] :: splitDots rest
    else
      match splitDots rest with
      | segment :: segments => (c :: segment) :: segments
      | [] => [[c]]

/-- The parts of a text before and after its last dot, if it has one. -/
def splitLast? : List Char → Option (List Char × List Char)
  | [] => none
  | c :: rest =>
    match splitLast? rest with
    | some (before, after) => some (c :: before, after)
    | none => if c = '.' then some ([], rest) else none

def segments (path : String) : List String := (splitDots path.toList).map String.ofList

def join (segments : List String) : String := String.intercalate "." segments

/-- What stands before the last dot, or nothing. -/
def parent (path : String) : String :=
  match splitLast? path.toList with
  | some (before, _) => String.ofList before
  | none => ""

/-- What stands after the last dot, or everything. -/
def leaf (path : String) : String :=
  match splitLast? path.toList with
  | some (_, after) => String.ofList after
  | none => path

/-- Whether every segment of a path is an identifier. -/
def isValid (path : String) : Bool := (splitDots path.toList).all isIdentifier

def check (path : String) : Except InvalidPath Unit :=
  if isValid path then .ok () else .error ⟨path⟩

end Path

end RemoteCall
