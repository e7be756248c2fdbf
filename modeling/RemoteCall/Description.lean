import RemoteCall.Migration.Conversion
import RemoteCall.Signing.Key
import RemoteCall.Value.Wire

/-!
# Descriptions

Engines and services can be described by JSON trees.  This module holds what the
readers of such descriptions share: looking into trees, and what can be wrong
with them.
-/

namespace RemoteCall

open Json (Wire)

/-- Why a tree describes nothing. -/
inductive DescriptionError where
  | malformed
  | key (cause : KeyError)
  | protocol (cause : InvalidProtocol)
  | migration (cause : MigrationError)
  deriving DecidableEq, Repr

namespace DescriptionError

def message : DescriptionError → String
  | .malformed => "malformed description"
  | .key cause => cause.message
  | .protocol cause => cause.message
  | .migration cause => cause.message

def kind : DescriptionError → String
  | .malformed => "Decode"
  | .key cause => cause.kind
  | .protocol cause => cause.kind
  | .migration cause => cause.kind

instance : Fault DescriptionError := ⟨kind, message⟩

end DescriptionError

/-- What reading a description comes to. -/
abbrev Described := Except DescriptionError

namespace Json

/-- A member of an object; `null` if there is no such member. -/
def part (tree : Json) (name : String) : Json := (tree.member? name).getD .null

/-- Whether an object has a member that is not `null`. -/
def tells (tree : Json) (name : String) : Bool :=
  match tree.part name with
  | .null => false
  | _ => true

/-- The items of an array; nothing else has any. -/
def items : Json → List Json
  | .arr items => items
  | _ => []

/-- The members of an object; nothing else has any. -/
def members : Json → List (String × Json)
  | .obj members => members
  | _ => []

/-- What a tree is the wire form of. -/
def described {α : Type} [Wire α] (tree : Json) : Described α :=
  match ofJson? tree with
  | some a => .ok a
  | none => .error .malformed

def textIn (tree : Json) : Described String :=
  match str? tree with
  | some text => .ok text
  | none => .error .malformed

def textAt (tree : Json) (name : String) : Described String := (tree.part name).textIn

/-- The truth value of a member, if it has one. -/
def flagAt (tree : Json) (name : String) (default : Bool) : Bool :=
  match tree.part name with
  | .bool flag => flag
  | _ => default

/-- The small number that a tree is. -/
def wordIn (tree : Json) : Described UInt32 :=
  match word? tree with
  | some n => .ok n
  | none => .error .malformed

end Json

end RemoteCall
