import RemoteCall.Fault
import RemoteCall.Signature.TypeExpr
import RemoteCall.Text.Quoted

/-!
# Call signatures

A signature is the list of an endpoint's parameters and the type of its result.
A parameter is bound by position or by name, by name only, or takes all
arguments that nothing else takes.
-/

namespace RemoteCall

/-- How an argument is bound to a parameter. -/
inductive ParamKind where
  /-- By position or by name. -/
  | positional
  /-- By name only. -/
  | keyword
  /-- Takes the positional arguments left over. -/
  | varPositional
  /-- Takes the named arguments left over. -/
  | varKeyword
  deriving DecidableEq, Repr

/-- A declared parameter. -/
structure Param where
  name : String
  kind : ParamKind
  type : TypeExpr
  /-- Whether it may be left out of a call. -/
  hasDefault : Bool

/-- How an endpoint is called. -/
structure Signature where
  params : List Param
  returns : Option TypeExpr

/-- The keyword that controls every call and that no signature may declare. -/
def reservedKeyword : String := "blocking"

/-- Why a signature cannot be used. -/
inductive SignatureError where
  | reservedKeyword (name : String)
  | duplicateParameter (name : String)
  deriving DecidableEq, Repr

def SignatureError.message : SignatureError → String
  | .reservedKeyword name =>
    "signature can't declare " ++ Text.Quoted.text name ++ "; the keyword is reserved"
  | .duplicateParameter name =>
    "parameter " ++ Text.Quoted.text name ++ " is declared more than once"

def SignatureError.kind : SignatureError → String
  | .reservedKeyword _ => "ReservedKeyword"
  | .duplicateParameter _ => "DuplicateParameter"

instance : Fault SignatureError := ⟨SignatureError.kind, SignatureError.message⟩

namespace Param

/-- A parameter bound by position or by name. -/
def positional (name : String) (type : TypeExpr) : Param := ⟨name, .positional, type, false⟩

def keyword (name : String) (type : TypeExpr) : Param := ⟨name, .keyword, type, false⟩

/-- The parameter for positional arguments left over. -/
def varPositional (name : String) (type : TypeExpr) : Param :=
  ⟨name, .varPositional, type, false⟩

/-- The parameter for named arguments left over. -/
def varKeyword (name : String) (type : TypeExpr) : Param := ⟨name, .varKeyword, type, false⟩

/-- The parameter, which may be left out of a call. -/
def withDefault (param : Param) : Param := { param with hasDefault := true }

/-- Whether a named argument of this name is bound to the parameter. -/
def acceptsKeyword (param : Param) : Bool :=
  param.kind == .positional || param.kind == .keyword

end Param

namespace Signature

def empty : Signature := ⟨[], none⟩

instance : Inhabited Signature := ⟨empty⟩

/-- The signature with the given result type. -/
def returning (signature : Signature) (type : TypeExpr) : Signature :=
  { signature with returns := some type }

/-- The parameter that a named argument is bound to. -/
def param? (signature : Signature) (name : String) : Option Param :=
  signature.params.find? fun param => param.name == name && param.acceptsKeyword

/-- The names of all parameters, in order. -/
def names (signature : Signature) : List String := signature.params.map Param.name

/-- The parameter for positional arguments left over. -/
def varPositional? (signature : Signature) : Option Param :=
  signature.params.find? fun param => param.kind == .varPositional

/-- The parameter for named arguments left over. -/
def varKeyword? (signature : Signature) : Option Param :=
  signature.params.find? fun param => param.kind == .varKeyword

/-- The parameters that can be bound by position, in order. -/
def positionals (signature : Signature) : List Param :=
  signature.params.filter fun param => param.kind == .positional

/-- The first parameter that is reserved or repeats one of the names `seen`
before it. -/
def firstFault? (seen : List String) : List Param → Option SignatureError
  | [] => none
  | param :: rest =>
    if param.name = RemoteCall.reservedKeyword then some (.reservedKeyword param.name)
    else if param.name ∈ seen then some (.duplicateParameter param.name)
    else firstFault? (param.name :: seen) rest

/-- Refuse signatures that declare the reserved keyword or repeat a name. -/
def check (signature : Signature) : Except SignatureError Unit :=
  match firstFault? [] signature.params with
  | some fault => .error fault
  | none => .ok ()

/-- The signature that a caller sees.  A receiver in front is dropped unless the
endpoint binds one, and the context is always dropped, since the service adds
it. -/
def withoutReceiver (signature : Signature) (hasSelf : Bool) : Signature :=
  let seen := match signature.params with
    | param :: rest => if !hasSelf && param.name == "self" then rest else param :: rest
    | [] => []
  { signature with params := seen.filter fun param => param.name != "context" }

end Signature

/-! ## Wire form -/

open Json (Wire)

namespace ParamKind

/-- The name that goes over the wire. -/
def wireName : ParamKind → String
  | .positional => "positional"
  | .keyword => "keyword"
  | .varPositional => "var-positional"
  | .varKeyword => "var-keyword"

def ofWireName? : String → Option ParamKind
  | "positional" => some .positional
  | "keyword" => some .keyword
  | "var-positional" => some .varPositional
  | "var-keyword" => some .varKeyword
  | _ => none

instance : Wire ParamKind where
  toJson kind := .str kind.wireName
  ofJson? value := (Json.name? false value).bind ofWireName?

end ParamKind

instance : Wire Param where
  toJson param := .obj [("name", .str param.name), ("kind", Json.toJson param.kind),
    ("type", Json.toJson param.type), ("has_default", .bool param.hasDefault)]
  ofJson? value := do
    match ← Json.fields? ["name", "kind", "type", "has_default"] value with
    | [some name, some kind, some type, hasDefault] =>
      return ⟨← Json.str? name, ← Json.ofJson? kind, ← Json.ofJson? type,
        ← Json.orElse false Json.bool? hasDefault⟩
    | _ => none

instance : Wire Signature where
  toJson signature := .obj (("params", .arr (signature.params.map Json.toJson)) ::
    match signature.returns with
    | none => []
    | some type => [("returns", Json.toJson type)])
  ofJson? value := do
    match ← Json.fields? ["params", "returns"] value with
    | [some params, returns] =>
      return ⟨← Json.list? Json.ofJson? params, ← Json.optional Json.ofJson? returns⟩
    | _ => none

end RemoteCall
