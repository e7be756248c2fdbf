import RemoteCall.Fault
import RemoteCall.Signature.Basic

/-!
# Checking arguments

The arguments of a call are checked against the signature before anything is
sent.  Named arguments are looked at first, in the order of their names; then
the positional ones, each against the next positional parameter that no named
argument has taken.  The first fault found is the answer.
-/

namespace RemoteCall

/-- Why arguments do not fit a signature. -/
inductive ValidationError where
  | unknownParameter (name : String) (valid : List String)
  | typeMismatch (param expected actual : String)
  | tooManyPositional (given accepted : Nat)
  deriving DecidableEq, Repr

def ValidationError.message : ValidationError → String
  | .unknownParameter name valid =>
    "invalid parameter `" ++ name ++ "`; valid parameters: [" ++
      String.intercalate ", " valid ++ "]"
  | .typeMismatch param expected actual =>
    "`" ++ param ++ "` must be of type `" ++ expected ++ "` not `" ++ actual ++ "`"
  | .tooManyPositional given accepted =>
    toString given ++ " positional arguments given but at most " ++ toString accepted ++
      " accepted"

def ValidationError.kind : ValidationError → String
  | .unknownParameter .. => "UnknownParameter"
  | .typeMismatch .. => "TypeMismatch"
  | .tooManyPositional .. => "TooManyPositional"

instance : Fault ValidationError := ⟨ValidationError.kind, ValidationError.message⟩

/-- The arguments of a call: those bound by position, and those bound by name in
the order of their names. -/
structure Arguments where
  args : List Value
  kwargs : SortedMap String Value
  deriving Inhabited

namespace Signature

/-- The positional parameters that none of the named arguments takes. -/
def openPositionals (signature : Signature) (kwargs : SortedMap String Value) : List Param :=
  signature.positionals.filter fun param => !kwargs.contains param.name

/-- Refuse a value that is not of a parameter's type. -/
def checkType (name : String) (value : Value) (type : TypeExpr) :
    Except ValidationError Unit :=
  if type.accepts value then .ok ()
  else .error (.typeMismatch name (toString type) value.typeName)

/-- Refuse a named argument that no parameter takes or whose value is not of the
parameter's type. -/
def checkKeyword (signature : Signature) (name : String) (value : Value) :
    Except ValidationError Unit :=
  match signature.param? name with
  | some param => checkType name value param.type
  | none =>
    if signature.varKeyword?.isSome then .ok ()
    else .error (.unknownParameter name signature.names)

/-- Refuse the first of the named arguments that does not fit. -/
def checkKeywords (signature : Signature) :
    List (String × Value) → Except ValidationError Unit
  | [] => .ok ()
  | (name, value) :: rest =>
    match signature.checkKeyword name value with
    | .error e => .error e
    | .ok () => signature.checkKeywords rest

/-- Refuse the first of the positional arguments that does not fit the parameter
at its place, or that has no place; `surplus` is the error for the latter. -/
def checkPositionals (surplus : ValidationError) (rest : Option Param) :
    List Param → List Value → Except ValidationError Unit
  | _, [] => .ok ()
  | param :: params, value :: values =>
    match checkType param.name value param.type with
    | .error e => .error e
    | .ok () => checkPositionals surplus rest params values
  | [], value :: values =>
    match rest with
    | none => .error surplus
    | some param =>
      match checkType param.name value param.type with
      | .error e => .error e
      | .ok () => checkPositionals surplus rest [] values

def validate (signature : Signature) (arguments : Arguments) :
    Except ValidationError Arguments :=
  match signature.checkKeywords arguments.kwargs.entries with
  | .error e => .error e
  | .ok () =>
    let params := signature.openPositionals arguments.kwargs
    let surplus := .tooManyPositional arguments.args.length params.length
    match checkPositionals surplus signature.varPositional? params arguments.args with
    | .error e => .error e
    | .ok () => .ok arguments

end Signature

end RemoteCall
