import RemoteCall.Signature.Basic

/-!
# Signatures for people

A signature is written as the call it describes.  One that does not fit on a
line of 75 columns has one parameter on each line.
-/

namespace RemoteCall

/-- The widest signature that stays on one line, in bytes. -/
def Signature.lineWidth : Nat := 75

/-- A parameter as it is written: stars in front of one that takes what is left
over, its type unless that takes everything, and dots for a default. -/
def Param.text (param : Param) : String :=
  let stars := match param.kind with
    | .varPositional => "*"
    | .varKeyword => "**"
    | _ => ""
  let rest := match param.type, param.hasDefault with
    | .any, true => "=..."
    | .any, false => ""
    | type, true => ": " ++ toString type ++ " = ..."
    | type, false => ": " ++ toString type
  stars ++ param.name ++ rest

namespace Signature

/-- The parameters as written; a lone star stands before the first that is bound
by name only, unless a starred parameter came before (`due` says that neither
has). -/
def parts (due : Bool) : List Param → List String
  | [] => []
  | param :: rest =>
    match param.kind with
    | .varPositional => param.text :: parts false rest
    | .keyword =>
      if due then "*" :: param.text :: parts false rest else param.text :: parts due rest
    | _ => param.text :: parts due rest

/-- The signature as a call of `name`. -/
def render (signature : Signature) (name : String) : String :=
  let parts := parts true signature.params
  let width := (name ++ String.join (parts.map (· ++ ", "))).utf8ByteSize
  let call :=
    if lineWidth < width then
      name ++ "(\n" ++ String.join (parts.map fun part => "    " ++ part ++ ",\n") ++ ")"
    else name ++ "(" ++ String.intercalate ", " parts ++ ")"
  match signature.returns with
  | none => call
  | some type => call ++ " -> " ++ toString type

end Signature

end RemoteCall
