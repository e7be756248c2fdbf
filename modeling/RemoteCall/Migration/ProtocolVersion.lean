import RemoteCall.Fault
import RemoteCall.Json.Reader
import RemoteCall.Text.Decimal
import RemoteCall.Text.Quoted

/-!
# Protocol versions

The version of the protocol that a session speaks is a small number, or `dev`,
which is newer than every number.
-/

namespace RemoteCall

/-- A version of the protocol. -/
inductive ProtocolVersion where
  | stable (n : UInt32)
  | dev
  deriving DecidableEq, Repr, Inhabited

/-- A text that is no protocol version. -/
structure InvalidProtocol where
  text : String
  deriving DecidableEq, Repr

def InvalidProtocol.message (e : InvalidProtocol) : String :=
  "unknown protocol version " ++ Text.Quoted.text e.text ++
    "; expected an integer or \"dev\""

def InvalidProtocol.kind : InvalidProtocol → String
  | _ => "InvalidProtocol"

instance : Fault InvalidProtocol := ⟨InvalidProtocol.kind, InvalidProtocol.message⟩

namespace ProtocolVersion

/-- Whether the version is `dev`. -/
def isDev : ProtocolVersion → Bool
  | .dev => true
  | .stable _ => false

def order : ProtocolVersion → ProtocolVersion → Ordering
  | .stable n, .stable m => compare n m
  | .stable _, .dev => .lt
  | .dev, .stable _ => .gt
  | .dev, .dev => .eq

instance : Ord ProtocolVersion := ⟨order⟩

/-- Whether the first version is at most as new as the second. -/
def atMost (version limit : ProtocolVersion) : Bool := compare version limit != .gt

def toChars : ProtocolVersion → List Char
  | .stable n => Text.Decimal.ofNat n.toNat
  | .dev => "dev".toList

instance : ToString ProtocolVersion := ⟨fun version => String.ofList version.toChars⟩

def describe : ProtocolVersion → String
  | .stable n => "Stable(" ++ String.ofList (Text.Decimal.ofNat n.toNat) ++ ")"
  | .dev => "Dev"

def ofChars? (text : List Char) : Option ProtocolVersion :=
  if text = "dev".toList then some .dev
  else (Text.Decimal.unsigned? UInt32.size text).map fun n => .stable (UInt32.ofNat n)

def ofString (text : String) : Except InvalidProtocol ProtocolVersion :=
  match ofChars? text.toList with
  | some version => .ok version
  | none => .error ⟨text⟩

/-- Whether a catalog made for `current` has to be downgraded for a session that
speaks `negotiated`. -/
def needsDowngrade : ProtocolVersion → ProtocolVersion → Bool
  | _, .dev => false
  | .dev, .stable _ => true
  | .stable current, .stable negotiated => negotiated < current

def newest? : List ProtocolVersion → Option ProtocolVersion
  | [] => none
  | version :: rest =>
    match newest? rest with
    | none => some version
    | some other => some (if atMost version other then other else version)

instance : Json.Wire ProtocolVersion where
  toJson version := .str (toString version)
  ofJson? value := (Json.str? value).bind fun text => ofChars? text.toList

end ProtocolVersion

end RemoteCall
