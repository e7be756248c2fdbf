import RemoteCall.Codec
import RemoteCall.Migration.Registry

/-!
# What each protocol version understands

A data protocol lists, for each numbered protocol version, the versions of each
domain type that it understands.  `dev` is not listed: it understands all that
is registered.
-/

namespace RemoteCall

/-- The versions of each type that a protocol understands. -/
abbrev ObjectVersions := SortedMap String (SortedSet UInt32)

namespace ObjectVersions

/-- The newest version of a type that is understood. -/
def newest? (versions : ObjectVersions) (name : String) : Option UInt32 :=
  (versions.get? name).bind SortedMap.lastKey?

end ObjectVersions

/-- Which versions of which types each protocol understands. -/
structure DataProtocol where
  protocols : SortedMap UInt32 ObjectVersions
  deriving Inhabited

namespace DataProtocol

def empty : DataProtocol := ⟨.empty⟩

/-- Let one more version of a type be understood. -/
def addVersion (versions : ObjectVersions) (name : String) (version : UInt32) :
    ObjectVersions :=
  versions.insert name (((versions.get? name).getD .empty).insert version ())

/-- The data protocol in which `protocol` understands the given versions, and
what it understood before. -/
def withProtocol (data : DataProtocol) (protocol : UInt32)
    (versions : List (String × UInt32)) : DataProtocol :=
  let known := (data.protocols.get? protocol).getD .empty
  ⟨data.protocols.insert protocol
    (versions.foldl (fun known pair => addVersion known pair.1 pair.2) known)⟩

/-- The protocols that can be spoken, ascending. -/
def supported (data : DataProtocol) : List ProtocolVersion :=
  data.protocols.keys.map ProtocolVersion.stable ++ [.dev]

def latestStable? (data : DataProtocol) : Option UInt32 := data.protocols.lastKey?

/-- What a protocol understands; for `dev` that is all that is registered. -/
def objectVersions (data : DataProtocol) (registry : TypeRegistry) :
    ProtocolVersion → Except MigrationError ObjectVersions
  | .dev => .ok (registry.types.mapValues fun _ history =>
      history.versions.mapValues fun _ _ => ())
  | .stable n =>
    match data.protocols.get? n with
    | some versions => .ok versions
    | none => .error (.unknownProtocol (.stable n))

end DataProtocol

/-! ## Wire form -/

open Json (Wire)

namespace ObjectVersions

def toJson (versions : ObjectVersions) : Json :=
  .obj (versions.entries.map fun entry =>
    (entry.1, .arr (entry.2.keys.map fun version => .int version.toNat)))

def ofJson? (json : Json) : Option ObjectVersions :=
  Json.map? (fun versions => (Json.list? Json.word? versions).map SortedSet.ofKeys) json

end ObjectVersions

namespace DataProtocol

/-- The number a name stands for: decimal digits, as few as can be. -/
def key? (name : String) : Option UInt32 :=
  match Text.Decimal.digits? name.toList with
  | some n =>
    if n < UInt32.size ∧ Text.Decimal.ofNat n = name.toList then some (UInt32.ofNat n) else none
  | none => none

instance : Wire DataProtocol where
  toJson data := .obj [("protocols", .obj (data.protocols.entries.map fun entry =>
    (String.ofList (Text.Decimal.ofNat entry.1.toNat), entry.2.toJson)))]
  ofJson? value := do
    match ← Json.fields? ["protocols"] value with
    | [some protocols] =>
      let members ← Json.members? ObjectVersions.ofJson? protocols
      let numbered ← members.mapM fun member =>
        (key? member.1).map fun number => (number, member.2)
      return ⟨SortedMap.ofList numbered⟩
    | _ => none

/-- Whether no name of an object with spelled names is written by number. -/
def areTyped : Json → Bool
  | .obj members => members.all fun member => member.1.toList.head? == some '='
  | _ => true

/-- Whether the protocols in a tree with spelled names stand under numbers whose
digits are typed as such. -/
def hasTypedNumbers : Json → Bool
  | .obj members => members.all fun member =>
      member.1.toList.tail != "protocols".toList || areTyped member.2
  | .arr (protocols :: _) => areTyped protocols
  | _ => true

/-- The data protocol of some bytes.  The number of a protocol is no text, so its
digits cannot be written as parts of a text can, by their own numbers. -/
def decode (bytes : List UInt8) : Except CodecError DataProtocol :=
  match (Json.parseSpelled? bytes).map hasTypedNumbers with
  | some true => Codec.decode bytes
  | _ => .error .undecodable

end DataProtocol

end RemoteCall
