import RemoteCall.Fault
import RemoteCall.Json.Reader
import RemoteCall.Text.Hex
import RemoteCall.Text.Quoted

/-!
# Identifiers

A `Uid` is sixteen bytes.  It is shown as 32 hexadecimal digits and goes over
the wire in five groups with hyphens between them.  Both forms are read, the
grouped one also in braces or after `urn:uuid:`.
-/

namespace RemoteCall

/-- An identifier of a service, an endpoint, an object or a job. -/
structure Uid where
  bytes : List UInt8
  length_eq : bytes.length = 16
  deriving DecidableEq

/-- A text that is no identifier. -/
structure InvalidUid where
  text : String
  deriving DecidableEq, Repr

def InvalidUid.message (e : InvalidUid) : String := "invalid uid " ++ Text.Quoted.text e.text

def InvalidUid.kind : InvalidUid → String
  | _ => "InvalidUid"

instance : Fault InvalidUid := ⟨InvalidUid.kind, InvalidUid.message⟩

namespace Uid

instance : Inhabited Uid := ⟨⟨List.replicate 16 0, rfl⟩⟩

instance : Ord Uid := ⟨fun x y => compare x.bytes y.bytes⟩

/-- The identifier of the given bytes, if there are sixteen. -/
def ofBytes? (bytes : List UInt8) : Option Uid :=
  if h : bytes.length = 16 then some ⟨bytes, h⟩ else none

/-- The 32 digits. -/
def digits (uid : Uid) : List Char := Text.Hex.encode uid.bytes

instance : ToString Uid := ⟨fun uid => String.ofList uid.digits⟩

/-- The first eight digits, for listings. -/
def short (uid : Uid) : String := String.ofList (uid.digits.take 8)

/-- Digits in groups of eight, four, four, four and twelve. -/
def group (digits : List Char) : List Char :=
  digits.take 8 ++ '-' :: (digits.drop 8).take 4 ++ '-' :: (digits.drop 12).take 4 ++
    '-' :: (digits.drop 16).take 4 ++ '-' :: digits.drop 20

/-- The form that goes over the wire. -/
def hyphenated (uid : Uid) : String := String.ofList (group uid.digits)

/-- The identifier written by 32 digits. -/
def ofDigits? (text : List Char) : Option Uid := (Text.Hex.pairs? text).bind ofBytes?

def ofGroups? (text : List Char) : Option Uid :=
  let digits := text.filter (· != '-')
  if digits.length = 32 ∧ group digits = text then ofDigits? digits else none

/-- The identifier written in one of the accepted forms. -/
def ofChars? (text : List Char) : Option Uid :=
  match text with
  | '{' :: rest => if rest.getLast? = some '}' then ofGroups? rest.dropLast else none
  | _ =>
    if text.length = 32 then ofDigits? text
    else if (text.take 9).map Char.toLower = "urn:uuid:".toList then ofGroups? (text.drop 9)
    else ofGroups? text

def ofString (text : String) : Except InvalidUid Uid :=
  match ofChars? text.toList with
  | some uid => .ok uid
  | none => .error ⟨text⟩

instance : Json.Wire Uid where
  toJson uid := .str uid.hyphenated
  ofJson? value := (Json.str? value).bind fun text => (ofString text).toOption

end Uid

end RemoteCall
