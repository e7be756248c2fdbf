import RemoteCall.Fault
import RemoteCall.Json.Reader
import RemoteCall.Signing.Ed25519
import RemoteCall.Text.Base58
import RemoteCall.Text.Blank
import RemoteCall.Text.Hex
import RemoteCall.Text.Quoted

/-!
# Keys of callers and services

A verify key is 32 bytes.  Its text is the letter `z` followed by the base 58
text of the two bytes that mark a key of this kind and the key itself.  A
signing key is the secret seed of a verify key.
-/

namespace RemoteCall

/-- Why a text or a row of bytes is no key. -/
inductive KeyError where
  | missingMultibase
  | base58 (fault : Text.Base58.Fault)
  | missingMulticodec
  | wrongLength (length : Nat)
  | hex (fault : Text.Hex.Fault)
  deriving DecidableEq, Repr

namespace KeyError

/-- What is wrong with a base 58 text. -/
def base58Message : Text.Base58.Fault → String
  | .badCharacter c position =>
    "provided string contained invalid character " ++ Text.Quoted.character c ++
      " at byte " ++ toString position
  | .notAscii position =>
    "provided string contained non-ascii character starting at byte " ++ toString position

/-- What is wrong with a hexadecimal text. -/
def hexMessage : Text.Hex.Fault → String
  | .oddLength => "Odd number of digits"
  | .badDigit byte position =>
    "Invalid character " ++ Text.Quoted.character (Char.ofNat byte.toNat) ++
      " at position " ++ toString position

def message : KeyError → String
  | .missingMultibase => "multibase key must start with 'z'"
  | .base58 fault => "base58 decode failed: " ++ base58Message fault
  | .missingMulticodec => "missing ed25519 multicodec prefix [0xed, 0x01]"
  | .wrongLength length => "key must be 32 bytes, got " ++ toString length
  | .hex fault => "invalid hex seed: " ++ hexMessage fault

def kind : KeyError → String
  | .missingMultibase => "MissingMultibasePrefix"
  | .base58 _ => "Base58"
  | .missingMulticodec => "MissingMulticodec"
  | .wrongLength _ => "WrongLength"
  | .hex _ => "Hex"

instance : Fault KeyError := ⟨kind, message⟩

end KeyError

/-- A public key, which names a caller or a service. -/
structure VerifyKey where
  bytes : List UInt8
  length_eq : bytes.length = 32
  deriving DecidableEq

namespace VerifyKey

/-- The two bytes in front of a key that tell its kind. -/
def multicodec : List UInt8 := [0xed, 0x01]

/-- The key made of the given bytes. -/
def ofBytes (bytes : List UInt8) : Except KeyError VerifyKey :=
  if h : bytes.length = 32 then .ok ⟨bytes, h⟩ else .error (.wrongLength bytes.length)

def toMultibase (key : VerifyKey) : String :=
  String.ofList ('z' :: Text.Base58.encode (multicodec ++ key.bytes))

instance : ToString VerifyKey := ⟨toMultibase⟩

def ofMultibase (text : String) : Except KeyError VerifyKey :=
  match text.toList with
  | 'z' :: data =>
    match Text.Base58.decode data with
    | .error fault => .error (.base58 fault)
    | .ok (0xed :: 0x01 :: bytes) => ofBytes bytes
    | .ok _ => .error .missingMulticodec
  | _ => .error .missingMultibase

def describe (key : VerifyKey) : String := "VerifyKey(" ++ key.toMultibase ++ ")"

/-- Whether `signature` is one of `message` under this key. -/
def verify (key : VerifyKey) (message signature : List UInt8) : Bool :=
  Ed25519.verify key.bytes message signature

instance : Json.Wire VerifyKey where
  toJson key := .str key.toMultibase
  ofJson? value := (Json.str? value).bind fun text => (ofMultibase text).toOption

end VerifyKey

/-- A secret key with the public key that belongs to it. -/
structure SigningKey where
  seed : List UInt8
  verifyKey : VerifyKey
  verifyKey_eq : verifyKey.bytes = Ed25519.publicKey seed

namespace SigningKey

def ofSeed (seed : List UInt8) : SigningKey :=
  ⟨seed, ⟨Ed25519.publicKey seed, Ed25519.length_publicKey seed⟩, rfl⟩

/-- The key whose seed of 32 bytes is written in hexadecimal digits, with or
without white space around them. -/
def ofHexSeed (text : String) : Except KeyError SigningKey :=
  match Text.Hex.decode (Text.Blank.trim text.toList) with
  | .error fault => .error (.hex fault)
  | .ok seed =>
    if seed.length = 32 then .ok (ofSeed seed) else .error (.wrongLength seed.length)

/-- The signature of `message`, 64 bytes. -/
def sign (key : SigningKey) (message : List UInt8) : List UInt8 :=
  Ed25519.sign key.seed key.verifyKey.bytes message

/-- A signing key as it is shown among other things, without its secret. -/
def describe (key : SigningKey) : String :=
  "SigningKey \x7b verify_key: " ++ key.verifyKey.describe ++ ", .. \x7d"

end SigningKey

end RemoteCall
