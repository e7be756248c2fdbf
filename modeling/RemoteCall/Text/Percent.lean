/-!
# Percent encoding

Texts that become parts of web addresses.  ASCII letters, digits and four marks
stand for themselves; every other byte is written as a percent sign and its two
hexadecimal digits.
-/

namespace RemoteCall.Text.Percent

/-- Whether a byte stands for itself: ASCII letters, digits and four marks. -/
def isPlain (byte : UInt8) : Bool :=
  let c := Char.ofNat byte.toNat
  c.isAlphanum || c == '-' || c == '_' || c == '.' || c == '~'

def digit (n : Nat) : Char := (Nat.digitChar n).toUpper

def escape (byte : UInt8) : List Char :=
  if isPlain byte then [Char.ofNat byte.toNat]
  else ['%', digit (byte.toNat / 16), digit (byte.toNat % 16)]

/-- A text as a part of a web address. -/
def encode (text : String) : String := String.ofList (text.toUTF8.toList.flatMap escape)

end RemoteCall.Text.Percent
