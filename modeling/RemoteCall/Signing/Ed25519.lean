import RemoteCall.Signing.Curve
import RemoteCall.Signing.Digest

/-!
# Signatures on the curve

The digest of a seed holds a secret number and what one-time numbers are made of;
the public key is the base point times the secret number.  The first half of a
signature is the base point times the one-time number of the message.  The second
half is that number plus the product of the secret number and the digest of the
first half, the public key and the message.

Checking computes the first half of the signature anew from the second half, the
key and the message, and compares it byte for byte; there is no multiplication by
the cofactor, so keys of small order are not singled out.
-/

namespace RemoteCall.Ed25519

open Curve

/-- The number that a seed multiplies the base point with: three low bits
clear, and the top bit of 255 set. -/
def secretScalar (seed : List UInt8) : Nat :=
  let n := ofBytes ((Digest.ofBytes seed).take 32)
  Nat.pow 2 254 + n % Nat.pow 2 254 / 8 * 8

/-- The second half of the seed's digest, which makes the one-time numbers. -/
def nonceSeed (seed : List UInt8) : List UInt8 := (Digest.ofBytes seed).drop 32

/-- The digest of some bytes as a multiplier. -/
def scalarOf (bytes : List UInt8) : Nat := ofBytes (Digest.ofBytes bytes) % order

/-- The 32 bytes of the public key that belongs to a seed. -/
def publicKey (seed : List UInt8) : List UInt8 :=
  (Point.base.times 255 (secretScalar seed)).encode

/-- The 64 bytes of the signature of `message` by the holder of `seed`, whose
public key is `key`. -/
def sign (seed key message : List UInt8) : List UInt8 :=
  let nonce := scalarOf (nonceSeed seed ++ message)
  let first := (Point.base.times 253 nonce).encode
  let challenge := scalarOf (first ++ key ++ message)
  first ++ toBytes 32 ((nonce + challenge * secretScalar seed) % order)

/-- Whether `signature` is one of `message` under the public key `key`.  A key
that is no point, and a signature of another length or with its second half
beyond the order, pass for nothing. -/
def verify (key message signature : List UInt8) : Bool :=
  if signature.length ≠ 64 then false
  else
    match Point.decode? key with
    | none => false
    | some point =>
      let first := signature.take 32
      let second := ofBytes (signature.drop 32)
      let challenge := scalarOf (first ++ key ++ message)
      let expected := (Point.base.times 253 second).add (point.neg.times 253 challenge)
      second < order && expected.encode == first

theorem length_publicKey (seed : List UInt8) : (publicKey seed).length = 32 :=
  length_toBytes 32 _

end RemoteCall.Ed25519
