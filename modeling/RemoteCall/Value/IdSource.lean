import RemoteCall.Signing.Digest
import RemoteCall.Value.Uid

/-!
# Fresh identifiers

Identifiers are drawn one after the other from a source.  The source is a seed
and the count of what was drawn; each identifier is cut out of the digest of
both, with the marks of a random identifier set.
-/

namespace RemoteCall

/-- Where fresh identifiers come from. -/
structure IdSource where
  seed : List UInt8
  drawn : Nat
  deriving Inhabited

namespace IdSource

/-- The bytes of an identifier with the marks of a random one: version four,
and the variant in the top bits of the ninth byte. -/
def marked (bytes : List UInt8) : List UInt8 :=
  (bytes.modify 6 fun byte => byte &&& 0x0f ||| 0x40).modify 8 fun byte =>
    byte &&& 0x3f ||| 0x80

/-- The identifier at a place in the row of those that can be drawn. -/
def idAt (source : IdSource) (place : Nat) : Uid :=
  let digest := Digest.ofBytes (source.seed ++ Digest.bigEndian 8 place)
  ⟨marked (digest.take 16), by simp [marked, digest, Digest.length_ofBytes]⟩

/-- A source that has `count` identifiers fewer to give. -/
def advance (source : IdSource) (count : Nat) : IdSource :=
  { source with drawn := source.drawn + count }

def draw (source : IdSource) : Uid × IdSource := (source.idAt source.drawn, source.advance 1)

end IdSource

end RemoteCall
