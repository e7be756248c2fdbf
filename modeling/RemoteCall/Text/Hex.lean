/-!
# Hexadecimal text

Bytes are written as two lower-case digits each and read in either case.
-/

namespace RemoteCall.Text.Hex

/-- Why a text is not a row of hexadecimal bytes. -/
inductive Fault where
  /-- The text has an odd number of bytes. -/
  | oddLength
  /-- The byte at `position` is no hexadecimal digit. -/
  | badDigit (byte : UInt8) (position : Nat)
  deriving DecidableEq, Repr

/-- The lower-case digit of a number below sixteen. -/
def digit (n : Nat) : Char := Nat.digitChar n

def value? (c : Char) : Option Nat :=
  if '0' ≤ c ∧ c ≤ '9' then some (c.toNat - '0'.toNat)
  else if 'a' ≤ c ∧ c ≤ 'f' then some (c.toNat - 'a'.toNat + 10)
  else if 'A' ≤ c ∧ c ≤ 'F' then some (c.toNat - 'A'.toNat + 10)
  else none

/-- Two digits for every byte. -/
def encode (bytes : List UInt8) : List Char :=
  bytes.flatMap fun b => [digit (b.toNat / 16), digit (b.toNat % 16)]

/-- The bytes written by pairs of digits, if the text is made of such pairs. -/
def pairs? : List Char → Option (List UInt8)
  | [] => some []
  | [_] => none
  | high :: low :: rest =>
    match value? high, value? low, pairs? rest with
    | some h, some l, some bytes => some (UInt8.ofNat (16 * h + l) :: bytes)
    | _, _, _ => none

/-- The first byte of a character in UTF-8. -/
def leadByte (c : Char) : UInt8 :=
  let n := c.toNat
  if n < 0x80 then n.toUInt8
  else if n < 0x800 then (0xc0 + n / 0x40).toUInt8
  else if n < 0x10000 then (0xe0 + n / 0x1000).toUInt8
  else (0xf0 + n / 0x40000).toUInt8

/-- The first character that is no digit, with its position.  All before it are
ASCII, so the position counts bytes as well as characters. -/
def firstBad? : Nat → List Char → Option (UInt8 × Nat)
  | _, [] => none
  | position, c :: rest =>
    if (value? c).isSome then firstBad? (position + 1) rest
    else some (leadByte c, position)

/-- The number of bytes that a text takes in UTF-8. -/
def byteCount : List Char → Nat
  | [] => 0
  | c :: rest => c.utf8Size + byteCount rest

/-- Read a row of hexadecimal bytes.  An odd length is reported before any
digit is looked at. -/
def decode (text : List Char) : Except Fault (List UInt8) :=
  if byteCount text % 2 = 1 then .error .oddLength
  else
    match firstBad? 0 text with
    | some (byte, position) => .error (.badDigit byte position)
    | none => .ok ((pairs? text).getD [])

theorem value?_digit {n : Nat} (h : n < 16) : value? (digit n) = some n := by
  have all : ∀ n, n < 16 → value? (digit n) = some n := by decide
  exact all n h

theorem pairs?_encode (bytes : List UInt8) : pairs? (encode bytes) = some bytes := by
  induction bytes with
  | nil => rfl
  | cons b rest ih =>
    have high := value?_digit (n := b.toNat / 16) (by have := b.toNat_lt; omega)
    have low := value?_digit (n := b.toNat % 16) (by omega)
    have back : 16 * (b.toNat / 16) + b.toNat % 16 = b.toNat := by omega
    show pairs? (digit (b.toNat / 16) :: digit (b.toNat % 16) :: encode rest) = _
    simp [pairs?, high, low, ih, back]

theorem firstBad?_encode (bytes : List UInt8) (position : Nat) :
    firstBad? position (encode bytes) = none := by
  induction bytes generalizing position with
  | nil => rfl
  | cons b rest ih =>
    have high := value?_digit (n := b.toNat / 16) (by have := b.toNat_lt; omega)
    have low := value?_digit (n := b.toNat % 16) (by omega)
    show firstBad? position (digit (b.toNat / 16) :: digit (b.toNat % 16) :: encode rest) = _
    simp [firstBad?, high, low, ih]

theorem byteCount_encode (bytes : List UInt8) :
    byteCount (encode bytes) = 2 * bytes.length := by
  have one : ∀ n, n < 16 → (digit n).utf8Size = 1 := by decide
  induction bytes with
  | nil => rfl
  | cons b rest ih =>
    have high := one (b.toNat / 16) (by have := b.toNat_lt; omega)
    have low := one (b.toNat % 16) (by omega)
    show byteCount (digit (b.toNat / 16) :: digit (b.toNat % 16) :: encode rest) = _
    simp [byteCount, high, low, ih]
    omega

theorem decode_encode (bytes : List UInt8) : decode (encode bytes) = .ok bytes := by
  simp [decode, byteCount_encode, firstBad?_encode, pairs?_encode]

end RemoteCall.Text.Hex
