/-!
# Base 58 text

A row of bytes is read as one big-endian number and written with the 58 letters
and digits that cannot be mistaken for one another.  Each leading zero byte is
written as a leading `1`, so the length survives.
-/

namespace RemoteCall.Text.Base58

/-- Why a text is no base 58 text. -/
inductive Fault where
  /-- The character at `position` is not in the alphabet. -/
  | badCharacter (character : Char) (position : Nat)
  /-- The character starting at byte `position` is not ASCII. -/
  | notAscii (position : Nat)
  deriving DecidableEq, Repr

/-- The digits of `n` in base `base`, most significant first, none for zero. -/
def radixDigits (base : Nat) (h : 1 < base) (n : Nat) : List Nat :=
  if _zero : n = 0 then []
  else radixDigits base h (n / base) ++ [n % base]
termination_by n
decreasing_by exact Nat.div_lt_self (Nat.pos_of_ne_zero ‹_›) h

/-- The number written by digits in base `base`, most significant first. -/
def radixValue (base : Nat) (digits : List Nat) : Nat :=
  digits.foldl (fun value digit => base * value + digit) 0

/-- The digits in the order of their values. -/
def alphabet : List Char :=
  "123456789ABCDEFGHJKLMNPQRSTUVWXYZabcdefghijkmnopqrstuvwxyz".toList

/-- The digit for a number below 58. -/
def letter (n : Nat) : Char := alphabet.getD n '1'

def value? (c : Char) : Option Nat := alphabet.idxOf? c

/-- Write bytes: a `1` for every leading zero, then the rest as one number. -/
def encode (bytes : List UInt8) : List Char :=
  let zeros := bytes.takeWhile (· = 0)
  let number := radixValue 256 ((bytes.dropWhile (· = 0)).map UInt8.toNat)
  zeros.map (fun _ => '1') ++ (radixDigits 58 (by decide) number).map letter

/-- The values of the digits, or the first character that is none. -/
def values : Nat → List Char → Except Fault (List Nat)
  | _, [] => .ok []
  | position, c :: rest =>
    if 0x7f < c.toNat then .error (.notAscii position)
    else
      match value? c with
      | none => .error (.badCharacter c position)
      | some value =>
        match values (position + 1) rest with
        | .error fault => .error fault
        | .ok tail => .ok (value :: tail)

/-- Read bytes: a zero byte for every leading `1`, then the rest as one number. -/
def decode (text : List Char) : Except Fault (List UInt8) :=
  match values 0 text with
  | .error fault => .error fault
  | .ok digits =>
    let zeros := digits.takeWhile (· = 0)
    let number := radixValue 58 (digits.dropWhile (· = 0))
    .ok (zeros.map (fun _ => 0) ++ (radixDigits 256 (by decide) number).map Nat.toUInt8)

end RemoteCall.Text.Base58
