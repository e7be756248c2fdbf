import RemoteCall.Number.Shortest

/-!
# How floating-point numbers are laid out

The digits are always the shortest that read back; a `Layout` says where the
decimal point goes, when an exponent is written instead, and how.
-/

namespace RemoteCall.Binary64

/-- The choices that a text form of numbers makes. -/
structure Layout where
  /-- Numbers below `10 ^ positionalFrom` are written with an exponent. -/
  positionalFrom : Int
  /-- Numbers of `10 ^ positionalBelow` and more are written with an exponent. -/
  positionalBelow : Int
  /-- Whether whole numbers end in `.0`. -/
  wholeSuffix : Bool
  /-- Whether the sign of zero is written. -/
  signedZero : Bool

namespace Layout

/-- Whole digits `n` places before the point, the rest after it. -/
def positional (layout : Layout) (digits : List Char) (n : Int) : List Char :=
  let whole := if layout.wholeSuffix then ['.', '0'] else []
  if n ≤ 0 then '0' :: '.' :: List.replicate (-n).toNat '0' ++ digits
  else if digits.length ≤ n.toNat then
    digits ++ List.replicate (n.toNat - digits.length) '0' ++ whole
  else digits.take n.toNat ++ '.' :: digits.drop n.toNat

/-- One digit before the point and a signed exponent. -/
def exponential (digits : List Char) (n : Int) : List Char :=
  let mantissa := match digits with
    | [] => []
    | [d] => [d]
    | d :: rest => d :: '.' :: rest
  let power := n - 1
  mantissa ++ 'e' :: (if power < 0 then '-' else '+') :: Nat.toDigits 10 power.natAbs

def write (layout : Layout) (x : Binary64) : List Char :=
  let d := Shortest.decimal x
  let digits := Nat.toDigits 10 d.digits
  let n : Int := digits.length + d.exponent
  let body :=
    if d.digits = 0 then layout.positional digits 1
    else if layout.positionalFrom < n ∧ n ≤ layout.positionalBelow then
      layout.positional digits n
    else exponential digits n
  if x.isNegative && (layout.signedZero || d.digits != 0) then '-' :: body else body

end Layout

/-- Numbers as scripts on the web write them: positional from a millionth up to
below 10^21, whole numbers without a point, zero without a sign. -/
def scriptLayout : Layout := ⟨-6, 21, false, false⟩

example : scriptLayout.write ⟨0x8000000000000000⟩ = "0".toList := by decide +kernel
example : scriptLayout.write ⟨0x444b1ae4d6e2ef50⟩ = "1e+21".toList := by decide +kernel
example : scriptLayout.write ⟨1⟩ = "5e-324".toList := by decide +kernel

/-- Numbers for people: positional from 0.00001 up to below 10^16, and always
told apart from whole numbers by a point or an exponent. -/
def plainLayout : Layout := ⟨-5, 16, true, true⟩

example : plainLayout.write ⟨0x8000000000000000⟩ = "-0.0".toList := by decide +kernel
example : plainLayout.write ⟨0x3ee4f8b588e368f1⟩ = "0.00001".toList := by decide +kernel
example : plainLayout.write ⟨0x4341c37937e08000⟩ = "1e+16".toList := by decide +kernel

/-- The name of what is no finite number. -/
def nameOfNonFinite (x : Binary64) : String :=
  if x.isNaN then "NaN" else if x.isNegative then "-inf" else "inf"

end RemoteCall.Binary64
