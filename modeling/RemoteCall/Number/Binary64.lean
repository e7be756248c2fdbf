/-!
# Binary floating-point numbers of 64 bits

A `Binary64` is its 64 bits: a sign, eleven bits of exponent and 52 bits of
fraction.  A finite one stands for `± significand · 2 ^ scale`.  The functions
here go through that exact value and never through machine arithmetic, so they
can be computed and reasoned about alike.

Rounding takes an exact quotient to the nearest number, and of two equally near
ones to that with the even significand.
-/

namespace RemoteCall

/-- A floating-point number, known by its bits. -/
structure Binary64 where
  bits : UInt64
  deriving DecidableEq, Inhabited, Repr

namespace Binary64

/-- The eleven bits of the exponent. -/
def exponentField (x : Binary64) : Nat := x.bits.toNat / Nat.pow 2 52 % Nat.pow 2 11

/-- The 52 bits of the fraction. -/
def fraction (x : Binary64) : Nat := x.bits.toNat % Nat.pow 2 52

/-- Whether the sign bit is set. -/
def isNegative (x : Binary64) : Bool := Nat.pow 2 63 ≤ x.bits.toNat

/-- Whether `x` is a number, not an infinity and not "not a number". -/
def isFinite (x : Binary64) : Bool := x.exponentField != 2047

/-- Whether `x` stands for no number at all. -/
def isNaN (x : Binary64) : Bool := x.exponentField == 2047 && x.fraction != 0

/-- The whole number that a finite `x` has before scaling. -/
def significand (x : Binary64) : Nat :=
  if x.exponentField = 0 then x.fraction else Nat.pow 2 52 + x.fraction

/-- The power of two that the significand of a finite `x` is multiplied with. -/
def scale (x : Binary64) : Int := (max x.exponentField 1 : Nat) - 1075

/-- Whether `x` is a zero of either sign. -/
def isZero (x : Binary64) : Bool := x.bits.toNat % Nat.pow 2 63 == 0

/-- Equality of the numbers meant: the two zeros are equal and what is no
number equals nothing. -/
def same (x y : Binary64) : Bool :=
  !x.isNaN && !y.isNaN && (x == y || (x.isZero && y.isZero))

/-- The quotient `num / den` as the nearest whole number, a half to the even
neighbour. -/
def roundDiv (num den : Nat) : Nat :=
  let quotient := num / den
  let rest := num % den
  if 2 * rest < den || (2 * rest == den && quotient % 2 == 0) then quotient else quotient + 1

/-- The exponent of the greatest power of two that is at most `num / den`. -/
def floorLog2 (num den : Nat) : Int :=
  let guess : Int := (num.log2 : Int) - den.log2
  if num * Nat.pow 2 (-guess).toNat < den * Nat.pow 2 guess.toNat then guess - 1 else guess

/-- The number nearest to `num / den`, or `none` if that is beyond the finite
numbers. -/
def nearest? (negative : Bool) (num den : Nat) : Option Binary64 :=
  let sign := if negative then Nat.pow 2 63 else 0
  if num = 0 then some ⟨sign.toUInt64⟩
  else
    let power := max (floorLog2 num den - 52) (-1074)
    let rounded := roundDiv (num * Nat.pow 2 (-power).toNat) (den * Nat.pow 2 power.toNat)
    let magnitude := (power + 1074).toNat * Nat.pow 2 52 + rounded
    if magnitude < 2047 * Nat.pow 2 52 then some ⟨(sign + magnitude).toUInt64⟩ else none

/-- The number nearest to `digits · 10 ^ exponent`, or `none` if that is beyond
the finite numbers.  Exponents far outside the range of the numbers are
answered without computing the power. -/
def ofDecimal? (negative : Bool) (digits : Nat) (exponent : Int) : Option Binary64 :=
  let magnitude : Int := (Nat.toDigits 10 digits).length + exponent
  if digits = 0 ∨ magnitude < -330 then nearest? negative 0 1
  else if 310 < magnitude then none
  else nearest? negative (digits * Nat.pow 10 exponent.toNat) (Nat.pow 10 (-exponent).toNat)

/-- The number nearest to a whole number below `2 ^ 64`. -/
def ofInt (n : Int) : Binary64 := (nearest? (n < 0) n.natAbs 1).getD ⟨0⟩

end Binary64

end RemoteCall
