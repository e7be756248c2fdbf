/-!
# The curve that signatures live on

Points of the twisted Edwards curve `-x² + y² = 1 + d x² y²` over the numbers
modulo `2^255 - 19`.  A point is kept as four numbers `(X : Y : Z : T)` with
`x = X/Z`, `y = Y/Z` and `x y = T/Z`; one addition formula then serves for all
pairs of points.

A point is written as its `y` in 32 bytes, least significant first, with the
lowest bit of `x` in the top bit.
-/

namespace RemoteCall.Curve

/-- The numbers are counted modulo this prime. -/
def modulus : Nat := Nat.pow 2 255 - 19

/-- The number of points that the base point generates. -/
def order : Nat := Nat.pow 2 252 + 27742317777372353535851937790883648493

/-- `base ^ exponent` modulo `m`, the exponent given by its lowest `bits` bits. -/
def powMod (m base : Nat) : Nat → Nat → Nat
  | 0, _ => 1 % m
  | bits + 1, exponent =>
    let root := powMod m base bits (exponent / 2)
    if exponent % 2 = 1 then root * root % m * base % m else root * root % m

/-- `a - b` for numbers below the modulus. -/
def sub (a b : Nat) : Nat := (a + (modulus - b)) % modulus

/-- The inverse of `a`, zero for zero. -/
def inverse (a : Nat) : Nat := powMod modulus a 255 (modulus - 2)

/-- The coefficient of the curve, `-121665 / 121666`. -/
def coefficient : Nat :=
  37095705934669439343138083508754565189542113879843219016388785533085940283555

/-- A square root of minus one. -/
def rootOfMinusOne : Nat :=
  19681161376707505956807079304988542015446066515923890162744021073123829784752

/-- A point in extended coordinates, all below the modulus. -/
structure Point where
  x : Nat
  y : Nat
  z : Nat
  t : Nat

/-- The neutral point `(0, 1)`. -/
def Point.zero : Point := ⟨0, 1, 1, 0⟩

def Point.add (p q : Point) : Point :=
  let a := sub p.y p.x * sub q.y q.x % modulus
  let b := (p.y + p.x) * (q.y + q.x) % modulus
  let c := p.t * q.t % modulus * (2 * coefficient) % modulus
  let d := 2 * p.z * q.z % modulus
  let e := sub b a
  let f := sub d c
  let g := (d + c) % modulus
  let h := (b + a) % modulus
  ⟨e * f % modulus, g * h % modulus, f * g % modulus, e * h % modulus⟩

/-- The point with `x` turned round. -/
def Point.neg (p : Point) : Point := ⟨sub 0 p.x, p.y, p.z, sub 0 p.t⟩

/-- The sum of `n` copies of a point, `n` given by its lowest `bits` bits. -/
def Point.times (p : Point) : Nat → Nat → Point
  | 0, _ => .zero
  | bits + 1, n =>
    let half := p.times bits (n / 2)
    if n % 2 = 1 then (half.add half).add p else half.add half

/-- The base point, with `y = 4/5`. -/
def Point.base : Point where
  x := 15112221349535400772501151409588531511454012693041857206046113283949847762202
  y := 46316835694926478169428394003475163141307993866256225615783033603165251855960
  z := 1
  t := 46827403850823179245072216630277197565144205554125654976674165829533817101731

/-- The number written by bytes, least significant first. -/
def ofBytes (bytes : List UInt8) : Nat :=
  bytes.foldr (fun byte n => byte.toNat + 256 * n) 0

/-- The `width` bytes of `n`, least significant first. -/
def toBytes : Nat → Nat → List UInt8
  | 0, _ => []
  | width + 1, n => UInt8.ofNat n :: toBytes width (n / 256)

theorem length_toBytes (width n : Nat) : (toBytes width n).length = width := by
  induction width generalizing n with
  | zero => rfl
  | succ width ih => simp [toBytes, ih]

/-- The number whose square is `u / v` and whose lowest bit is clear, if there
is one. -/
def rootOfQuotient? (u v : Nat) : Option Nat :=
  let v3 := v * v % modulus * v % modulus
  let v7 := v3 * v3 % modulus * v % modulus
  let power := powMod modulus (u * v7 % modulus) 253 ((modulus - 5) / 8)
  let root := u * v3 % modulus * power % modulus
  let check := v * (root * root % modulus) % modulus
  let found :=
    if check = u then some root
    else if check = sub 0 u then some (root * rootOfMinusOne % modulus)
    else none
  found.map fun root => if root % 2 = 0 then root else sub 0 root

def Point.encode (p : Point) : List UInt8 :=
  let i := inverse p.z
  let x := p.x * i % modulus
  let y := p.y * i % modulus
  toBytes 32 (y + x % 2 * Nat.pow 2 255)

/-- The point written by 32 bytes.  A `y` beyond the modulus is reduced, and
the sign of a zero `x` is not looked at. -/
def Point.decode? (bytes : List UInt8) : Option Point :=
  let n := ofBytes bytes
  let y := n % Nat.pow 2 255 % modulus
  let square := y * y % modulus
  let u := sub square 1
  let v := (coefficient * square + 1) % modulus
  (rootOfQuotient? u v).map fun root =>
    let x := if n / Nat.pow 2 255 % 2 = 1 then sub 0 root else root
    ⟨x, y, 1, x * y % modulus⟩

end RemoteCall.Curve
