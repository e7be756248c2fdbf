import RemoteCall.Number.Binary64

/-!
# The shortest decimal that reads back

Every finite number owns an interval of reals that round to it.  Among the
decimals in that interval the fewest digits win, and of those the one nearest
to the number.  `Shortest.decimal` finds it by trying one digit, two digits and
so on up to seventeen: if a decimal with so many digits lies in the interval,
then so does one of the two neighbours of the number on that decimal grid.
-/

namespace RemoteCall.Binary64.Shortest

/-- A decimal `digits · 10 ^ exponent`. -/
structure Decimal where
  digits : Nat
  exponent : Int
  deriving DecidableEq, Repr

/-- The reals that round to a number, as numerators over one denominator, with
the number itself; `closed` says whether the two ends belong to them. -/
structure Interval where
  low : Nat
  value : Nat
  high : Nat
  denominator : Nat
  closed : Bool

/-- The interval of a finite number other than zero. -/
def interval (x : Binary64) : Interval :=
  let m := x.significand
  let narrow := x.fraction == 0 && 1 < x.exponentField
  let up := Nat.pow 2 (x.scale - 2).toNat
  { low := (if narrow then 4 * m - 1 else 4 * m - 2) * up
    value := 4 * m * up
    high := (4 * m + 2) * up
    denominator := Nat.pow 2 (2 - x.scale).toNat
    closed := m % 2 == 0 }

/-- Whether `num / den` lies in the interval. -/
def Interval.holds (i : Interval) (num den : Nat) : Bool :=
  let inside := num * i.denominator
  if i.closed then i.low * den ≤ inside && inside ≤ i.high * den
  else i.low * den < inside && inside < i.high * den

/-- The `n` with `10 ^ (n - 1) ≤ num / den < 10 ^ n`. -/
def magnitude (num den : Nat) : Int :=
  let guess := floorLog2 num den * 30103 / 100000
  let fits (n : Int) : Bool :=
    den * Nat.pow 10 (n - 1).toNat ≤ num * Nat.pow 10 (1 - n).toNat &&
      num * Nat.pow 10 (-n).toNat < den * Nat.pow 10 n.toNat
  ([guess, guess + 1, guess + 2, guess - 1].find? fits).getD guess

/-- The better of the two neighbours of the number on the grid of the multiples
of `10 ^ exponent`, if one lies in the interval. -/
def onGrid? (i : Interval) (exponent : Int) : Option Nat :=
  let up := Nat.pow 10 exponent.toNat
  let down := Nat.pow 10 (-exponent).toNat
  let num := i.value * down
  let den := i.denominator * up
  let floor := num / den
  let rest := num % den
  let low := i.holds (floor * up) down
  let high := i.holds ((floor + 1) * up) down
  if low && high then
    if 2 * rest < den || (2 * rest == den && floor % 2 == 0) then some floor
    else some (floor + 1)
  else if low then some floor
  else if high then some (floor + 1)
  else none

/-- Move trailing zeros of the digits into the exponent; `steps` bounds their
number. -/
def stripZeros : Nat → Decimal → Decimal
  | 0, d => d
  | steps + 1, d =>
    if d.digits % 10 = 0 ∧ d.digits ≠ 0 then
      stripZeros steps ⟨d.digits / 10, d.exponent + 1⟩
    else d

/-- The shortest decimal in the interval of a finite number, nearest to the
number; zero for a zero. -/
def decimal (x : Binary64) : Decimal :=
  if x.significand = 0 then ⟨0, 0⟩
  else
    let i := interval x
    let n := magnitude i.value i.denominator
    let found := (List.range 17).findSome? fun (k : Nat) =>
      let exponent := n - (k + 1)
      (onGrid? i exponent).map fun digits => Decimal.mk digits exponent
    stripZeros 20 (found.getD ⟨0, 0⟩)

end RemoteCall.Binary64.Shortest
