/-!
# Whole numbers in decimal

Natural numbers are written without leading zeros.  Reading is more lenient:
leading zeros and one leading plus sign are accepted, as long as the number is
below the bound the reader asks for.
-/

namespace RemoteCall.Text.Decimal

/-- The decimal digits of `n`. -/
def ofNat (n : Nat) : List Char := Nat.toDigits 10 n

/-- The decimal digits of `n`, after a minus sign when it is negative. -/
def ofInt : Int → List Char
  | .ofNat n => ofNat n
  | .negSucc n => '-' :: ofNat (n + 1)

/-- The number written by a non-empty row of digits. -/
def digits? (text : List Char) : Option Nat :=
  if text ≠ [] ∧ text.all Char.isDigit then some (Nat.ofDigitChars 10 text 0) else none

/-- A number below `bound`: digits with an optional plus sign in front. -/
def unsigned? (bound : Nat) (text : List Char) : Option Nat :=
  let body := match text with
    | '+' :: rest => rest
    | other => other
  (digits? body).filter (· < bound)

theorem digits?_ofNat (n : Nat) : digits? (ofNat n) = some n := by
  have all : (Nat.toDigits 10 n).all Char.isDigit = true := by
    rw [List.all_eq_true]
    exact fun c mem => Nat.isDigit_of_mem_toDigits (by decide) (by decide) mem
  simp [digits?, ofNat, Nat.toDigits_ne_nil, all, Nat.ofDigitChars_ten_toDigits]

theorem unsigned?_ofNat {bound n : Nat} (h : n < bound) :
    unsigned? bound (ofNat n) = some n := by
  have head : ∀ rest, ofNat n ≠ '+' :: rest := by
    intro rest eq
    have mem : '+' ∈ Nat.toDigits 10 n := by
      show '+' ∈ ofNat n
      simp [eq]
    exact absurd (Nat.isDigit_of_mem_toDigits (by decide) (by decide) mem) (by decide)
  unfold unsigned?
  split
  · rename_i rest eq
    exact absurd eq (head rest)
  · simp [digits?_ofNat, h]

end RemoteCall.Text.Decimal
