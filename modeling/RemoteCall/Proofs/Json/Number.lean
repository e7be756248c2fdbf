import Mathlib.Data.List.TakeDrop
import RemoteCall.Proofs.Json.Text

/-!
# Numbers read back

A whole number is read back from its digits if it fits into 64 bits with or without sign,
and what no number goes on with is left.
-/

namespace RemoteCall.Json.Parser

variable {rest tail : List Char}

/-- A text that no number goes on with. -/
def EndsNumber (text : List Char) : Prop :=
  ∀ c rest, text = c :: rest → ¬ c.isDigit ∧ c ≠ '.' ∧ c ≠ 'e' ∧ c ≠ 'E'

/-- No number goes on with a mark that parts or closes. -/
theorem endsNumber_mark {c : Char} (hmark : c ∈ [',', ']', '\x7d']) : EndsNumber (c :: rest) := by
  rintro _ _ ⟨⟩
  simp only [List.mem_cons, List.not_mem_nil, or_false] at hmark
  rcases hmark with rfl | rfl | rfl <;> decide

theorem span_digits {digits : List Char} (hdigits : ∀ c ∈ digits, c.isDigit)
    (htail : EndsNumber tail) : (digits ++ tail).span Char.isDigit = (digits, tail) := by
  have htail' : tail.takeWhile Char.isDigit = [] ∧ tail.dropWhile Char.isDigit = tail := by
    cases tail with
    | nil => exact ⟨rfl, rfl⟩
    | cons c rest =>
        have hdigit := (htail c rest rfl).1
        exact ⟨List.takeWhile_cons_of_neg hdigit, List.dropWhile_cons_of_neg hdigit⟩
  rw [List.span_eq_takeWhile_dropWhile, List.takeWhile_append_of_pos hdigits,
    List.dropWhile_append_of_pos hdigits, htail'.1, htail'.2, List.append_nil]

theorem isDigit_of_mem_ofNat {n : Nat} : ∀ c ∈ Text.Decimal.ofNat n, c.isDigit :=
  fun _ hmem => Nat.isDigit_of_mem_toDigits (by decide) (by decide) hmem

/-- A positive number is not written with a zero in front. -/
theorem exists_head_ofNat {n : Nat} (hpos : 0 < n) :
    ∃ c rest, Text.Decimal.ofNat n = c :: rest ∧ c ≠ '0' := by
  rw [Text.Decimal.ofNat]
  induction n using Nat.strongRecOn with
  | _ n ih =>
      by_cases hlt : n < 10
      · rw [Nat.toDigits_of_lt_base hlt]
        refine ⟨n.digitChar, [], rfl, ?_⟩
        have hdigits : ∀ n < 10, 0 < n → n.digitChar ≠ '0' := by decide
        exact hdigits n hlt hpos
      · have hle : 10 ≤ n := Nat.le_of_not_lt hlt
        obtain ⟨c, rest, hhead, hne⟩ := ih (n / 10) (by omega) (by omega)
        rw [Nat.toDigits_of_base_le (by decide) hle, hhead]
        exact ⟨c, rest ++ [(n % 10).digitChar], rfl, hne⟩

theorem wholePart?_ofNat (n : Nat) (htail : EndsNumber tail) :
    wholePart? (Text.Decimal.ofNat n ++ tail) = some (Text.Decimal.ofNat n, tail) := by
  rcases Nat.eq_zero_or_pos n with rfl | hpos
  · cases tail with
    | nil => rfl
    | cons c rest =>
        have hdigit := (htail c rest rfl).1
        change wholePart? ('0' :: c :: rest) = some (['0'], c :: rest)
        rw [wholePart?]
        exact if_neg hdigit
  · obtain ⟨c, rest, hhead, hne⟩ := exists_head_ofNat hpos
    have hspan := span_digits (isDigit_of_mem_ofNat (n := n)) htail
    rw [hhead, List.cons_append] at hspan ⊢
    rw [wholePart?]
    · rw [hspan]
    · exact fun _ heq => hne (List.cons.inj heq).1

theorem fractionPart?_of_endsNumber (htail : EndsNumber tail) :
    fractionPart? tail = some ([], tail) := by
  cases tail with
  | nil => rfl
  | cons c rest =>
      rw [fractionPart?]
      exact fun _ heq => (htail c rest rfl).2.1 (List.cons.inj heq).1

theorem exponentPart?_of_endsNumber (htail : EndsNumber tail) :
    exponentPart? tail = some (none, tail) := by
  cases tail with
  | nil => rfl
  | cons c rest =>
      obtain ⟨-, -, hlower, hupper⟩ := htail c rest rfl
      simp only [exponentPart?, hlower, hupper, or_self, if_false]

theorem unsigned?_ofNat (negative : Bool) (n : Nat) (htail : EndsNumber tail) :
    unsigned? negative (Text.Decimal.ofNat n ++ tail) = some (integerOf negative n, tail) := by
  have hdigits : Nat.ofDigitChars 10 (Text.Decimal.ofNat n ++ []) 0 = n := by
    rw [List.append_nil]
    exact Nat.ofDigitChars_ten_toDigits
  simp only [unsigned?, wholePart?_ofNat n htail, fractionPart?_of_endsNumber htail,
    exponentPart?_of_endsNumber htail, hdigits, and_self, if_true]

/-- Whole numbers of 64 bits, with or without sign, are read back. -/
theorem number?_ofInt {n : Int} (hmin : Int64.minValue.toInt ≤ n) (hmax : n < UInt64.size)
    (htail : EndsNumber tail) :
    number? (Text.Decimal.ofInt n ++ tail) = some (.int n, tail) := by
  have hleast : Int64.minValue.toInt = -(UInt64.size / 2 : Nat) := rfl
  cases n with
  | ofNat n =>
      have hnumber : number? (Text.Decimal.ofNat n ++ tail) =
          unsigned? false (Text.Decimal.ofNat n ++ tail) := by
        rw [number?]
        intro rest heq
        have hdash : '-' ∈ Text.Decimal.ofNat n := by
          cases hdigits : Text.Decimal.ofNat n with
          | nil => exact absurd hdigits Nat.toDigits_ne_nil
          | cons c digits =>
              rw [hdigits] at heq
              cases heq
              exact List.mem_cons_self
        exact absurd (isDigit_of_mem_ofNat _ hdash) (by decide)
      have hlt : n < UInt64.size := Int.ofNat_lt.mp hmax
      rw [Text.Decimal.ofInt, hnumber, unsigned?_ofNat false n htail, integerOf, if_neg (by decide),
        if_pos hlt]
      rfl
  | negSucc n =>
      rw [Text.Decimal.ofInt, List.cons_append, number?, unsigned?_ofNat true (n + 1) htail,
        integerOf, if_pos rfl, if_neg (by omega)]
      rfl

end RemoteCall.Json.Parser
