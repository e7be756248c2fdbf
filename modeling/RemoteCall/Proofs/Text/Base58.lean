import Mathlib.Data.Nat.Digits.Lemmas
import RemoteCall.Proofs.Outcome
import RemoteCall.Text.Base58

/-!
# Base 58 text read back

Digits that begin with none of value zero are told by the number that they write, in
either base.  So a row of digits is told by the row that it becomes in another base:
leading zeros one by one, and the other digits from the number that they make.  Bytes are
therefore read back from their text, and a text that is read is the text of what was read.
-/

namespace RemoteCall.Text.Base58

variable {base n : Nat} {digits : List Nat}

/-! ## Digits and numbers -/

theorem radixDigits_eq (hbase : 1 < base) (n : Nat) :
    radixDigits base hbase n = (Nat.digits base n).reverse := by
  induction n using Nat.strongRecOn with
  | ind n ih =>
      rw [radixDigits]
      split
      · rename_i hzero
        rw [hzero, Nat.digits_zero, List.reverse_nil]
      · rename_i hzero
        have hpos := Nat.pos_of_ne_zero hzero
        rw [ih _ (Nat.div_lt_self hpos hbase), Nat.digits_def' hbase hpos, List.reverse_cons]

theorem radixValue_eq (base : Nat) (digits : List Nat) :
    radixValue base digits = Nat.ofDigits base digits.reverse := by
  rw [radixValue, Nat.ofDigits_eq_foldr, List.foldr_reverse]
  congr 1
  funext value digit
  exact Nat.add_comm _ _

/-- The digits are those of a number: each is below the base, and the first is not zero. -/
structure Significant (base : Nat) (digits : List Nat) : Prop where
  lt_base : ∀ digit ∈ digits, digit < base
  head_ne_zero : digits.head? ≠ some 0

theorem significant_radixDigits (hbase : 1 < base) (n : Nat) :
    Significant base (radixDigits base hbase n) := by
  rw [radixDigits_eq]
  refine ⟨fun digit hmem => Nat.digits_lt_base hbase (List.mem_reverse.mp hmem), ?_⟩
  rw [List.head?_reverse]
  intro hlast
  have hdigits : Nat.digits base n ≠ [] := by
    intro hnil
    rw [hnil] at hlast
    cases hlast
  rw [List.getLast?_eq_some_getLast hdigits, Option.some.injEq] at hlast
  exact Nat.getLast_digit_ne_zero base (Nat.digits_ne_nil_iff_ne_zero.mp hdigits) hlast

theorem radixValue_radixDigits (hbase : 1 < base) (n : Nat) :
    radixValue base (radixDigits base hbase n) = n := by
  rw [radixValue_eq, radixDigits_eq, List.reverse_reverse, Nat.ofDigits_digits]

theorem radixDigits_radixValue (hbase : 1 < base) (hdigits : Significant base digits) :
    radixDigits base hbase (radixValue base digits) = digits := by
  have hlast : ∀ hne : digits.reverse ≠ [], digits.reverse.getLast hne ≠ 0 := by
    intro hne hzero
    apply hdigits.head_ne_zero
    rw [← List.getLast?_reverse, List.getLast?_eq_some_getLast hne, hzero]
  rw [radixValue_eq, radixDigits_eq, Nat.digits_ofDigits base hbase _ (fun digit hmem =>
    hdigits.lt_base digit (List.mem_reverse.mp hmem)) hlast, List.reverse_reverse]

/-! ## A change of base -/

/-- The digits in another base: a zero for every leading zero, and the rest as one number. -/
def rebase (source target : Nat) (htarget : 1 < target) (digits : List Nat) : List Nat :=
  List.replicate (digits.takeWhile (· = 0)).length 0 ++
    radixDigits target htarget (radixValue source (digits.dropWhile (· = 0)))

section

variable {source target : Nat}

/-- Leading zeros can be told from what follows them. -/
theorem span_zeros (zeros : Nat) (hhead : digits.head? ≠ some 0) :
    (List.replicate zeros 0 ++ digits).takeWhile (· = 0) = List.replicate zeros 0 ∧
      (List.replicate zeros 0 ++ digits).dropWhile (· = 0) = digits := by
  have hzeros : ∀ digit ∈ List.replicate zeros 0, decide (digit = 0) = true := fun digit hmem =>
    decide_eq_true (List.eq_of_mem_replicate hmem)
  rw [List.takeWhile_append_of_pos hzeros, List.dropWhile_append_of_pos hzeros]
  cases digits with
  | nil => exact ⟨List.append_nil _, rfl⟩
  | cons digit rest =>
      have hdigit : digit ≠ 0 := fun hzero => hhead (congrArg some hzero)
      simp [hdigit]

/-- What follows the leading zeros is what writes the number. -/
theorem significant_dropWhile (hdigits : ∀ digit ∈ digits, digit < base) :
    Significant base (digits.dropWhile (· = 0)) where
  lt_base digit hmem := hdigits digit ((List.dropWhile_sublist _).subset hmem)
  head_ne_zero hzero := by
    have hhead := List.head?_dropWhile_not (· = 0) digits
    rw [hzero] at hhead
    exact of_decide_eq_false hhead rfl

theorem lt_of_mem_rebase (htarget : 1 < target) :
    ∀ digit ∈ rebase source target htarget digits, digit < target := by
  intro digit hmem
  rcases List.mem_append.mp hmem with hzero | hdigit
  · rw [List.eq_of_mem_replicate hzero]
    exact Nat.zero_lt_of_lt htarget
  · exact (significant_radixDigits htarget _).lt_base digit hdigit

/-- Changed back to the base they came from, the digits are the same. -/
theorem rebase_rebase (hsource : 1 < source) (htarget : 1 < target)
    (hdigits : ∀ digit ∈ digits, digit < source) :
    rebase target source hsource (rebase source target htarget digits) = digits := by
  have hzeros : List.replicate (digits.takeWhile (· = 0)).length 0 =
      digits.takeWhile (· = 0) :=
    (List.eq_replicate_of_mem fun digit hmem =>
      of_decide_eq_true (List.all_eq_true.mp List.all_takeWhile digit hmem)).symm
  have hnumber := significant_radixDigits htarget (radixValue source (digits.dropWhile (· = 0)))
  obtain ⟨htake, hdrop⟩ := span_zeros (digits.takeWhile (· = 0)).length hnumber.head_ne_zero
  rw [rebase, rebase, htake, hdrop, List.length_replicate, radixValue_radixDigits,
    radixDigits_radixValue hsource (significant_dropWhile hdigits), hzeros,
    List.takeWhile_append_dropWhile]

end

/-! ## Letters -/

theorem value?_letter : ∀ digit < 58, (letter digit).toNat ≤ 0x7f ∧
    value? (letter digit) = some digit := by decide

theorem letter_of_value? {c : Char} (hvalue : value? c = some n) : n < 58 ∧ letter n = c := by
  obtain ⟨hlt, hletter, -⟩ := List.idxOf?_eq_some_iff.mp hvalue
  refine ⟨hlt, ?_⟩
  rw [letter, List.getD_eq_getElem?_getD, List.getElem?_eq_getElem hlt]
  exact hletter

theorem values_map_letter (position : Nat) (hdigits : ∀ digit ∈ digits, digit < 58) :
    values position (digits.map letter) = .ok digits := by
  induction digits generalizing position with
  | nil => rfl
  | cons digit rest ih =>
      obtain ⟨hdigit, hrest⟩ := List.forall_mem_cons.mp hdigits
      obtain ⟨hascii, hvalue⟩ := value?_letter digit hdigit
      rw [List.map_cons, values, if_neg (Nat.not_lt.mpr hascii), hvalue]
      dsimp only
      rw [ih (position + 1) hrest]

/-- Every letter stands for one digit, so the values tell the text. -/
theorem map_letter_of_values {position : Nat} {text : List Char}
    (hvalues : values position text = .ok digits) :
    (∀ digit ∈ digits, digit < 58) ∧ digits.map letter = text := by
  induction text generalizing position digits with
  | nil =>
      cases hvalues
      exact ⟨nofun, rfl⟩
  | cons c rest ih =>
      rw [values] at hvalues
      split at hvalues
      · cases hvalues
      · split at hvalues
        · cases hvalues
        · rename_i value hvalue
          split at hvalues
          · cases hvalues
          · rename_i tail htail
            cases hvalues
            obtain ⟨hlt, hletter⟩ := letter_of_value? hvalue
            obtain ⟨hdigits, hrest⟩ := ih htail
            exact ⟨List.forall_mem_cons.mpr ⟨hlt, hdigits⟩, by rw [List.map_cons, hletter, hrest]⟩

/-! ## Texts -/

theorem encode_eq (bytes : List UInt8) :
    encode bytes = (rebase 256 58 (by decide) (bytes.map UInt8.toNat)).map letter := by
  have hzero : (fun digit : Nat => decide (digit = 0)) ∘ UInt8.toNat =
      fun byte => decide (byte = 0) := by
    funext byte
    exact decide_eq_decide.mpr (UInt8.toNat_inj (b := 0))
  rw [encode, rebase, List.takeWhile_map, List.dropWhile_map, hzero, List.length_map,
    List.map_append, List.map_replicate, ← List.map_const']
  rfl

theorem decode_eq (text : List Char) :
    decode text = (values 0 text).map fun digits =>
      (rebase 58 256 (by decide) digits).map Nat.toUInt8 := by
  rw [decode]
  cases values 0 text with
  | error fault => rfl
  | ok digits =>
      simp only [Except.map, rebase, List.map_append, List.map_replicate]
      rw [← List.map_const']
      rfl

theorem decode_encode (bytes : List UInt8) : decode (encode bytes) = .ok bytes := by
  have hbytes : ∀ digit ∈ bytes.map UInt8.toNat, digit < 256 :=
    List.forall_mem_map.mpr fun byte _ => byte.toNat_lt
  have hback : (bytes.map UInt8.toNat).map Nat.toUInt8 = bytes := by
    rw [List.map_map]
    exact List.map_id'' (fun byte => UInt8.ofNat_toNat) bytes
  rw [decode_eq, encode_eq, values_map_letter 0 (lt_of_mem_rebase _), Except.map,
    rebase_rebase _ _ hbytes, hback]

/-- A text that is read is the text of what was read. -/
theorem encode_of_decode {text : List Char} {bytes : List UInt8}
    (hdecode : decode text = .ok bytes) : encode bytes = text := by
  rw [decode_eq] at hdecode
  obtain ⟨digits, hvalues, rfl⟩ := Outcome.map_eq_ok_iff.mp hdecode
  obtain ⟨hdigits, htext⟩ := map_letter_of_values hvalues
  have hback : ((rebase 58 256 (by decide) digits).map Nat.toUInt8).map UInt8.toNat =
      rebase 58 256 (by decide) digits := by
    rw [List.map_map]
    exact (List.map_congr_left fun digit hmem =>
      UInt8.toNat_ofNat_of_lt (lt_of_mem_rebase _ digit hmem)).trans (List.map_id _)
  rw [encode_eq, hback, rebase_rebase _ _ hdigits, htext]

end RemoteCall.Text.Base58
