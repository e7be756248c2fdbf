import Mathlib.Tactic.SplitIfs
import RemoteCall.Proofs.Json.Text

/-!
# The order of texts by bytes

Texts are ordered character by character.  Their bytes in UTF-8 are in the same order:
of two characters the lesser one has the lesser byte at the first place where their
bytes differ, and there is such a place in both.  So it makes no difference whether names
are sorted by their characters or by their bytes.
-/

namespace RemoteCall.Text

/-- Bytes of which the first that differ are in order; there must be such bytes. -/
def Precedes : List UInt8 → List UInt8 → Prop
  | a :: left, b :: right => a < b ∨ a = b ∧ Precedes left right
  | _, _ => False

theorem not_precedes_nil {right : List UInt8} : ¬ Precedes [] right := id

theorem append_lt_append_of_precedes {left right : List UInt8} (hprecedes : Precedes left right)
    (left' right' : List UInt8) : left ++ left' < right ++ right' := by
  induction left generalizing right with
  | nil => exact absurd hprecedes not_precedes_nil
  | cons a left ih =>
      cases right with
      | nil => exact hprecedes.elim
      | cons b right =>
          rw [List.cons_append, List.cons_append, List.cons_lt_cons_iff]
          exact hprecedes.imp_right fun ⟨hsame, hrest⟩ => ⟨hsame, ih hrest⟩

/-- Bytes given by their numbers are compared by them. -/
theorem precedes_ofNat_cons_iff {m n : Nat} (hm : m < 256) (hn : n < 256)
    {left right : List UInt8} :
    Precedes (UInt8.ofNat m :: left) (UInt8.ofNat n :: right) ↔
      m < n ∨ m = n ∧ Precedes left right := by
  rw [Precedes, UInt8.lt_iff_toNat_lt, ← UInt8.toNat_inj, UInt8.toNat_ofNat', UInt8.toNat_ofNat',
    Nat.mod_eq_of_lt hm, Nat.mod_eq_of_lt hn]

/-- Of two numbers the greater one has the greater last digit, or is greater without it. -/
theorem div_lt_or_mod_lt {m n : Nat} (hlt : m < n) :
    m / 64 < n / 64 ∨ m / 64 = n / 64 ∧ m % 64 < n % 64 := by
  omega

/-- The bytes of characters have the digits of their numbers, and before them how many
there are. -/
theorem precedes_utf8EncodeChar {c d : Char} (hlt : c < d) :
    Precedes (String.utf8EncodeChar c) (String.utf8EncodeChar d) := by
  have hlt : c.val.toNat < d.val.toNat := hlt
  have hbound : d.val.toNat < 0x110000 := by
    rcases d.valid with hsmall | ⟨-, hlarge⟩ <;> omega
  simp only [String.utf8EncodeChar]
  generalize c.val.toNat = m at hlt ⊢
  generalize d.val.toNat = n at hlt hbound ⊢
  have hdigits : ∀ k : Nat, k / 64 / 64 = k / 4096 ∧ k / 4096 / 64 = k / 262144 :=
    fun k => ⟨Nat.div_div_eq_div_mul k 64 64, Nat.div_div_eq_div_mul k 4096 64⟩
  have hm := hdigits m
  have hn := hdigits n
  have hfirst := div_lt_or_mod_lt hlt
  have hsecond := @div_lt_or_mod_lt (m / 64) (n / 64)
  have hthird := @div_lt_or_mod_lt (m / 4096) (n / 4096)
  rw [hm.1, hn.1] at hsecond
  rw [hm.2, hn.2] at hthird
  have hmTop : m / 262144 % 8 = m / 262144 := by omega
  have hnTop : n / 262144 % 8 = n / 262144 := by omega
  -- One case for each number of bytes of the one and of the other.
  split_ifs <;> simp (disch := omega) only [precedes_ofNat_cons_iff, not_precedes_nil] <;> omega

theorem flatMap_utf8EncodeChar_lt {left right : List Char} (hlt : left < right) :
    left.flatMap String.utf8EncodeChar < right.flatMap String.utf8EncodeChar := by
  induction left generalizing right with
  | nil =>
      cases right with
      | nil => exact absurd hlt (List.not_lt_nil _)
      | cons d right =>
          obtain ⟨byte, bytes, hbytes⟩ :=
            List.exists_cons_of_ne_nil (String.utf8EncodeChar_ne_nil (c := d))
          rw [List.flatMap_nil, List.flatMap_cons, hbytes, List.cons_append]
          exact List.nil_lt_cons _ _
  | cons c left ih =>
      cases right with
      | nil => exact absurd hlt (List.not_lt_nil _)
      | cons d right =>
          rw [List.flatMap_cons, List.flatMap_cons]
          rcases List.cons_lt_cons_iff.mp hlt with hfirst | ⟨rfl, hrest⟩
          · exact append_lt_append_of_precedes (precedes_utf8EncodeChar hfirst) _ _
          · exact List.append_left_lt (ih hrest)

/-- Texts in order are in order by their bytes. -/
theorem toUTF8_lt_of_compare {left right : String} (hlt : compare left right = .lt) :
    left.toUTF8.toList < right.toUTF8.toList := by
  have hchars : left.toList < right.toList := String.lt_iff.mp (compareOfLessAndEq_eq_lt.mp hlt)
  have hbytes : ∀ text : String,
      text.toUTF8.toList = text.toList.flatMap String.utf8EncodeChar := by
    intro text
    rw [← Json.toList_toUTF8, String.ofList_toList]
  rw [hbytes, hbytes]
  exact flatMap_utf8EncodeChar_lt hchars

end RemoteCall.Text
