import Mathlib.Computability.Language
import RemoteCall.Proofs.Path

/-!
# The pattern of dotted paths

What a dotted path looks like can be told in three manners: by a pattern for the whole
text, by what each part between its dots is made of, and by the check that such a text
has to pass.  All three admit the same texts.
-/

namespace RemoteCall.Path

open scoped Computability

variable {text segment : List Char} {c : Char}

/-! ## Characters -/

/-- The texts of one character out of some. -/
def oneOf (chars : Set Char) : Language Char := {text | ∃ c ∈ chars, text = [c]}

/-- `[A-Za-z_]`, the characters that an identifier starts with. -/
def starts : Set Char := {c | ('A' ≤ c ∧ c ≤ 'Z') ∨ ('a' ≤ c ∧ c ≤ 'z') ∨ c = '_'}

/-- `[A-Za-z0-9_]`, the characters that it goes on with. -/
def others : Set Char :=
  {c | ('A' ≤ c ∧ c ≤ 'Z') ∨ ('a' ≤ c ∧ c ≤ 'z') ∨ ('0' ≤ c ∧ c ≤ '9') ∨ c = '_'}

theorem mem_kstar_oneOf_iff {chars : Set Char} :
    text ∈ (oneOf chars)∗ ↔ ∀ c ∈ text, c ∈ chars := by
  constructor
  · intro hmem c hc
    obtain ⟨pieces, rfl, hpieces⟩ := Language.mem_kstar.mp hmem
    obtain ⟨piece, hpiece, hc⟩ := List.mem_flatten.mp hc
    obtain ⟨d, hd, rfl⟩ := hpieces piece hpiece
    rw [List.mem_singleton.mp hc]
    exact hd
  · intro hchars
    have hpieces : text = (text.map fun c => [c]).flatten := by
      rw [← List.flatMap_def, List.flatMap_singleton']
    refine Language.mem_kstar.mpr ⟨_, hpieces, fun piece hpiece => ?_⟩
    obtain ⟨c, hc, rfl⟩ := List.mem_map.mp hpiece
    exact ⟨c, hchars c hc, rfl⟩

theorem isAlpha_iff : c.isAlpha ↔ ('A' ≤ c ∧ c ≤ 'Z') ∨ ('a' ≤ c ∧ c ≤ 'z') := by
  have hupper : c.isUpper ↔ 'A' ≤ c ∧ c ≤ 'Z' := decide_eq_true_iff
  have hlower : c.isLower ↔ 'a' ≤ c ∧ c ≤ 'z' :=
    Bool.and_eq_true_iff.trans (and_congr decide_eq_true_iff decide_eq_true_iff)
  exact Bool.or_eq_true_iff.trans (or_congr hupper hlower)

theorem isDigit_iff : c.isDigit ↔ '0' ≤ c ∧ c ≤ '9' :=
  Bool.and_eq_true_iff.trans (and_congr decide_eq_true_iff decide_eq_true_iff)

theorem isStart_iff : isStart c ↔ c ∈ starts := by
  rw [isStart, Bool.or_eq_true, isAlpha_iff, beq_iff_eq, or_assoc]
  rfl

theorem isPart_iff : isPart c ↔ c ∈ others := by
  rw [isPart, Bool.or_eq_true, isStart_iff, isDigit_iff]
  simp only [starts, others, Set.mem_ofPred_eq]
  tauto

/-! ## Segments -/

/-- `[A-Za-z_][A-Za-z0-9_]*` -/
def identifiers : Language Char := oneOf starts * (oneOf others)∗

theorem mem_identifiers_iff : segment ∈ identifiers ↔ isIdentifier segment := by
  rw [identifiers, Language.mem_mul]
  constructor
  · rintro ⟨_, ⟨c, hstart, rfl⟩, rest, hrest, rfl⟩
    rw [List.singleton_append, isIdentifier, Bool.and_eq_true, List.all_eq_true]
    exact ⟨isStart_iff.mpr hstart, fun d hd => isPart_iff.mpr (mem_kstar_oneOf_iff.mp hrest d hd)⟩
  · intro hidentifier
    cases segment with
    | nil => cases hidentifier
    | cons c rest =>
        rw [isIdentifier, Bool.and_eq_true, List.all_eq_true] at hidentifier
        refine ⟨[c], ⟨c, isStart_iff.mp hidentifier.1, rfl⟩, rest, ?_, rfl⟩
        exact mem_kstar_oneOf_iff.mpr fun d hd => isPart_iff.mp (hidentifier.2 d hd)

/-- At least one character, all of them ASCII letters, digits and underscores, and the
first of them no digit. -/
def IsSegment (segment : List Char) : Prop :=
  segment ≠ [] ∧ (∀ c ∈ segment, c.isAlphanum ∨ c = '_') ∧ ∀ c ∈ segment.head?, ¬ c.isDigit

theorem isPart_iff_isAlphanum : isPart c ↔ c.isAlphanum ∨ c = '_' := by
  simp [isPart, isStart, Char.isAlphanum, or_right_comm]

/-- No character is a letter and a digit. -/
theorem isStart_iff_not_isDigit : isStart c ↔ (c.isAlphanum ∨ c = '_') ∧ ¬ c.isDigit := by
  have hapart : c.isAlpha → ¬ c.isDigit := by
    simp only [isAlpha_iff, isDigit_iff, Char.le_def, UInt32.le_iff_toNat_le]
    change (65 ≤ c.toNat ∧ c.toNat ≤ 90) ∨ (97 ≤ c.toNat ∧ c.toNat ≤ 122) →
      ¬ (48 ≤ c.toNat ∧ c.toNat ≤ 57)
    omega
  have hunderscore : c = '_' → ¬ c.isDigit := by
    rintro rfl
    decide
  simp only [isStart, Char.isAlphanum, Bool.or_eq_true, beq_iff_eq]
  tauto

theorem isIdentifier_iff : isIdentifier segment ↔ IsSegment segment := by
  cases segment with
  | nil => simp [isIdentifier, IsSegment]
  | cons c rest =>
      rw [isIdentifier, IsSegment, Bool.and_eq_true, List.all_eq_true, List.forall_mem_cons,
        isStart_iff_not_isDigit]
      simp only [isPart_iff_isAlphanum, List.head?_cons, Option.mem_some_iff, forall_eq', ne_eq,
        reduceCtorEq, not_false_eq_true, true_and]
      tauto

theorem not_mem_of_mem_identifiers (hsegment : segment ∈ identifiers) : '.' ∉ segment := by
  intro hdot
  rw [mem_identifiers_iff, isIdentifier_iff] at hsegment
  exact absurd (hsegment.2.1 '.' hdot) (by decide)

/-! ## Paths -/

/-- `[A-Za-z_][A-Za-z0-9_]*(\.[A-Za-z_][A-Za-z0-9_]*)*`, from the start of a text to its
end. -/
def dotted : Language Char := identifiers * (oneOf {'.'} * identifiers)∗

theorem forall_mem_splitOn_of_flatten {pieces : List (List Char)} (hsegment : segment ∈ identifiers)
    (hpieces : ∀ piece ∈ pieces, piece ∈ oneOf {'.'} * identifiers) :
    ∀ part ∈ (segment ++ pieces.flatten).splitOn '.', part ∈ identifiers := by
  induction pieces generalizing segment with
  | nil =>
      rw [List.flatten_nil, List.append_nil,
        List.splitOn_eq_singleton (not_mem_of_mem_identifiers hsegment)]
      exact List.forall_mem_singleton.mpr hsegment
  | cons piece pieces ih =>
      obtain ⟨hpiece, hrest⟩ := List.forall_mem_cons.mp hpieces
      obtain ⟨_, ⟨_, rfl, rfl⟩, next, hnext, rfl⟩ := Language.mem_mul.mp hpiece
      rw [List.flatten_cons, List.append_assoc, List.singleton_append,
        List.splitOn_append_cons_self,
        List.splitOn_eq_singleton (not_mem_of_mem_identifiers hsegment)]
      exact List.forall_mem_cons.mpr ⟨hsegment, ih hnext hrest⟩

theorem intercalate_mem_dotted {segments : List (List Char)} (hne : segments ≠ [])
    (hsegments : ∀ segment ∈ segments, segment ∈ identifiers) :
    ['.'].intercalate segments ∈ dotted := by
  induction segments with
  | nil => exact absurd rfl hne
  | cons segment rest ih =>
      obtain ⟨hsegment, hrest⟩ := List.forall_mem_cons.mp hsegments
      cases rest with
      | nil =>
          rw [List.intercalate_singleton]
          exact ⟨segment, hsegment, [], Language.nil_mem_kstar _, List.append_nil segment⟩
      | cons next rest =>
          obtain ⟨first, hfirst, more, hmore, heq⟩ := ih (List.cons_ne_nil next rest) hrest
          obtain ⟨pieces, rfl, hpieces⟩ := Language.mem_kstar.mp hmore
          have hpiece : '.' :: first ∈ oneOf {'.'} * identifiers :=
            ⟨['.'], ⟨'.', rfl, rfl⟩, first, hfirst, rfl⟩
          refine ⟨segment, hsegment, (('.' :: first) :: pieces).flatten,
            Language.join_mem_kstar (List.forall_mem_cons.mpr ⟨hpiece, hpieces⟩), ?_⟩
          rw [List.intercalate_cons_cons, ← heq]
          simp

/-- The pattern admits the texts all of whose segments it admits. -/
theorem mem_dotted_iff :
    text ∈ dotted ↔ ∀ segment ∈ text.splitOn '.', segment ∈ identifiers := by
  constructor
  · rintro ⟨segment, hsegment, rest, hrest, rfl⟩
    obtain ⟨pieces, rfl, hpieces⟩ := Language.mem_kstar.mp hrest
    exact forall_mem_splitOn_of_flatten hsegment hpieces
  · intro hsegments
    have hjoined := intercalate_mem_dotted (List.splitOn_ne_nil '.' text) hsegments
    rwa [List.intercalate_splitOn] at hjoined

theorem isValid_iff {path : String} :
    isValid path ↔ ∀ segment ∈ path.toList.splitOn '.', isIdentifier segment := by
  rw [isValid, splitDots_eq_splitOn, List.all_eq_true]

end RemoteCall.Path
