import Mathlib.Data.List.Infix
import RemoteCall.Text.Replace

/-!
# Replacing where nothing overlaps

A text is replaced part by part where no occurrence lies across the parts.  A pattern in
braces, with no braces between them, lies across nothing that a brace begins or ends, and
across no text that stands between without a brace of its own, unless that text is part of
the pattern.
-/

namespace RemoteCall.Text.Replace

variable {pattern replacement text left right : List Char} {c : Char}

/-! ## One step -/

theorem replaceFrom_skip (pattern replacement text : List Char) (skip : Nat) :
    replaceFrom pattern replacement skip text =
      replaceFrom pattern replacement 0 (text.drop skip) := by
  induction skip generalizing text with
  | zero => rfl
  | succ skip ih =>
      cases text with
      | nil => rfl
      | cons c rest => rw [replaceFrom, ih, List.drop_succ_cons]

/-- What an occurrence is replaced by is not looked at again. -/
theorem replaceFrom_occurrence (hne : pattern ≠ []) (text : List Char) :
    replaceFrom pattern replacement 0 (pattern ++ text) =
      replacement ++ replaceFrom pattern replacement 0 text := by
  obtain ⟨c, rest, rfl⟩ := List.exists_cons_of_ne_nil hne
  have hoccurs : (c :: rest).isPrefixOf (c :: (rest ++ text)) :=
    List.isPrefixOf_iff_prefix.mpr (List.prefix_append (c :: rest) text)
  rw [List.cons_append, replaceFrom, if_pos hoccurs, replaceFrom_skip, List.length_cons,
    Nat.add_sub_cancel, List.drop_left]

theorem replaceFrom_cons (habsent : ¬ pattern <+: c :: text) :
    replaceFrom pattern replacement 0 (c :: text) =
      c :: replaceFrom pattern replacement 0 text := by
  rw [replaceFrom, if_neg (mt List.isPrefixOf_iff_prefix.mp habsent)]

/-- A text in which the pattern does not occur stays as it is. -/
theorem replaceFrom_of_not_infix (habsent : ¬ pattern <:+: text) :
    replaceFrom pattern replacement 0 text = text := by
  induction text with
  | nil => rfl
  | cons c rest ih =>
      rw [List.infix_cons_iff, not_or] at habsent
      rw [replaceFrom_cons habsent.1, ih habsent.2]

/-! ## Part by part -/

/-- No occurrence of the pattern begins in one text and ends in the next. -/
def Apart (pattern left right : List Char) : Prop :=
  ∀ first second, first ++ second = pattern → first ≠ [] → second ≠ [] →
    first <:+ left → ¬ second <+: right

/-- What begins in the first text ends there. -/
theorem Apart.prefix_left (hapart : Apart pattern left right) (hleft : left ≠ [])
    (hoccurs : pattern <+: left ++ right) : pattern <+: left := by
  obtain ⟨rest, hrest⟩ := hoccurs
  rcases List.append_eq_append_iff.mp hrest with ⟨between, rfl, -⟩ | ⟨second, hsecond, hright⟩
  · exact List.prefix_append pattern between
  · rcases second with _ | ⟨c, second⟩
    · rw [hsecond, List.append_nil]
    · have hcross := hapart left (c :: second) hsecond.symm hleft (List.cons_ne_nil c second)
        (List.suffix_refl left)
      exact absurd ⟨rest, hright.symm⟩ hcross

theorem Apart.of_suffix {tail : List Char} (hapart : Apart pattern left right)
    (htail : tail <:+ left) : Apart pattern tail right :=
  fun first second hpattern hfirst hsecond hsuffix =>
    hapart first second hpattern hfirst hsecond (hsuffix.trans htail)

theorem replaceFrom_append (hne : pattern ≠ []) (hapart : Apart pattern left right) :
    replaceFrom pattern replacement 0 (left ++ right) =
      replaceFrom pattern replacement 0 left ++ replaceFrom pattern replacement 0 right := by
  -- On the length: an occurrence takes several characters at once.
  induction hlength : left.length using Nat.strongRecOn generalizing left with
  | _ length ih =>
      cases left with
      | nil => rfl
      | cons c rest =>
          by_cases hoccurs : pattern <+: c :: rest ++ right
          · obtain ⟨tail, htail⟩ := hapart.prefix_left (List.cons_ne_nil c rest) hoccurs
            have hshorter : tail.length < length := by
              rw [← hlength, ← htail, List.length_append]
              exact Nat.lt_add_of_pos_left (List.length_pos_of_ne_nil hne)
            have hrest := ih tail.length hshorter
              (hapart.of_suffix ⟨pattern, htail⟩) rfl
            rw [← htail, List.append_assoc, replaceFrom_occurrence hne,
              replaceFrom_occurrence hne, hrest, List.append_assoc]
          · have habsent : ¬ pattern <+: c :: rest :=
              fun hstarts => hoccurs (hstarts.trans (List.prefix_append _ _))
            have hrest := ih rest.length (by simp [← hlength])
              (hapart.of_suffix (List.suffix_cons c rest)) rfl
            rw [List.cons_append] at hoccurs ⊢
            rw [replaceFrom_cons hoccurs, replaceFrom_cons habsent, hrest, List.cons_append]

/-! ## Patterns in braces -/

/-- The text has no brace. -/
def Braceless (text : List Char) : Prop := '{' ∉ text ∧ '}' ∉ text

instance (text : List Char) : Decidable (Braceless text) :=
  inferInstanceAs (Decidable ('{' ∉ text ∧ '}' ∉ text))

/-- A name in braces. -/
def braced (name : List Char) : List Char := '{' :: name ++ ['}']

variable {name inner : List Char}

theorem braced_ne_nil : braced name ≠ [] := List.cons_ne_nil _ _

/-- Of a pattern in braces that is cut in two, one part has the brace that opens and the
other one the brace that closes. -/
theorem exists_of_append_eq_braced {first second : List Char}
    (hcut : first ++ second = braced name) (hfirst : first ≠ []) (hsecond : second ≠ []) :
    ∃ front back, first = '{' :: front ∧ second = back ++ ['}'] ∧ front ++ back = name := by
  obtain ⟨c, front, rfl⟩ := List.exists_cons_of_ne_nil hfirst
  obtain ⟨back, d, rfl⟩ := second.eq_nil_or_concat'.resolve_left hsecond
  rw [braced, List.cons_append, List.cons_append, List.cons.injEq, ← List.append_assoc] at hcut
  obtain ⟨hname, hlast⟩ := List.append_inj' hcut.2 rfl
  exact ⟨front, back, by rw [hcut.1], by rw [hlast], hname⟩

theorem apart_open (hname : Braceless name) (left right : List Char) :
    Apart (braced name) left ('{' :: right) := by
  intro first second hcut hfirst hsecond _ hstarts
  obtain ⟨front, back, rfl, rfl, rfl⟩ := exists_of_append_eq_braced hcut hfirst hsecond
  cases back with
  | nil => exact absurd (List.cons_prefix_cons.mp hstarts).1 (by decide)
  | cons c back =>
      have hopen : c = '{' := (List.cons_prefix_cons.mp hstarts).1
      exact hname.1 (by simp [hopen])

theorem apart_close (hname : Braceless name) (left right : List Char) :
    Apart (braced name) (left ++ ['}']) right := by
  intro first second hcut hfirst hsecond hsuffix _
  obtain ⟨front, back, rfl, rfl, rfl⟩ := exists_of_append_eq_braced hcut hfirst hsecond
  have hclose : ('{' :: front).getLast (List.cons_ne_nil _ _) = '}' := by
    rw [hsuffix.getLast (List.cons_ne_nil _ _), List.getLast_concat]
  cases front with
  | nil => exact absurd hclose (by decide)
  | cons c front =>
      rw [List.getLast_cons_cons] at hclose
      have hmem : '}' ∈ c :: front := hclose ▸ List.getLast_mem (List.cons_ne_nil c front)
      exact hname.2 (List.mem_append_left back hmem)

theorem apart_before_inner (hinner : Braceless inner) (habsent : ¬ inner <:+: name)
    (left right : List Char) : Apart (braced name) left (inner ++ right) := by
  intro first second hcut hfirst hsecond _ hstarts
  obtain ⟨front, back, rfl, rfl, rfl⟩ := exists_of_append_eq_braced hcut hfirst hsecond
  rcases List.prefix_or_prefix_of_prefix hstarts (List.prefix_append inner right) with
    hwithin | hbeyond
  · exact hinner.2 (hwithin.subset (by simp))
  · rcases List.prefix_concat_iff.mp hbeyond with rfl | hback
    · exact hinner.2 (by simp)
    · exact habsent (hback.isInfix.trans (List.suffix_append front back).isInfix)

theorem apart_after_inner (hinner : Braceless inner) (right : List Char) :
    Apart (braced name) inner right := by
  intro first second hcut hfirst hsecond hsuffix _
  obtain ⟨front, back, rfl, -, -⟩ := exists_of_append_eq_braced hcut hfirst hsecond
  exact hinner.1 (hsuffix.subset List.mem_cons_self)

/-- An occurrence is replaced, and what stands before and after it is for itself. -/
theorem replaceFrom_braced (hname : Braceless name) (left right : List Char) :
    replaceFrom (braced name) replacement 0 (left ++ braced name ++ right) =
      replaceFrom (braced name) replacement 0 left ++ replacement ++
        replaceFrom (braced name) replacement 0 right := by
  have hbefore : Apart (braced name) left (braced name ++ right) := apart_open hname left _
  rw [List.append_assoc, replaceFrom_append braced_ne_nil hbefore,
    replaceFrom_occurrence braced_ne_nil, List.append_assoc]

/-- A pattern of another name stays. -/
theorem replaceFrom_braced_of_ne {other : List Char} (hname : Braceless name)
    (habsent : ¬ braced name <:+: braced other) (left right : List Char) :
    replaceFrom (braced name) replacement 0 (left ++ braced other ++ right) =
      replaceFrom (braced name) replacement 0 left ++ braced other ++
        replaceFrom (braced name) replacement 0 right := by
  have hbefore : Apart (braced name) left (braced other ++ right) := apart_open hname left _
  have hafter : Apart (braced name) (braced other) right := apart_close hname _ right
  rw [List.append_assoc, replaceFrom_append braced_ne_nil hbefore,
    replaceFrom_append braced_ne_nil hafter, replaceFrom_of_not_infix habsent,
    List.append_assoc]

/-- A text without braces stays, and no occurrence is made around it. -/
theorem replaceFrom_inner (hinner : Braceless inner) (habsent : ¬ inner <:+: name)
    (left right : List Char) :
    replaceFrom (braced name) replacement 0 (left ++ inner ++ right) =
      replaceFrom (braced name) replacement 0 left ++ inner ++
        replaceFrom (braced name) replacement 0 right := by
  have hwithin : ¬ braced name <:+: inner :=
    fun hwithin => hinner.1 (hwithin.subset List.mem_cons_self)
  rw [List.append_assoc,
    replaceFrom_append braced_ne_nil (apart_before_inner hinner habsent left right),
    replaceFrom_append braced_ne_nil (apart_after_inner hinner right),
    replaceFrom_of_not_infix hwithin, List.append_assoc]

end RemoteCall.Text.Replace
