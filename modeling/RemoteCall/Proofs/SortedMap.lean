import Mathlib.Data.List.Dedup
import Mathlib.Data.List.Forall2
import RemoteCall.SortedMap

/-!
# Sorted maps, key by key and place by place

Two lists of entries can be compared key by key, through look-ups, or place by
place.  For entries in order the two comes to the same: the keys fix the places.
Replacing every value by what a function makes of it is compared place by place.
-/

namespace RemoteCall

universe u v w

section Places

variable {α : Type u} {β : Type v} {R S : α → β → Prop} {left : List α} {right : List β}

theorem forall₂_of_mem (hplaces : List.Forall₂ R left right)
    (himp : ∀ a ∈ left, ∀ b ∈ right, R a b → S a b) : List.Forall₂ S left right := by
  induction hplaces with
  | nil => exact .nil
  | cons hhead _ ih =>
      refine .cons (himp _ List.mem_cons_self _ List.mem_cons_self hhead) (ih ?_)
      intro a ha b hb
      exact himp a (List.mem_cons_of_mem _ ha) b (List.mem_cons_of_mem _ hb)

theorem exists_left_of_mem (hplaces : List.Forall₂ R left right) {b : β} (hmem : b ∈ right) :
    ∃ a ∈ left, R a b := by
  induction hplaces with
  | nil => cases hmem
  | cons hhead _ ih =>
      rcases List.mem_cons.mp hmem with rfl | htail
      · exact ⟨_, List.mem_cons_self, hhead⟩
      · obtain ⟨a, ha, hR⟩ := ih htail
        exact ⟨a, List.mem_cons_of_mem _ ha, hR⟩

theorem exists_right_of_getElem? (hplaces : List.Forall₂ R left right) {place : Nat} {a : α}
    (hplace : left[place]? = some a) : ∃ b, right[place]? = some b ∧ R a b := by
  induction hplaces generalizing place with
  | nil => cases hplace
  | cons hhead _ ih =>
      cases place with
      | zero =>
          cases hplace
          exact ⟨_, rfl, hhead⟩
      | succ place => exact ih hplace

theorem isSome_eq_of_rel {left : Option α} {right : Option β} (hrel : Option.Rel R left right) :
    left.isSome = right.isSome := by
  cases hrel <;> rfl

theorem rel_map_right {γ : Type w} {T : α → γ → Prop} {f : β → γ} {left : Option α}
    {right : Option β} (hrel : Option.Rel R left right) (himp : ∀ a b, R a b → T a (f b)) :
    Option.Rel T left (right.map f) := by
  cases hrel with
  | none => exact .none
  | some hR => exact .some (himp _ _ hR)

end Places

namespace Entries

variable {κ : Type u} {β : Type v} {γ : Type w} [Ord κ]

theorem ascending_erase {key : κ} {entries : List (κ × β)} (hascending : Ascending entries) :
    Ascending (erase key entries) :=
  ascending_filter _ hascending

theorem insertIfNew_of_find?_eq_none {key : κ} {value : β} {entries : List (κ × β)}
    (habsent : find? key entries = none) :
    insertIfNew key value entries = insert key value entries := by
  simp only [insertIfNew, habsent]

/-- What is stored is one of the pairs that were to be stored. -/
theorem mem_ofList {entry : κ × β} {pairs : List (κ × β)} (hmem : entry ∈ ofList pairs) :
    entry ∈ pairs := by
  have hfold : ∀ (pairs entries : List (κ × β)),
      entry ∈ pairs.foldl (fun entries pair => insert pair.1 pair.2 entries) entries →
        entry ∈ entries ∨ entry ∈ pairs := by
    intro pairs
    induction pairs with
    | nil => exact fun _ hentry => .inl hentry
    | cons pair rest ih =>
        intro entries hentry
        rcases ih _ hentry with hinsert | hrest
        · rcases mem_insert hinsert with rfl | hentries
          · exact .inr List.mem_cons_self
          · exact .inl hentries
        · exact .inr (List.mem_cons_of_mem _ hrest)
  exact (hfold pairs [] hmem).elim (fun hnil => nomatch hnil) id

section LookUp

variable [Std.TransOrd κ] [Std.LawfulEqOrd κ]

theorem ascending_insertIfNew {key : κ} {value : β} {entries : List (κ × β)}
    (hascending : Ascending entries) : Ascending (insertIfNew key value entries) := by
  rw [insertIfNew]
  split
  · exact hascending
  · exact ascending_insert hascending

omit [Std.TransOrd κ] in
theorem find?_eq_none_iff {key : κ} {entries : List (κ × β)} :
    find? key entries = none ↔ key ∉ entries.map Prod.fst := by
  induction entries with
  | nil => exact ⟨fun _ => List.not_mem_nil, fun _ => rfl⟩
  | cons entry rest ih =>
      rw [find?, List.map_cons, List.mem_cons, not_or]
      split
      · rename_i heq
        have hkey : key = entry.1 := Std.LawfulEqOrd.eq_of_compare heq
        exact ⟨fun hsome => absurd hsome (Option.some_ne_none _), fun habsent =>
          absurd hkey habsent.1⟩
      · rename_i hne
        rw [ih]
        refine ⟨fun habsent => ⟨?_, habsent⟩, fun habsent => habsent.2⟩
        exact fun hkey => hne (hkey ▸ Std.ReflCmp.compare_self)

omit [Std.TransOrd κ] [Std.LawfulEqOrd κ] in
theorem insert_perm {key : κ} {value : β} {entries : List (κ × β)}
    (habsent : find? key entries = none) :
    (insert key value entries).Perm ((key, value) :: entries) := by
  induction entries with
  | nil => exact .refl _
  | cons entry rest ih =>
      rw [find?] at habsent
      rw [insert]
      split
      · exact .refl _
      · rename_i heq
        rw [if_pos heq] at habsent
        cases habsent
      · rename_i hgt
        rw [if_neg (by rw [hgt]; decide)] at habsent
        exact ((ih habsent).cons entry).trans (.swap _ _ _)

omit [Std.TransOrd κ] in
/-- Pairs with keys of their own are all stored. -/
theorem ofList_perm {pairs : List (κ × β)} (hnodup : (pairs.map Prod.fst).Nodup) :
    (ofList pairs).Perm pairs := by
  have hfold : ∀ (pairs entries : List (κ × β)),
      (entries.map Prod.fst ++ pairs.map Prod.fst).Nodup →
      (pairs.foldl (fun entries pair => insert pair.1 pair.2 entries) entries).Perm
        (entries ++ pairs) := by
    intro pairs
    induction pairs with
    | nil =>
        intro entries _
        rw [List.append_nil]
        exact .refl _
    | cons pair rest ih =>
        intro entries hnodup
        rw [List.map_cons] at hnodup
        have hpair : (pair.1 :: (entries.map Prod.fst ++ rest.map Prod.fst)).Nodup :=
          List.perm_middle.nodup_iff.mp hnodup
        have habsent : find? pair.1 entries = none := find?_eq_none_iff.mpr fun hmem =>
          (List.nodup_cons.mp hpair).1 (List.mem_append_left _ hmem)
        have hinsert : (insert pair.1 pair.2 entries).Perm (pair :: entries) :=
          insert_perm habsent
        refine (ih _ ?_).trans ((hinsert.append_right rest).trans List.perm_middle.symm)
        exact (((hinsert.map Prod.fst).append_right (rest.map Prod.fst)).nodup_iff).mpr hpair
  exact hfold pairs [] hnodup

omit [Std.TransOrd κ] in
theorem nodup_keys {entries : List (κ × β)} (hascending : Ascending entries) :
    (entries.map Prod.fst).Nodup := by
  rw [List.Nodup, List.pairwise_map]
  refine hascending.imp fun {left right} hlt heq => ?_
  have hself : compare right.1 right.1 = .eq := Std.ReflCmp.compare_self
  rw [heq, hself] at hlt
  cases hlt

/-- Entries in order are told by what they are, in whatever order that comes. -/
theorem ofList_eq_of_perm {pairs entries : List (κ × β)} (hascending : Ascending entries)
    (hperm : pairs.Perm entries) : ofList pairs = entries := by
  have hnodup : (pairs.map Prod.fst).Nodup :=
    ((hperm.map Prod.fst).nodup_iff).mpr (nodup_keys hascending)
  refine ((ofList_perm hnodup).trans hperm).eq_of_pairwise ?_ (ascending_ofList pairs) hascending
  intro left right _ _ hlt hgt
  rw [Std.OrientedCmp.gt_of_lt hlt] at hgt
  cases hgt

/-- Entries in order are told by which they are. -/
theorem eq_of_mem_iff {left right : List (κ × β)} (hleft : Ascending left)
    (hright : Ascending right) (hmem : ∀ entry, entry ∈ left ↔ entry ∈ right) :
    left = right := by
  have hperm : left.Perm right :=
    (List.perm_ext_iff_of_nodup ((nodup_keys hleft).of_map _) ((nodup_keys hright).of_map _)).mpr
      hmem
  have hsorted := ofList_eq_of_perm hleft (.refl left)
  rw [← hsorted, ofList_eq_of_perm hright hperm]

omit [Std.TransOrd κ] [Std.LawfulEqOrd κ] in
theorem find?_append {key : κ} {left right : List (κ × β)} :
    find? key (left ++ right) = (find? key left).or (find? key right) := by
  induction left with
  | nil => rfl
  | cons entry rest ih =>
      rw [List.cons_append, find?, find?, ih]
      split <;> rfl

/-- Of the pairs with one key the last is stored. -/
theorem find?_ofList {key : κ} {pairs : List (κ × β)} :
    find? key (ofList pairs) = find? key pairs.reverse := by
  have hfold : ∀ (pairs entries : List (κ × β)),
      find? key (pairs.foldl (fun entries pair => insert pair.1 pair.2 entries) entries) =
        (find? key pairs.reverse).or (find? key entries) := by
    intro pairs
    induction pairs with
    | nil => exact fun _ => rfl
    | cons pair rest ih =>
        intro entries
        rw [List.foldl_cons, ih, find?_insert, List.reverse_cons, find?_append, Option.or_assoc]
        congr 1
        rw [find?]
        split <;> rfl
  rw [ofList, hfold]
  exact Option.or_none

theorem mem_keys_ofList {key : κ} {pairs : List (κ × β)} :
    key ∈ (ofList pairs).map Prod.fst ↔ key ∈ pairs.map Prod.fst := by
  have habsent : find? key (ofList pairs) = none ↔ find? key pairs.reverse = none := by
    rw [find?_ofList]
  rw [find?_eq_none_iff, find?_eq_none_iff, List.map_reverse, List.mem_reverse] at habsent
  exact not_iff_not.mp habsent

omit [Std.TransOrd κ] in
/-- Where no key occurs twice, every pair is found. -/
theorem find?_of_nodup {pair : κ × β} {pairs : List (κ × β)}
    (hnodup : (pairs.map Prod.fst).Nodup) (hmem : pair ∈ pairs) :
    find? pair.1 pairs = some pair.2 := by
  induction pairs with
  | nil => cases hmem
  | cons head rest ih =>
      obtain ⟨hhead, hrest⟩ := List.nodup_cons.mp hnodup
      rw [find?]
      rcases List.mem_cons.mp hmem with rfl | htail
      · rw [if_pos Std.ReflCmp.compare_self]
      · rw [if_neg, ih hrest htail]
        intro heq
        exact hhead (Std.LawfulEqOrd.eq_of_compare heq ▸ List.mem_map_of_mem htail)

omit [Std.TransOrd κ] in
theorem erase_of_find?_eq_none {key : κ} {entries : List (κ × β)}
    (habsent : find? key entries = none) : erase key entries = entries := by
  have hkey : key ∉ entries.map Prod.fst := find?_eq_none_iff.mp habsent
  apply List.filter_eq_self.mpr
  intro entry hmem
  rw [bne_iff_ne]
  intro heq
  exact hkey (Std.LawfulEqOrd.eq_of_compare heq ▸ List.mem_map_of_mem hmem)

/-- What is stored takes the place of what was stored under its key. -/
theorem insert_perm_erase {key : κ} {value : β} {entries : List (κ × β)}
    (hascending : Ascending entries) :
    (insert key value entries).Perm ((key, value) :: erase key entries) := by
  induction entries with
  | nil => exact .refl _
  | cons entry rest ih =>
      have hrest : ∀ other ∈ rest, compare entry.1 other.1 = .lt :=
        fun _ hmem => List.rel_of_pairwise_cons hascending hmem
      rw [insert]
      split
      · rename_i hlt
        rw [erase_of_find?_eq_none]
        apply find?_eq_none_of_lt
        exact List.forall_mem_cons.mpr
          ⟨hlt, fun other hmem => Std.TransCmp.lt_trans hlt (hrest other hmem)⟩
      · rename_i heq
        have hkey : key = entry.1 := Std.LawfulEqOrd.eq_of_compare heq
        have herase : erase key (entry :: rest) = erase key rest :=
          List.filter_cons_of_neg (by simp [heq])
        rw [herase, erase_of_find?_eq_none (find?_eq_none_of_lt (hkey ▸ hrest))]
      · rename_i hgt
        have herase : erase key (entry :: rest) = entry :: erase key rest :=
          List.filter_cons_of_pos (by simp [hgt])
        rw [herase]
        exact ((ih hascending.of_cons).cons entry).trans (.swap _ _ _)

/-- Entries are what is found under a key and what stands under the others. -/
theorem perm_erase {key : κ} {value : β} {entries : List (κ × β)}
    (hascending : Ascending entries) (hfound : find? key entries = some value) :
    entries.Perm ((key, value) :: erase key entries) := by
  have hinsert : insert key value entries = entries := by
    apply eq_of_find?_eq (ascending_insert hascending) hascending
    intro other
    rw [find?_insert]
    split
    · rename_i heq
      rw [Std.LawfulEqOrd.eq_of_compare heq, hfound]
    · rfl
  calc
    entries.Perm (insert key value entries) := .of_eq hinsert.symm
    (insert key value entries).Perm _ := insert_perm_erase hascending

variable [DecidableEq κ]

theorem find?_insert_eq_ite {key key' : κ} {value : β} {entries : List (κ × β)} :
    find? key' (insert key value entries) =
      if key' = key then some value else find? key' entries := by
  simp only [find?_insert, Std.LawfulEqOrd.compare_eq_iff_eq]

theorem find?_insertIfNew_of_ne {key key' : κ} {value : β} {entries : List (κ × β)}
    (hne : key' ≠ key) : find? key' (insertIfNew key value entries) = find? key' entries := by
  rw [insertIfNew]
  split
  · rfl
  · rw [find?_insert_eq_ite, if_neg hne]

/-- As many entries are stored as there are keys. -/
theorem length_ofList {pairs : List (κ × β)} :
    (ofList pairs).length = (pairs.map Prod.fst).dedup.length := by
  have hkeys : ((ofList pairs).map Prod.fst).Perm (pairs.map Prod.fst).dedup := by
    refine (List.perm_ext_iff_of_nodup (nodup_keys (ascending_ofList pairs))
      (List.nodup_dedup _)).mpr fun key => ?_
    rw [mem_keys_ofList, List.mem_dedup]
  rw [← hkeys.length_eq, List.length_map]

theorem find?_erase_eq_ite {key key' : κ} {entries : List (κ × β)} :
    find? key' (erase key entries) = if key' = key then none else find? key' entries := by
  simp only [find?_erase, Std.LawfulEqOrd.compare_eq_iff_eq]

end LookUp

/-- The same keys on both sides, and related values under each. -/
def Related (R : κ → β → γ → Prop) (left : List (κ × β)) (right : List (κ × γ)) : Prop :=
  ∀ key, Option.Rel (R key) (find? key left) (find? key right)

/-- Two entries of one key with related values. -/
def SameKey (R : κ → β → γ → Prop) (left : κ × β) (right : κ × γ) : Prop :=
  right.1 = left.1 ∧ R left.1 left.2 right.2

namespace Related

variable {R : κ → β → γ → Prop} {left : List (κ × β)} {right : List (κ × γ)}

theorem exists_right {key : κ} {value : β} (hrelated : Related R left right)
    (hfound : find? key left = some value) :
    ∃ value', find? key right = some value' ∧ R key value value' := by
  have hkey := hrelated key
  rw [hfound] at hkey
  cases hright : find? key right with
  | none =>
      rw [hright] at hkey
      cases hkey
  | some value' =>
      rw [hright, Option.rel_some_some] at hkey
      exact ⟨value', rfl, hkey⟩

theorem exists_left {key : κ} {value' : γ} (hrelated : Related R left right)
    (hfound : find? key right = some value') :
    ∃ value, find? key left = some value ∧ R key value value' := by
  have hkey := hrelated key
  rw [hfound] at hkey
  cases hleft : find? key left with
  | none =>
      rw [hleft] at hkey
      cases hkey
  | some value =>
      rw [hleft, Option.rel_some_some] at hkey
      exact ⟨value, rfl, hkey⟩

theorem find?_eq_none {key : κ} (hrelated : Related R left right)
    (habsent : find? key left = none) : find? key right = none := by
  cases hright : find? key right with
  | none => rfl
  | some value' =>
      obtain ⟨value, hleft, -⟩ := hrelated.exists_left hright
      rw [habsent] at hleft
      cases hleft

end Related

section Places

variable [Std.TransOrd κ] [Std.LawfulEqOrd κ] {R : κ → β → γ → Prop}

/-- The first of ascending entries is the first on both sides. -/
theorem Related.head_eq {key key' : κ} {value : β} {value' : γ}
    {left : List (κ × β)} {right : List (κ × γ)}
    (hleft : Ascending ((key, value) :: left)) (hright : Ascending ((key', value') :: right))
    (hrelated : Related R ((key, value) :: left) ((key', value') :: right)) : key' = key := by
  obtain ⟨found, hfound, -⟩ := hrelated.exists_right (find?_of_mem hleft List.mem_cons_self)
  obtain ⟨found', hfound', -⟩ := hrelated.exists_left (find?_of_mem hright List.mem_cons_self)
  rcases List.mem_cons.mp (mem_of_find? hfound) with heq | hmem
  · exact (congrArg Prod.fst heq).symm
  · rcases List.mem_cons.mp (mem_of_find? hfound') with heq | hmem'
    · exact congrArg Prod.fst heq
    · have hlt : compare key' key = .lt := List.rel_of_pairwise_cons hright hmem
      have hgt : compare key key' = .lt := List.rel_of_pairwise_cons hleft hmem'
      rw [Std.OrientedCmp.gt_of_lt hlt] at hgt
      cases hgt

omit [Std.TransOrd κ] in
theorem Related.tail {key : κ} {value : β} {value' : γ}
    {left : List (κ × β)} {right : List (κ × γ)}
    (hleft : Ascending ((key, value) :: left)) (hright : Ascending ((key, value') :: right))
    (hrelated : Related R ((key, value) :: left) ((key, value') :: right)) :
    Related R left right := by
  intro other
  by_cases heq : compare other key = .eq
  · have hsame : other = key := Std.LawfulEqOrd.eq_of_compare heq
    subst other
    rw [find?_eq_none_of_lt fun _ hmem => List.rel_of_pairwise_cons hleft hmem,
      find?_eq_none_of_lt fun _ hmem => List.rel_of_pairwise_cons hright hmem]
    exact .none
  · have hother := hrelated other
    rwa [find?, find?, if_neg heq, if_neg heq] at hother

/-- Look-ups fix the places of entries in order. -/
theorem Related.forall₂ {left : List (κ × β)} {right : List (κ × γ)}
    (hleft : Ascending left) (hright : Ascending right) (hrelated : Related R left right) :
    List.Forall₂ (SameKey R) left right := by
  induction left generalizing right with
  | nil =>
      cases right with
      | nil => exact .nil
      | cons entry' right =>
          obtain ⟨_, hfound, -⟩ :=
            hrelated.exists_left (find?_of_mem hright List.mem_cons_self)
          cases hfound
  | cons entry left ih =>
      cases right with
      | nil =>
          obtain ⟨_, hfound, -⟩ :=
            hrelated.exists_right (find?_of_mem hleft List.mem_cons_self)
          cases hfound
      | cons entry' right =>
          obtain ⟨key, value⟩ := entry
          obtain ⟨key', value'⟩ := entry'
          have hkeys := hrelated.head_eq hleft hright
          subst key'
          have hvalues := hrelated key
          rw [find?_of_mem hleft List.mem_cons_self,
            find?_of_mem hright List.mem_cons_self, Option.rel_some_some] at hvalues
          exact .cons ⟨rfl, hvalues⟩
            (ih hleft.of_cons hright.of_cons (hrelated.tail hleft hright))

end Places

theorem related_of_forall₂ {R : κ → β → γ → Prop} [Std.LawfulEqOrd κ]
    {left : List (κ × β)} {right : List (κ × γ)}
    (hplaces : List.Forall₂ (SameKey R) left right) : Related R left right := by
  intro key
  induction hplaces with
  | nil => exact .none
  | cons hhead _ ih =>
      obtain ⟨hkeys, hvalues⟩ := hhead
      rw [find?, find?, hkeys]
      split
      · rename_i heq
        rw [Std.LawfulEqOrd.eq_of_compare heq, Option.rel_some_some]
        exact hvalues
      · exact ih

omit [Ord κ] in
theorem keys_eq_of_forall₂ {R : κ → β → γ → Prop} {left : List (κ × β)}
    {right : List (κ × γ)} (hplaces : List.Forall₂ (SameKey R) left right) :
    right.map Prod.fst = left.map Prod.fst := by
  induction hplaces with
  | nil => rfl
  | cons hhead _ ih => rw [List.map_cons, List.map_cons, hhead.1, ih]

omit [Ord κ] in
theorem traverse_eq_ok_iff {ε : Type w} {f : κ → β → Except ε γ} {entries : List (κ × β)}
    {entries' : List (κ × γ)} :
    traverse f entries = .ok entries' ↔
      List.Forall₂ (SameKey fun key value value' => f key value = .ok value')
        entries entries' := by
  induction entries generalizing entries' with
  | nil => cases entries' <;> simp [traverse]
  | cons entry rest ih =>
      cases hhead : f entry.1 entry.2 with
      | error e => cases entries' <;> simp [traverse, SameKey, hhead]
      | ok value =>
          cases htail : traverse f rest with
          | error e => cases entries' <;> simp [traverse, hhead, htail, ← ih]
          | ok values =>
              cases entries' with
              | nil => simp [traverse, hhead, htail]
              | cons entry' rest' =>
                  simp [traverse, SameKey, hhead, htail, ← ih, Prod.ext_iff, eq_comm, and_assoc]

omit [Ord κ] in
/-- Replacing all values fails only if replacing one of them does. -/
theorem exists_of_traverse_eq_error {ε : Type w} {f : κ → β → Except ε γ}
    {entries : List (κ × β)} {e : ε} (hfails : traverse f entries = .error e) :
    ∃ entry ∈ entries, f entry.1 entry.2 = .error e := by
  induction entries with
  | nil => cases hfails
  | cons entry rest ih =>
      rw [traverse] at hfails
      split at hfails
      · rename_i hentry
        cases hfails
        exact ⟨entry, List.mem_cons_self, hentry⟩
      · split at hfails
        · rename_i hrest
          cases hfails
          obtain ⟨other, hmem, hother⟩ := ih hrest
          exact ⟨other, List.mem_cons_of_mem _ hmem, hother⟩
        · cases hfails

end Entries

namespace SortedMap

variable {κ : Type u} {β : Type v} [Ord κ] {map : SortedMap κ β}

theorem exists_of_traverse_eq_error {γ ε : Type w} {f : κ → β → Except ε γ} {e : ε}
    (hfails : map.traverse f = .error e) : ∃ entry ∈ map.entries, f entry.1 entry.2 = .error e := by
  rw [traverse] at hfails
  split at hfails
  · rename_i hentries
    cases hfails
    exact Entries.exists_of_traverse_eq_error hentries
  · cases hfails

theorem mem_keys_filter {keep : κ → β → Bool} {key : κ} :
    key ∈ (map.filter keep).keys ↔ ∃ value, (key, value) ∈ map.entries ∧ keep key value := by
  simp [keys, filter]

theorem lastKey?_isSome_of_mem {key : κ} (hmem : key ∈ map.keys) : map.lastKey?.isSome := by
  rw [lastKey?, List.getLast?_isSome]
  exact List.ne_nil_of_mem hmem

variable [Std.TransOrd κ] [Std.LawfulEqOrd κ]

theorem contains_iff_mem_keys {key : κ} : map.contains key ↔ key ∈ map.keys := by
  simp only [contains, keys, List.mem_map, Option.isSome_iff_exists, ← mem_entries_iff]
  constructor
  · rintro ⟨value, hmem⟩
    exact ⟨(key, value), hmem, rfl⟩
  · rintro ⟨entry, hmem, rfl⟩
    exact ⟨entry.2, hmem⟩

theorem get?_insert_eq_ite [DecidableEq κ] {key key' : κ} {value : β} :
    (map.insert key value).get? key' = if key' = key then some value else map.get? key' := by
  rw [get?_insert]
  simp only [Std.LawfulEqOrd.compare_eq_iff_eq]

theorem get?_erase_eq_ite [DecidableEq κ] {key key' : κ} :
    (map.erase key).get? key' = if key' = key then none else map.get? key' :=
  Entries.find?_erase_eq_ite

theorem get?_filter_eq_some_iff {keep : κ → β → Bool} {key : κ} {value : β} :
    (map.filter keep).get? key = some value ↔ map.get? key = some value ∧ keep key value := by
  rw [← mem_entries_iff, ← mem_entries_iff]
  exact List.mem_filter

omit [Std.TransOrd κ] in
theorem get?_mapValues {γ : Type w} {f : κ → β → γ} {key : κ} :
    (map.mapValues f).get? key = (map.get? key).map (f key) := by
  obtain ⟨entries, hascending⟩ := map
  induction entries with
  | nil => rfl
  | cons entry rest ih =>
      simp only [get?, mapValues, List.map_cons, Entries.find?] at ih ⊢
      split
      · rename_i heq
        rw [Std.LawfulEqOrd.eq_of_compare heq]
        rfl
      · exact ih hascending.of_cons

/-- Of the pairs with one key the last is stored. -/
theorem get?_ofList {key : κ} {pairs : List (κ × β)} :
    (ofList pairs).get? key = Entries.find? key pairs.reverse :=
  Entries.find?_ofList

theorem ofList_entries (map : SortedMap κ β) : ofList map.entries = map :=
  ext (Entries.ofList_eq_of_perm map.ascending (.refl _))

/-- Pairs that are related place by place are stored related key by key. -/
theorem related_ofList {γ : Type w} {R : κ → β → γ → Prop} {left : List (κ × β)}
    {right : List (κ × γ)} (hplaces : List.Forall₂ (Entries.SameKey R) left right) (key : κ) :
    Option.Rel (R key) ((ofList left).get? key) ((ofList right).get? key) := by
  rw [get?_ofList, get?_ofList]
  exact Entries.related_of_forall₂ (List.forall₂_reverse_iff.mpr hplaces) key

/-- Where no key occurs twice, every pair is stored. -/
theorem get?_ofList_of_mem {pairs : List (κ × β)} (hnodup : (pairs.map Prod.fst).Nodup)
    {key : κ} {value : β} (hmem : (key, value) ∈ pairs) :
    (ofList pairs).get? key = some value := by
  have hreverse : (pairs.reverse.map Prod.fst).Nodup := by
    rw [List.map_reverse, List.nodup_reverse]
    exact hnodup
  rw [get?_ofList]
  exact Entries.find?_of_nodup hreverse (List.mem_reverse.mpr hmem)

/-- The keys alone tell how much is stored. -/
theorem size_ofList_eq_of_keys [DecidableEq κ] {γ : Type w} {left : List (κ × β)}
    {right : List (κ × γ)} (hkeys : right.map Prod.fst = left.map Prod.fst) :
    (ofList right).size = (ofList left).size := by
  have hleft : (ofList left).size = (left.map Prod.fst).dedup.length := Entries.length_ofList
  have hright : (ofList right).size = (right.map Prod.fst).dedup.length := Entries.length_ofList
  rw [hleft, hright, hkeys]

/-- Every pair has a place of its own just when no key occurs twice. -/
theorem size_ofList_eq_length_iff [DecidableEq κ] {pairs : List (κ × β)} :
    (ofList pairs).size = pairs.length ↔ (pairs.map Prod.fst).Nodup := by
  have hsize : (ofList pairs).size = (pairs.map Prod.fst).dedup.length := Entries.length_ofList
  rw [hsize, ← List.dedup_eq_self, ← List.length_map Prod.fst]
  exact ⟨(List.dedup_sublist _).eq_of_length, congrArg List.length⟩

/-- What `upper` stores wins. -/
theorem get?_union {upper : SortedMap κ β} {key : κ} :
    (map.union upper).get? key = (upper.get? key).or (map.get? key) := by
  obtain ⟨entries, hascending⟩ := upper
  simp only [union]
  induction entries generalizing map with
  | nil => rfl
  | cons entry rest ih =>
      rw [List.foldl_cons, ih hascending.of_cons, get?_insert]
      simp only [get?, Entries.find?]
      split
      · rename_i heq
        rw [Std.LawfulEqOrd.eq_of_compare heq,
          Entries.find?_eq_none_of_lt fun _ hmem => List.rel_of_pairwise_cons hascending hmem]
        rfl
      · rfl

omit [Std.TransOrd κ] in
theorem get?_of_traverse {γ ε : Type w} {f : κ → β → Except ε γ}
    {map' : SortedMap κ γ} {key : κ} (htraverse : map.traverse f = .ok map') :
    Option.Rel (fun value value' => f key value = .ok value') (map.get? key)
      (map'.get? key) := by
  rw [traverse] at htraverse
  split at htraverse
  · cases htraverse
  · rename_i hentries
    cases htraverse
    exact Entries.related_of_forall₂ (Entries.traverse_eq_ok_iff.mp hentries) key

/-- The last key is the greatest one. -/
theorem lastKey?_eq_some_iff {key : κ} :
    map.lastKey? = some key ↔
      key ∈ map.keys ∧ ∀ key' ∈ map.keys, (compare key' key).isLE := by
  have hgreatest : ∀ {last : κ}, map.lastKey? = some last →
      last ∈ map.keys ∧ ∀ key' ∈ map.keys, (compare key' last).isLE := by
    intro last hlast
    obtain ⟨before, hkeys⟩ := List.getLast?_eq_some_iff.mp hlast
    have hascending := Entries.ascending_iff_keys.mp map.ascending
    rw [← keys, hkeys] at hascending
    rw [hkeys]
    refine ⟨List.mem_append_right _ List.mem_cons_self, fun key' hmem => ?_⟩
    rcases List.mem_append.mp hmem with hbefore | hlast
    · rw [(List.pairwise_append.mp hascending).2.2 key' hbefore last List.mem_cons_self]
      rfl
    · rw [List.mem_singleton.mp hlast]
      exact Std.ReflCmp.isLE_rfl
  refine ⟨hgreatest, fun ⟨hmem, hmax⟩ => ?_⟩
  obtain ⟨last, hlast⟩ := Option.isSome_iff_exists.mp (lastKey?_isSome_of_mem hmem)
  obtain ⟨hlastMem, hlastMax⟩ := hgreatest hlast
  have hsame : compare last key = .eq :=
    Std.OrientedCmp.isLE_antisymm (hmax last hlastMem) (hlastMax key hmem)
  rw [hlast, Std.LawfulEqOrd.eq_of_compare hsame]

/-- The last of the keys that are kept is the greatest of them. -/
theorem lastKey?_filter_eq_some_iff {keep : κ → Bool} {key : κ} :
    (map.filter fun key _ => keep key).lastKey? = some key ↔
      map.contains key ∧ keep key ∧
        ∀ key', map.contains key' → keep key' → (compare key' key).isLE := by
  have hkeys : ∀ key', key' ∈ (map.filter fun key _ => keep key).keys ↔
      map.contains key' ∧ keep key' := by
    intro key'
    rw [mem_keys_filter, contains_iff_mem_keys]
    simp [keys]
  simp only [lastKey?_eq_some_iff, hkeys, and_imp, and_assoc]

omit [Std.LawfulEqOrd κ] in
/-- The first entry is the one with the least key. -/
theorem exists_head?_of_mem {entry : κ × β} (hmem : entry ∈ map.entries) :
    ∃ first, map.entries.head? = some first ∧ first ∈ map.entries ∧
      ∀ entry ∈ map.entries, (compare first.1 entry.1).isLE := by
  obtain ⟨entries, hascending⟩ := map
  cases entries with
  | nil => cases hmem
  | cons first rest =>
      refine ⟨first, rfl, List.mem_cons_self, List.forall_mem_cons.mpr ⟨Std.ReflCmp.isLE_rfl, ?_⟩⟩
      intro entry hrest
      rw [List.rel_of_pairwise_cons hascending hrest]
      rfl

end SortedMap

end RemoteCall
