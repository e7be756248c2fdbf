/-!
# Maps sorted by key

A `SortedMap` is a list of key-value pairs whose keys ascend strictly.  The
order is part of the type, so two maps with the same look-ups are equal, and
walking a map visits its keys in order.

The operations on the underlying lists live in the namespace `Entries`.  They
are also used directly where a map occurs inside a recursive type and cannot
carry a proof about itself.
-/

namespace RemoteCall

universe u v w

namespace Entries

variable {κ : Type u} {β : Type v} {γ : Type w} [Ord κ]

/-- Keys ascend strictly, so no key occurs twice. -/
def Ascending (entries : List (κ × β)) : Prop :=
  entries.Pairwise fun left right => compare left.1 right.1 = .lt

/-- The value stored under `key`. -/
def find? (key : κ) : List (κ × β) → Option β
  | [] => none
  | entry :: rest => if compare key entry.1 = .eq then some entry.2 else find? key rest

/-- Store `value` under `key` at the key's place in the order, replacing what
was stored there. -/
def insert (key : κ) (value : β) : List (κ × β) → List (κ × β)
  | [] => [(key, value)]
  | entry :: rest =>
    match compare key entry.1 with
    | .lt => (key, value) :: entry :: rest
    | .eq => (key, value) :: rest
    | .gt => entry :: insert key value rest

def erase (key : κ) (entries : List (κ × β)) : List (κ × β) :=
  entries.filter fun entry => compare key entry.1 != .eq

/-- Store `value` under `key` unless something is stored there already. -/
def insertIfNew (key : κ) (value : β) (entries : List (κ × β)) : List (κ × β) :=
  match find? key entries with
  | some _ => entries
  | none => insert key value entries

/-- Store every pair in turn; of two pairs with one key the later wins. -/
def ofList (pairs : List (κ × β)) : List (κ × β) :=
  pairs.foldl (fun entries pair => insert pair.1 pair.2 entries) []

theorem ascending_nil : Ascending ([] : List (κ × β)) := List.Pairwise.nil

theorem insert_ne_nil {key : κ} {value : β} {entries : List (κ × β)} :
    insert key value entries ≠ [] := by
  cases entries with
  | nil => exact List.cons_ne_nil _ _
  | cons head rest =>
    rw [insert]
    split <;> exact List.cons_ne_nil _ _

theorem mem_insert {key : κ} {value : β} {entry : κ × β} {entries : List (κ × β)}
    (h : entry ∈ insert key value entries) : entry = (key, value) ∨ entry ∈ entries := by
  induction entries with
  | nil => simpa [insert] using h
  | cons head rest ih =>
    rw [insert] at h
    split at h
    · simpa using h
    · simp only [List.mem_cons] at h ⊢
      exact h.elim Or.inl fun h => Or.inr (Or.inr h)
    · simp only [List.mem_cons] at h ⊢
      exact h.elim (fun h => Or.inr (Or.inl h)) fun h => (ih h).imp_right Or.inr

theorem ascending_insert [Std.TransOrd κ] [Std.LawfulEqOrd κ] {key : κ} {value : β}
    {entries : List (κ × β)} (h : Ascending entries) :
    Ascending (insert key value entries) := by
  induction entries with
  | nil => exact List.pairwise_singleton _ _
  | cons head rest ih =>
    have head_lt : ∀ {entry}, entry ∈ rest → compare head.1 entry.1 = .lt :=
      fun mem => List.rel_of_pairwise_cons h mem
    rw [insert]
    split
    · rename_i lt
      refine List.Pairwise.cons (fun entry mem => ?_) h
      rcases List.mem_cons.mp mem with rfl | mem
      · exact lt
      · exact Std.TransCmp.lt_trans lt (head_lt mem)
    · rename_i eq
      have same : key = head.1 := Std.LawfulEqOrd.eq_of_compare eq
      exact List.Pairwise.cons (fun entry mem => same ▸ head_lt mem) h.of_cons
    · rename_i gt
      refine List.Pairwise.cons (fun entry mem => ?_) (ih h.of_cons)
      rcases mem_insert mem with rfl | mem
      · exact Std.OrientedCmp.lt_of_gt gt
      · exact head_lt mem

theorem ascending_filter {entries : List (κ × β)} (keep : κ × β → Bool)
    (h : Ascending entries) : Ascending (entries.filter keep) :=
  List.Pairwise.filter keep h

theorem ascending_ofList [Std.TransOrd κ] [Std.LawfulEqOrd κ] (pairs : List (κ × β)) :
    Ascending (ofList pairs) := by
  have step : ∀ (pairs entries : List (κ × β)), Ascending entries →
      Ascending (pairs.foldl (fun entries pair => insert pair.1 pair.2 entries) entries) := by
    intro pairs
    induction pairs with
    | nil => exact fun _ h => h
    | cons pair rest ih => exact fun entries h => ih _ (ascending_insert h)
  exact step pairs [] ascending_nil

theorem find?_insert [Std.TransOrd κ] [Std.LawfulEqOrd κ] {key key' : κ} {value : β}
    {entries : List (κ × β)} :
    find? key' (insert key value entries) =
      if compare key' key = .eq then some value else find? key' entries := by
  induction entries with
  | nil => rfl
  | cons head rest ih =>
    rw [insert]
    split
    · rfl
    · rename_i eq
      have same : key = head.1 := Std.LawfulEqOrd.eq_of_compare eq
      simp only [find?, same]
      split <;> rfl
    · rename_i gt
      simp only [find?, ih]
      split
      · rename_i eq
        have same : key' = head.1 := Std.LawfulEqOrd.eq_of_compare eq
        rw [if_neg]
        intro eq'
        have same' : key' = key := Std.LawfulEqOrd.eq_of_compare eq'
        have self : compare head.1 head.1 = .eq := Std.ReflCmp.compare_self
        rw [← same', same, self] at gt
        cases gt
      · rfl

theorem find?_erase [Std.TransOrd κ] [Std.LawfulEqOrd κ] {key key' : κ}
    {entries : List (κ × β)} :
    find? key' (erase key entries) =
      if compare key' key = .eq then none else find? key' entries := by
  induction entries with
  | nil => simp [erase, find?]
  | cons head rest ih =>
    have skip : ∀ tail, find? key' (head :: tail) =
        if compare key' head.1 = .eq then some head.2 else find? key' tail := fun _ => rfl
    rw [skip]
    by_cases gone : compare key head.1 = .eq
    · have same : key = head.1 := Std.LawfulEqOrd.eq_of_compare gone
      have cut : erase key (head :: rest) = erase key rest := by simp [erase, gone]
      rw [cut, ih, same]
      split <;> rfl
    · have kept : erase key (head :: rest) = head :: erase key rest := by simp [erase, gone]
      rw [kept, skip, ih]
      by_cases here : compare key' head.1 = .eq
      · have same : key' = head.1 := Std.LawfulEqOrd.eq_of_compare here
        have other : ¬compare key' key = .eq := by
          intro eq
          apply gone
          rw [← Std.LawfulEqOrd.eq_of_compare eq]
          exact here
        simp [here, other]
      · simp [here]

/-- A key below all others is not stored. -/
theorem find?_eq_none_of_lt {key : κ} {entries : List (κ × β)}
    (h : ∀ entry ∈ entries, compare key entry.1 = .lt) : find? key entries = none := by
  induction entries with
  | nil => rfl
  | cons head rest ih =>
    have lt := h head List.mem_cons_self
    rw [find?, if_neg (by rw [lt]; decide)]
    exact ih fun entry mem => h entry (List.mem_cons_of_mem _ mem)

theorem mem_of_find? [Std.LawfulEqOrd κ] {key : κ} {value : β} {entries : List (κ × β)}
    (h : find? key entries = some value) : (key, value) ∈ entries := by
  induction entries with
  | nil => cases h
  | cons head rest ih =>
    rw [find?] at h
    split at h
    · rename_i eq
      cases h
      rw [Std.LawfulEqOrd.eq_of_compare eq]
      exact List.mem_cons_self
    · exact List.mem_cons_of_mem _ (ih h)

theorem find?_of_mem [Std.TransOrd κ] {entry : κ × β} {entries : List (κ × β)}
    (ascending : Ascending entries) (mem : entry ∈ entries) :
    find? entry.1 entries = some entry.2 := by
  induction entries with
  | nil => cases mem
  | cons head rest ih =>
    rw [find?]
    rcases List.mem_cons.mp mem with rfl | mem
    · rw [if_pos Std.ReflCmp.compare_self]
    · have lt : compare head.1 entry.1 = .lt := List.rel_of_pairwise_cons ascending mem
      have gt : compare entry.1 head.1 = .gt := Std.OrientedCmp.gt_of_lt lt
      rw [if_neg (by rw [gt]; decide)]
      exact ih ascending.of_cons mem

/-- Look-ups say all there is to say about entries in order. -/
theorem eq_of_find?_eq [Std.TransOrd κ] [Std.LawfulEqOrd κ] {left right : List (κ × β)}
    (ascendingLeft : Ascending left) (ascendingRight : Ascending right)
    (h : ∀ key, find? key left = find? key right) : left = right := by
  induction left generalizing right with
  | nil =>
    cases right with
    | nil => rfl
    | cons head rest =>
      have found := h head.1
      rw [find?_of_mem ascendingRight List.mem_cons_self] at found
      cases found
  | cons head rest ih =>
    have inRight := mem_of_find? ((h head.1).symm.trans
      (find?_of_mem ascendingLeft List.mem_cons_self))
    cases right with
    | nil => cases inRight
    | cons head' rest' =>
      have inLeft := mem_of_find? ((h head'.1).trans
        (find?_of_mem ascendingRight List.mem_cons_self))
      have same : head = head' := by
        rcases List.mem_cons.mp inRight with eq | mem
        · exact eq
        · rcases List.mem_cons.mp inLeft with eq | mem'
          · exact eq.symm
          · have lt : compare head'.1 head.1 = .lt := List.rel_of_pairwise_cons ascendingRight mem
            have lt' : compare head.1 head'.1 = .lt := List.rel_of_pairwise_cons ascendingLeft mem'
            rw [Std.OrientedCmp.gt_of_lt lt] at lt'
            cases lt'
      subst same
      have below : ∀ {entries : List (κ × β)}, Ascending (head :: entries) →
          find? head.1 entries = none := fun ascending =>
        find?_eq_none_of_lt fun _ mem => List.rel_of_pairwise_cons ascending mem
      rw [ih ascendingLeft.of_cons ascendingRight.of_cons fun key => ?_]
      by_cases eq : compare key head.1 = .eq
      · rw [Std.LawfulEqOrd.eq_of_compare eq, below ascendingLeft, below ascendingRight]
      · have tails := h key
        rwa [find?, find?, if_neg eq, if_neg eq] at tails

/-- The order of the entries is a matter of their keys alone. -/
theorem ascending_iff_keys {entries : List (κ × β)} :
    Ascending entries ↔
      (entries.map Prod.fst).Pairwise fun left right => compare left right = .lt := by
  rw [List.pairwise_map]
  rfl

theorem ascending_of_keys {entries : List (κ × β)} {entries' : List (κ × γ)}
    (keys : entries'.map Prod.fst = entries.map Prod.fst) (h : Ascending entries) :
    Ascending entries' := by
  rw [ascending_iff_keys, keys]
  exact ascending_iff_keys.mp h

/-- Replace the values by what `f` makes of them, in order; the first failure
is the answer. -/
def traverse {ε : Type w} (f : κ → β → Except ε γ) :
    List (κ × β) → Except ε (List (κ × γ))
  | [] => .ok []
  | entry :: rest =>
    match f entry.1 entry.2 with
    | .error e => .error e
    | .ok value =>
      match traverse f rest with
      | .error e => .error e
      | .ok values => .ok ((entry.1, value) :: values)

omit [Ord κ] in
theorem keys_of_traverse {ε : Type w} {f : κ → β → Except ε γ} {entries : List (κ × β)}
    {entries' : List (κ × γ)} (h : traverse f entries = .ok entries') :
    entries'.map Prod.fst = entries.map Prod.fst := by
  induction entries generalizing entries' with
  | nil =>
    rw [traverse] at h
    cases h
    rfl
  | cons entry rest ih =>
    rw [traverse] at h
    split at h
    · cases h
    · split at h
      · cases h
      · rename_i values tail
        cases h
        simp [ih tail]

end Entries

/-- A finite map with its keys in strictly ascending order. -/
structure SortedMap (κ : Type u) (β : Type v) [Ord κ] where
  entries : List (κ × β)
  ascending : Entries.Ascending entries

namespace SortedMap

variable {κ : Type u} {β : Type v} {γ : Type w} [Ord κ]

@[ext]
theorem ext {left right : SortedMap κ β} (h : left.entries = right.entries) :
    left = right := by
  cases left
  cases right
  cases h
  rfl

def empty : SortedMap κ β := ⟨[], Entries.ascending_nil⟩

instance : Inhabited (SortedMap κ β) := ⟨empty⟩

instance : EmptyCollection (SortedMap κ β) := ⟨empty⟩

/-- The value stored under `key`. -/
def get? (map : SortedMap κ β) (key : κ) : Option β := Entries.find? key map.entries

@[simp]
theorem get?_empty {key : κ} : (empty : SortedMap κ β).get? key = none := rfl

/-- Whether something is stored under `key`. -/
def contains (map : SortedMap κ β) (key : κ) : Bool := (map.get? key).isSome

/-- Stored keys, ascending. -/
def keys (map : SortedMap κ β) : List κ := map.entries.map Prod.fst

/-- Stored values, in the order of their keys. -/
def values (map : SortedMap κ β) : List β := map.entries.map Prod.snd

def size (map : SortedMap κ β) : Nat := map.entries.length

def isEmpty (map : SortedMap κ β) : Bool := map.entries.isEmpty

/-- The greatest key. -/
def lastKey? (map : SortedMap κ β) : Option κ := map.keys.getLast?

def filter (keep : κ → β → Bool) (map : SortedMap κ β) : SortedMap κ β :=
  ⟨map.entries.filter fun entry => keep entry.1 entry.2,
    Entries.ascending_filter _ map.ascending⟩

def erase (map : SortedMap κ β) (key : κ) : SortedMap κ β :=
  ⟨Entries.erase key map.entries, Entries.ascending_filter _ map.ascending⟩

/-- Replace every value by `f` of its key and itself. -/
def mapValues (f : κ → β → γ) (map : SortedMap κ β) : SortedMap κ γ :=
  ⟨map.entries.map fun entry => (entry.1, f entry.1 entry.2),
    Entries.ascending_of_keys (by simp) map.ascending⟩

/-- Replace the values by what `f` makes of them, in the order of the keys; the
first failure is the answer. -/
def traverse {ε : Type w} (f : κ → β → Except ε γ) (map : SortedMap κ β) :
    Except ε (SortedMap κ γ) :=
  match h : Entries.traverse f map.entries with
  | .error e => .error e
  | .ok entries =>
    .ok ⟨entries, Entries.ascending_of_keys (Entries.keys_of_traverse h) map.ascending⟩

section
variable [Std.TransOrd κ] [Std.LawfulEqOrd κ]

/-- Store `value` under `key`, replacing what was stored there. -/
def insert (map : SortedMap κ β) (key : κ) (value : β) : SortedMap κ β :=
  ⟨Entries.insert key value map.entries, Entries.ascending_insert map.ascending⟩

@[simp]
theorem get?_insert {map : SortedMap κ β} {key key' : κ} {value : β} :
    (map.insert key value).get? key' =
      if compare key' key = .eq then some value else map.get? key' :=
  Entries.find?_insert

@[simp]
theorem get?_erase {map : SortedMap κ β} {key key' : κ} :
    (map.erase key).get? key' = if compare key' key = .eq then none else map.get? key' :=
  Entries.find?_erase

theorem mem_entries_iff {map : SortedMap κ β} {key : κ} {value : β} :
    (key, value) ∈ map.entries ↔ map.get? key = some value :=
  ⟨fun mem => Entries.find?_of_mem map.ascending mem, Entries.mem_of_find?⟩

/-- Two maps with the same look-ups are equal. -/
theorem ext_get? {left right : SortedMap κ β} (h : ∀ key, left.get? key = right.get? key) :
    left = right :=
  ext (Entries.eq_of_find?_eq left.ascending right.ascending h)

/-- Store every pair in turn; of two pairs with one key the later wins. -/
def ofList (pairs : List (κ × β)) : SortedMap κ β :=
  ⟨Entries.ofList pairs, Entries.ascending_ofList pairs⟩

/-- Store every pair of `upper`, which win over what `map` stores. -/
def union (map upper : SortedMap κ β) : SortedMap κ β :=
  upper.entries.foldl (fun map entry => map.insert entry.1 entry.2) map

end

end SortedMap

/-- A finite set of keys, ascending. -/
abbrev SortedSet (κ : Type u) [Ord κ] := SortedMap κ Unit

namespace SortedSet

def ofKeys {κ : Type u} [Ord κ] [Std.TransOrd κ] [Std.LawfulEqOrd κ] (keys : List κ) :
    SortedSet κ :=
  SortedMap.ofList (keys.map fun key => (key, ()))

end SortedSet

end RemoteCall
