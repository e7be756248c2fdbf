import Mathlib.Data.Bool.AllAny
import RemoteCall.Proofs.Json.Canonical

/-!
# Texts without null

Whether a text has a null in it is a matter of what stands outside of its string literals,
for within them the word is no more than four letters.  In the text of a tree a null stands
for the leaves of the tree that are null, and for those that JSON has no form for.  Where
there are no such leaves, there is none.
-/

namespace RemoteCall.Json

variable {text rest : List Char} {c : Char}

/-! ## Outside of string literals -/

mutual

/-- A text without what its string literals hold. -/
def unquoted : List Char → List Char
  | [] => []
  | '"' :: rest => '"' :: afterMark rest
  | c :: rest => c :: unquoted rest

/-- A text that goes on after the opening mark of a string literal, without what its
string literals hold. -/
def afterMark : List Char → List Char
  | [] => []
  | '"' :: rest => '"' :: unquoted rest
  | '\\' :: _ :: rest => afterMark rest
  | _ :: rest => afterMark rest

end

/-- The word for null stands somewhere in a text outside of its string literals. -/
def HasNull (bytes : List UInt8) : Prop :=
  "null".toList <:+: unquoted (bytes.map fun byte => Char.ofNat byte.toNat)

instance (bytes : List UInt8) : Decidable (HasNull bytes) :=
  inferInstanceAs (Decidable (_ <:+: _))

example : HasNull "[0,null]".toUTF8.toList ∧ ¬ HasNull "[\"null\",\"\\\"null\"]".toUTF8.toList := by
  decide +kernel

theorem unquoted_cons (hmark : c ≠ '"') : unquoted (c :: rest) = c :: unquoted rest := by
  rw [unquoted]
  exact hmark

theorem afterMark_bare (hbare : IsBare c) : afterMark (c :: rest) = afterMark rest := by
  rw [afterMark]
  · exact hbare.2.1
  · exact fun _ _ hescape _ => hbare.2.2 hescape

theorem afterMark_bares {bares : List Char} (hbares : ∀ c ∈ bares, IsBare c) :
    afterMark (bares ++ rest) = afterMark rest := by
  induction bares with
  | nil => rfl
  | cons c bares ih =>
      obtain ⟨hc, hbares⟩ := List.forall_mem_cons.mp hbares
      rw [List.cons_append, afterMark_bare hc, ih hbares]

/-- The hexadecimal digits of a number stand for themselves in a literal. -/
theorem isBare_digit {n : Nat} (hlt : n < 16) :
    IsBare (Text.Hex.digit n) ∧ (Text.Hex.digit n).toNat < 0x80 := by
  have hdigits : ∀ n < 16, IsBare (Text.Hex.digit n) ∧ (Text.Hex.digit n).toNat < 0x80 := by
    unfold IsBare
    decide
  exact hdigits n hlt

/-- However a character is written in a literal, it stays within. -/
theorem afterMark_escape (c : Char) : afterMark (walked (escape c) ++ rest) = afterMark rest := by
  rcases escape_cases c with ⟨letter, hescape, hletter, -⟩ | ⟨hescape, hlt⟩ | ⟨hescape, hbare⟩
  · rw [hescape, walked_cons_of_ascii (by decide), walked_cons_of_ascii hletter, walked_nil]
    rfl
  · have hdigits : ∀ digit ∈ ['0', '0', Text.Hex.digit (c.toNat / 16),
        Text.Hex.digit (c.toNat % 16)], IsBare digit ∧ digit.toNat < 0x80 := by
      simp only [List.forall_mem_cons]
      exact ⟨isBare_digit (n := 0) (by decide), isBare_digit (n := 0) (by decide),
        isBare_digit (by omega), isBare_digit (by omega), List.forall_mem_nil _⟩
    -- The mark of a number is skipped like any letter, and then its digits are.
    have hskip : afterMark (['0', '0', Text.Hex.digit (c.toNat / 16),
        Text.Hex.digit (c.toNat % 16)] ++ rest) = afterMark rest :=
      afterMark_bares fun digit hmem => (hdigits digit hmem).1
    rw [hescape, walked_cons_of_ascii (by decide), walked_cons_of_ascii (by decide),
      walked_of_ascii fun digit hmem => (hdigits digit hmem).2]
    exact hskip
  · rw [hescape]
    exact afterMark_bares (Parser.isBare_of_mem_walked hbare)

theorem afterMark_quoted (letters : List Char) :
    afterMark (walked (letters.flatMap escape) ++ rest) = afterMark rest := by
  induction letters with
  | nil => rfl
  | cons c letters ih =>
      rw [List.flatMap_cons, walked_append, List.append_assoc, afterMark_escape, ih]

theorem unquoted_quote (s : String) (rest : List Char) :
    unquoted (walked (quote s) ++ rest) = ['"', '"'] ++ unquoted rest := by
  rw [walked_quote, List.cons_append, unquoted, List.append_assoc, afterMark_quoted]
  rfl

/-! ## Leaves -/

mutual

/-- What the tree has at its ends. -/
def leaves : Json → List Json
  | .arr items => leavesOfItems items
  | .obj members => leavesOfMembers members
  | leaf => [leaf]

def leavesOfItems : List Json → List Json
  | [] => []
  | item :: rest => leaves item ++ leavesOfItems rest

def leavesOfMembers : List (String × Json) → List Json
  | [] => []
  | (_, value) :: rest => leaves value ++ leavesOfMembers rest

end

theorem mem_leavesOfMembers_iff {members : List (String × Json)} {leaf : Json} :
    leaf ∈ leavesOfMembers members ↔ ∃ member ∈ members, leaf ∈ member.2.leaves := by
  induction members with
  | nil => simp [leavesOfMembers]
  | cons member rest ih => simp [leavesOfMembers, ih]

mutual

/-- Nothing comes in by the order of members. -/
theorem mem_leaves_of_canonical : ∀ (tree : Json) {leaf : Json},
    leaf ∈ (canonical tree).leaves → leaf ∈ tree.leaves
  | .null, _, hmem => hmem
  | .bool _, _, hmem => hmem
  | .int _, _, hmem => hmem
  | .float _, _, hmem => hmem
  | .str _, _, hmem => hmem
  | .unreadable, _, hmem => hmem
  | .arr items, _, hmem => mem_leavesOfItems_of_canonical items hmem
  | .obj members, leaf, hmem => by
      obtain ⟨member, harranged, hleaf⟩ := mem_leavesOfMembers_iff.mp hmem
      apply mem_leavesOfMembers_of_canonical members
      exact mem_leavesOfMembers_iff.mpr ⟨member, mem_of_mem_arrange harranged, hleaf⟩

theorem mem_leavesOfItems_of_canonical : ∀ (items : List Json) {leaf : Json},
    leaf ∈ leavesOfItems (canonicalItems items) → leaf ∈ leavesOfItems items
  | [], _, hmem => hmem
  | item :: rest, _, hmem => by
      rcases List.mem_append.mp hmem with hitem | hrest
      · exact List.mem_append_left _ (mem_leaves_of_canonical item hitem)
      · exact List.mem_append_right _ (mem_leavesOfItems_of_canonical rest hrest)

theorem mem_leavesOfMembers_of_canonical : ∀ (members : List (String × Json)) {leaf : Json},
    leaf ∈ leavesOfMembers (canonicalMembers members) → leaf ∈ leavesOfMembers members
  | [], _, hmem => hmem
  | (_, value) :: rest, _, hmem => by
      rcases List.mem_append.mp hmem with hvalue | hrest
      · exact List.mem_append_left _ (mem_leaves_of_canonical value hvalue)
      · exact List.mem_append_right _ (mem_leavesOfMembers_of_canonical rest hrest)

end

def asFloat? : Json → Option Binary64
  | .float x => some x
  | _ => none

mutual

/-- What JSON has no form for is looked for among the leaves, from the first to the last. -/
theorem nonFinite?_eq_find? : ∀ (tree : Json),
    tree.nonFinite? = (tree.leaves.filterMap asFloat?).find? fun x => !x.isFinite
  | .null => rfl
  | .bool _ => rfl
  | .int _ => rfl
  | .float x => by
      change (if x.isFinite then none else some x) = [x].find? fun x => !x.isFinite
      cases hfinite : x.isFinite <;> simp [hfinite]
  | .str _ => rfl
  | .unreadable => rfl
  | .arr items => nonFiniteItem?_eq_find? items
  | .obj members => nonFiniteMember?_eq_find? members

theorem nonFiniteItem?_eq_find? : ∀ (items : List Json),
    nonFiniteItem? items =
      ((leavesOfItems items).filterMap asFloat?).find? fun x => !x.isFinite
  | [] => rfl
  | item :: rest => by
      rw [nonFiniteItem?, leavesOfItems, List.filterMap_append, List.find?_append,
        nonFinite?_eq_find? item, nonFiniteItem?_eq_find? rest]

theorem nonFiniteMember?_eq_find? : ∀ (members : List (String × Json)),
    nonFiniteMember? members =
      ((leavesOfMembers members).filterMap asFloat?).find? fun x => !x.isFinite
  | [] => rfl
  | (_, value) :: rest => by
      rw [nonFiniteMember?, leavesOfMembers, List.filterMap_append, List.find?_append,
        nonFinite?_eq_find? value, nonFiniteMember?_eq_find? rest]

end

theorem isFinite_of_mem_leaves {tree : Json} (hfinite : tree.nonFinite? = none) {x : Binary64}
    (hmem : .float x ∈ tree.leaves) : x.isFinite := by
  rw [nonFinite?_eq_find?, List.find?_eq_none] at hfinite
  simpa using hfinite x (List.mem_filterMap.mpr ⟨.float x, hmem, rfl⟩)

/-- The leaf has a text that tells it from null. -/
def HasText : Json → Prop
  | .null => False
  | .unreadable => False
  | .float x => x.isFinite
  | _ => True

/-! ## Texts of numbers -/

/-- A character that neither opens a literal nor begins the word for null. -/
def IsPlain (c : Char) : Prop := c.toNat < 0x80 ∧ c ≠ '"' ∧ c ≠ 'n'

instance : DecidablePred IsPlain := fun c =>
  inferInstanceAs (Decidable (c.toNat < 0x80 ∧ c ≠ '"' ∧ c ≠ 'n'))

theorem forall_isPlain (hplain : text.all (IsPlain ·)) : ∀ c ∈ text, IsPlain c :=
  List.all_iff_forall_prop.mp hplain

theorem isPlain_of_isDigit (hdigit : c.isDigit) : IsPlain c := by
  refine ⟨toNat_lt_of_isDigit hdigit, ?_, ?_⟩ <;> rintro rfl <;> exact absurd hdigit (by decide)

theorem isPlain_toDigits (n : Nat) : ∀ c ∈ Nat.toDigits 10 n, IsPlain c := fun c hmem =>
  isPlain_of_isDigit (Parser.isDigit_of_mem_ofNat c hmem)

theorem isPlain_ofInt (n : Int) : ∀ c ∈ Text.Decimal.ofInt n, IsPlain c := by
  intro c hmem
  rcases isDigit_or_minus_of_mem_ofInt c hmem with hdigit | rfl
  · exact isPlain_of_isDigit hdigit
  · decide

section Layout

open Binary64

variable (layout : Layout) {digits : List Char} (n : Int)

theorem isPlain_positional (hdigits : ∀ c ∈ digits, IsPlain c) :
    ∀ c ∈ layout.positional digits n, IsPlain c := by
  have hzero : IsPlain '0' := by decide
  have hpoint : IsPlain '.' := by decide
  have hzeros : ∀ count, ∀ c ∈ List.replicate count '0', IsPlain c := fun count c hmem =>
    List.eq_of_mem_replicate hmem ▸ hzero
  have hwhole : ∀ c ∈ if layout.wholeSuffix then ['.', '0'] else [], IsPlain c := by
    split
    · exact List.forall_mem_cons.mpr ⟨hpoint, List.forall_mem_singleton.mpr hzero⟩
    · exact List.forall_mem_nil _
  unfold Layout.positional
  by_cases hbelow : n ≤ 0
  · rw [if_pos hbelow, List.forall_mem_append, List.forall_mem_cons, List.forall_mem_cons]
    exact ⟨⟨hzero, hpoint, hzeros _⟩, hdigits⟩
  · rw [if_neg hbelow]
    by_cases hshort : digits.length ≤ n.toNat
    · rw [if_pos hshort, List.forall_mem_append, List.forall_mem_append]
      exact ⟨⟨hdigits, hzeros _⟩, hwhole⟩
    · rw [if_neg hshort, List.forall_mem_append, List.forall_mem_cons]
      exact ⟨fun c hmem => hdigits c (List.mem_of_mem_take hmem), hpoint,
        fun c hmem => hdigits c (List.mem_of_mem_drop hmem)⟩

theorem isPlain_exponential (hdigits : ∀ c ∈ digits, IsPlain c) :
    ∀ c ∈ Layout.exponential digits n, IsPlain c := by
  have hsign : IsPlain (if n - 1 < 0 then '-' else '+') := by
    split <;> exact by decide
  have hpower : ∀ c ∈ 'e' :: (if n - 1 < 0 then '-' else '+') :: Nat.toDigits 10 (n - 1).natAbs,
      IsPlain c :=
    List.forall_mem_cons.mpr ⟨by decide,
      List.forall_mem_cons.mpr ⟨hsign, isPlain_toDigits _⟩⟩
  match digits with
  | [] => exact hpower
  | [d] => exact List.forall_mem_append.mpr ⟨hdigits, hpower⟩
  | d :: e :: rest =>
      obtain ⟨hd, hrest⟩ := List.forall_mem_cons.mp hdigits
      refine List.forall_mem_append.mpr ⟨List.forall_mem_cons.mpr ⟨hd, ?_⟩, hpower⟩
      exact List.forall_mem_cons.mpr ⟨by decide, hrest⟩

theorem isPlain_write (x : Binary64) : ∀ c ∈ layout.write x, IsPlain c := by
  have hdigits := isPlain_toDigits (Shortest.decimal x).digits
  unfold Layout.write
  extract_lets d digits n body
  have hbody : ∀ c ∈ body, IsPlain c := by
    unfold body
    split
    · exact isPlain_positional layout 1 hdigits
    · split
      · exact isPlain_positional layout n hdigits
      · exact isPlain_exponential n hdigits
  split
  · exact List.forall_mem_cons.mpr ⟨by decide, hbody⟩
  · exact hbody

end Layout

/-! ## Texts of trees -/

/-- The text shows the leaves: it closes the literals that it opens, and null stands in it
just if there is a leaf without a text of its own. -/
structure Shows (text : List Char) (leaves : List Json) : Prop where
  closed : ∀ rest, unquoted (walked text ++ rest) = unquoted (walked text) ++ unquoted rest
  /-- Outside of its literals it has not even a letter that null could begin with. -/
  clean : (∀ leaf ∈ leaves, leaf.HasText) → 'n' ∉ unquoted (walked text)
  null : ∀ leaf ∈ leaves, ¬ leaf.HasText → "null".toList <:+: unquoted (walked text)

variable {leaves leaves' : List Json}

theorem Shows.append {left right : List Char} (hleft : Shows left leaves)
    (hright : Shows right leaves') : Shows (left ++ right) (leaves ++ leaves') := by
  have hshown : unquoted (walked (left ++ right)) =
      unquoted (walked left) ++ unquoted (walked right) := by
    rw [walked_append, hleft.closed]
  refine ⟨fun rest => ?closed, ?clean, ?null⟩
  case closed =>
    calc
      unquoted (walked (left ++ right) ++ rest)
          = unquoted (walked left ++ (walked right ++ rest)) := by
            rw [walked_append, List.append_assoc]
      _ = unquoted (walked left) ++ (unquoted (walked right) ++ unquoted rest) := by
            rw [hleft.closed, hright.closed]
      _ = unquoted (walked (left ++ right)) ++ unquoted rest := by
            rw [hshown, List.append_assoc]
  case clean =>
    intro htexts
    obtain ⟨hleaves, hleaves'⟩ := List.forall_mem_append.mp htexts
    rw [hshown, List.mem_append, not_or]
    exact ⟨hleft.clean hleaves, hright.clean hleaves'⟩
  case null =>
    intro leaf hmem hnull
    rw [hshown]
    rcases List.mem_append.mp hmem with hmem | hmem
    · exact (hleft.null leaf hmem hnull).trans (List.prefix_append _ _).isInfix
    · exact (hright.null leaf hmem hnull).trans (List.suffix_append _ _).isInfix

/-- What opens no literal is shown as it is. -/
theorem unquoted_ascii (hascii : ∀ c ∈ text, c.toNat < 0x80 ∧ c ≠ '"') (rest : List Char) :
    unquoted (walked text ++ rest) = text ++ unquoted rest := by
  induction text with
  | nil => rfl
  | cons c text ih =>
      obtain ⟨⟨hlt, hmark⟩, htext⟩ := List.forall_mem_cons.mp hascii
      rw [walked_cons_of_ascii hlt, List.cons_append, unquoted_cons hmark, ih htext,
        List.cons_append]

theorem shows_of_unquoted {shown : List Char}
    (hshown : ∀ rest, unquoted (walked text ++ rest) = shown ++ unquoted rest)
    (hclean : (∀ leaf ∈ leaves, leaf.HasText) → 'n' ∉ shown)
    (hnull : ∀ leaf ∈ leaves, ¬ leaf.HasText → "null".toList <:+: shown) :
    Shows text leaves := by
  have hall : unquoted (walked text) = shown := by
    have hall := hshown []
    rwa [List.append_nil, unquoted, List.append_nil] at hall
  rw [← hall] at hshown hclean hnull
  exact ⟨hshown, hclean, hnull⟩

/-- Text without letters that null could begin with shows leaves that have such text. -/
theorem shows_of_isPlain (hplain : ∀ c ∈ text, IsPlain c)
    (hleaves : ∀ leaf ∈ leaves, leaf.HasText) : Shows text leaves :=
  shows_of_unquoted (unquoted_ascii fun c hmem => ⟨(hplain c hmem).1, (hplain c hmem).2.1⟩)
    (fun _ hmem => (hplain 'n' hmem).2.2 rfl)
    fun leaf hmem hnull => absurd (hleaves leaf hmem) hnull

theorem shows_quote (s : String) (hleaves : ∀ leaf ∈ leaves, leaf.HasText) :
    Shows (quote s) leaves :=
  shows_of_unquoted (unquoted_quote s) (fun _ => by decide)
    fun leaf hmem hnull => absurd (hleaves leaf hmem) hnull

theorem shows_null {leaf : Json} (hnull : ¬ leaf.HasText) : Shows "null".toList [leaf] :=
  shows_of_unquoted (unquoted_ascii (List.all_iff_forall_prop.mp (by decide)))
    (fun hleaves => absurd (hleaves leaf List.mem_cons_self) hnull)
    fun _ _ _ => List.infix_rfl

theorem Shows.cons (hshows : Shows text leaves) (hplain : IsPlain c) : Shows (c :: text) leaves :=
  (shows_of_isPlain (List.forall_mem_singleton.mpr hplain) (List.forall_mem_nil _)).append hshows

theorem Shows.member {value members : List Char} (hvalue : Shows value leaves)
    (hmembers : Shows members leaves') (name : String) :
    Shows (quote name ++ ':' :: value ++ members) (leaves ++ leaves') :=
  ((shows_quote name (List.forall_mem_nil _)).append (hvalue.cons (by decide))).append hmembers

mutual

/-- The text of a tree shows the leaves of the tree. -/
theorem shows_render : ∀ (tree : Json), Shows (render tree) tree.leaves
  | .null => shows_null id
  | .unreadable => shows_null id
  | .bool true => shows_of_isPlain (forall_isPlain (by decide)) (List.forall_mem_singleton.mpr trivial)
  | .bool false => shows_of_isPlain (forall_isPlain (by decide)) (List.forall_mem_singleton.mpr trivial)
  | .int n => shows_of_isPlain (isPlain_ofInt n) (List.forall_mem_singleton.mpr trivial)
  | .float x => by
      rw [render]
      by_cases hfinite : x.isFinite
      · rw [if_pos hfinite]
        exact shows_of_isPlain (isPlain_write _ x) (List.forall_mem_singleton.mpr hfinite)
      · rw [if_neg hfinite]
        exact shows_null hfinite
  | .str s => shows_quote s (List.forall_mem_singleton.mpr trivial)
  | .arr [] => shows_of_isPlain (forall_isPlain (by decide)) (List.forall_mem_nil _)
  | .arr (item :: items) =>
      ((shows_render item).cons (by decide)).append (shows_renderItems items)
  | .obj [] => shows_of_isPlain (forall_isPlain (by decide)) (List.forall_mem_nil _)
  | .obj ((name, value) :: members) =>
      ((shows_render value).member (shows_renderMembers members) name).cons (by decide)

theorem shows_renderItems : ∀ (items : List Json), Shows (renderItems items) (leavesOfItems items)
  | [] => shows_of_isPlain (forall_isPlain (by decide)) (List.forall_mem_nil _)
  | item :: items => ((shows_render item).cons (by decide)).append (shows_renderItems items)

theorem shows_renderMembers : ∀ (members : List (String × Json)),
    Shows (renderMembers members) (leavesOfMembers members)
  | [] => shows_of_isPlain (forall_isPlain (by decide)) (List.forall_mem_nil _)
  | (name, value) :: members =>
      ((shows_render value).member (shows_renderMembers members) name).cons (by decide)

end

/-- Null stands in the text of a tree just for the leaves that have no other text. -/
theorem hasNull_render_iff {tree : Json} :
    HasNull (String.ofList (render tree)).toUTF8.toList ↔
      ∃ leaf ∈ tree.leaves, ¬ leaf.HasText := by
  rw [toList_toUTF8]
  change "null".toList <:+: unquoted (walked (render tree)) ↔ _
  constructor
  · intro hnull
    by_contra! htexts
    exact (shows_render tree).clean htexts (hnull.subset (by decide))
  · rintro ⟨leaf, hmem, hnull⟩
    exact (shows_render tree).null leaf hmem hnull

/-- A tree in which nothing is null is written without null. -/
theorem not_hasNull_canonicalText {tree : Json} (hfinite : tree.nonFinite? = none)
    (hleaves : ∀ leaf ∈ tree.leaves, leaf ≠ .null ∧ leaf ≠ .unreadable) :
    ¬ HasNull (String.ofList (canonicalText tree)).toUTF8.toList := by
  rw [canonicalText, hasNull_render_iff]
  rintro ⟨leaf, hmem, hnull⟩
  have hleaf := mem_leaves_of_canonical tree hmem
  cases leaf with
  | null => exact (hleaves _ hleaf).1 rfl
  | unreadable => exact (hleaves _ hleaf).2 rfl
  | float x => exact hnull (isFinite_of_mem_leaves hfinite hleaf)
  | bool _ | int _ | str _ | arr _ | obj _ => exact hnull trivial

end RemoteCall.Json
