import RemoteCall.Proofs.Json.Exact
import RemoteCall.Proofs.Json.Number

/-!
# Trees read back

The text of a tree is read back, up to the limit of nesting, when the tree has no
floating-point numbers.  What is nested too deep denotes nothing.  Blanks do not count, so
one induction serves the text without blanks and the text over several lines.  It is on
the tree, with any text after that of the tree; the bound for the steps is the number
of bytes.
-/

namespace RemoteCall.Json

open RemoteCall.Json.Parser

variable {text rest tail : List Char}

/-! ## Blanks -/

/-- The reader skips the text. -/
def Blanks (text : List Char) : Prop := ∀ c ∈ text, c ∈ [' ', '\t', '\n', '\r']

theorem skipBlank_append {blanks : List Char} (hblanks : Blanks blanks) (text : List Char) :
    skipBlank (blanks ++ text) = skipBlank text := by
  induction blanks with
  | nil => rfl
  | cons c blanks ih =>
      obtain ⟨hc, hrest⟩ := List.forall_mem_cons.mp hblanks
      rw [← ih hrest]
      simp only [List.mem_cons, List.not_mem_nil, or_false] at hc
      rcases hc with rfl | rfl | rfl | rfl <;> rfl

theorem walked_of_blanks {blanks : List Char} (hblanks : Blanks blanks) :
    walked blanks = blanks := by
  have hascii : ∀ c ∈ [' ', '\t', '\n', '\r'], c.toNat < 0x80 := by simp
  exact walked_of_ascii fun c hmem => hascii c (hblanks c hmem)

/-- No number goes on with blanks, or with a mark behind them. -/
theorem endsNumber_blanks {blanks : List Char} (hblanks : Blanks blanks)
    (htext : EndsNumber text) : EndsNumber (blanks ++ text) := by
  cases blanks with
  | nil => exact htext
  | cons c blanks =>
      rintro _ _ ⟨⟩
      have hblank : ∀ c ∈ [' ', '\t', '\n', '\r'], ¬ c.isDigit ∧ c ≠ '.' ∧ c ≠ 'e' ∧ c ≠ 'E' := by
        simp
      exact hblank c (hblanks c List.mem_cons_self)

/-- Where blanks stand in a text: in front of what stands so many levels down, and behind
colons. -/
structure Spacing where
  line : Nat → List Char
  colon : List Char
  blanks_line : ∀ depth, Blanks (line depth)
  blanks_colon : Blanks colon

/-- No blanks at all. -/
def Spacing.dense : Spacing where
  line _ := []
  colon := []
  blanks_line _ := List.forall_mem_nil _
  blanks_colon := List.forall_mem_nil _

/-- A line for each item and each member. -/
def Spacing.lines : Spacing where
  line := newLine
  colon := [' ']
  blanks_line depth := by
    refine List.forall_mem_cons.mpr ⟨by decide, fun c hmem => ?_⟩
    rw [List.eq_of_mem_replicate hmem]
    decide
  blanks_colon := List.forall_mem_singleton.mpr (by decide)

mutual

/-- The text of a tree with blanks in it, for a value `depth` levels down. -/
def spread (spacing : Spacing) (depth : Nat) : Json → List Char
  | .arr [] => ['[', ']']
  | .arr (item :: rest) =>
    '[' :: spacing.line (depth + 1) ++ spreadItems spacing depth (item :: rest)
  | .obj [] => ['{', '}']
  | .obj (member :: rest) =>
    '{' :: spacing.line (depth + 1) ++ spreadMembers spacing depth (member :: rest)
  | leaf => render leaf

/-- The items of an array `depth` levels down that has some, and the closing bracket. -/
def spreadItems (spacing : Spacing) (depth : Nat) : List Json → List Char
  | [] => []
  | [item] => spread spacing (depth + 1) item ++ spacing.line depth ++ [']']
  | item :: rest =>
    spread spacing (depth + 1) item ++ ',' :: spacing.line (depth + 1) ++
      spreadItems spacing depth rest

/-- The members of an object `depth` levels down that has some, and the closing brace. -/
def spreadMembers (spacing : Spacing) (depth : Nat) : List (String × Json) → List Char
  | [] => []
  | [(name, value)] =>
    quote name ++ ':' :: spacing.colon ++ spread spacing (depth + 1) value ++
      spacing.line depth ++ ['}']
  | (name, value) :: rest =>
    quote name ++ ':' :: spacing.colon ++ spread spacing (depth + 1) value ++
      ',' :: spacing.line (depth + 1) ++ spreadMembers spacing depth rest

end

/-! ## Marks -/

/-- No blank in front, and no mark that closes an array or an object. -/
def StartsValue (text : List Char) : Prop :=
  ∃ c rest, text = c :: rest ∧ c ∉ [' ', '\t', '\n', '\r', ']', '}']

theorem skipBlank_of_startsValue (hstarts : StartsValue text) : skipBlank text = text := by
  obtain ⟨c, rest, rfl, hmem⟩ := hstarts
  simp only [List.mem_cons, List.not_mem_nil, or_false, not_or] at hmem
  rw [skipBlank] <;> simp_all

theorem ne_bracket_of_startsValue (hstarts : StartsValue text) : text ≠ ']' :: rest := by
  obtain ⟨c, _, rfl, hmem⟩ := hstarts
  exact fun heq => hmem (by rw [(List.cons.inj heq).1]; decide)

theorem toNat_lt_of_isDigit {c : Char} (hdigit : c.isDigit) : c.toNat < 0x80 :=
  Nat.lt_of_le_of_lt (Char.isDigit_iff_toNat.mp hdigit).2 (by decide)

theorem isDigit_or_minus_of_mem_ofInt {n : Int} :
    ∀ c ∈ Text.Decimal.ofInt n, c.isDigit ∨ c = '-' := by
  have hdigits : ∀ m, ∀ c ∈ Text.Decimal.ofNat m, c.isDigit ∨ c = '-' :=
    fun m c hmem => .inl (isDigit_of_mem_ofNat c hmem)
  cases n with
  | ofNat n => exact hdigits n
  | negSucc n => exact List.forall_mem_cons.mpr ⟨.inr rfl, hdigits (n + 1)⟩

theorem exists_head_ofInt (n : Int) :
    ∃ c rest, Text.Decimal.ofInt n = c :: rest ∧ (c.isDigit ∨ c = '-') := by
  have hne : Text.Decimal.ofInt n ≠ [] := by
    cases n with
    | ofNat n => exact Nat.toDigits_ne_nil
    | negSucc n => exact List.cons_ne_nil _ _
  obtain ⟨c, rest, htext⟩ := List.exists_cons_of_ne_nil hne
  refine ⟨c, rest, htext, isDigit_or_minus_of_mem_ofInt (n := n) c ?_⟩
  rw [htext]
  exact List.mem_cons_self

theorem walked_ofInt (n : Int) : walked (Text.Decimal.ofInt n) = Text.Decimal.ofInt n := by
  refine walked_of_ascii fun c hmem => ?_
  rcases isDigit_or_minus_of_mem_ofInt c hmem with hdigit | rfl
  · exact toNat_lt_of_isDigit hdigit
  · decide

theorem startsValue_of_number {c : Char} (hnumber : c.isDigit ∨ c = '-') :
    StartsValue (c :: rest) := by
  refine ⟨c, rest, rfl, fun hmem => ?_⟩
  rcases hnumber with hdigit | rfl
  · simp only [List.mem_cons, List.not_mem_nil, or_false] at hmem
    rcases hmem with rfl | rfl | rfl | rfl | rfl | rfl <;> exact absurd hdigit (by decide)
  · exact absurd hmem (by decide)

variable (spacing : Spacing)

theorem walked_spread_arr (depth : Nat) (item : Json) (rest : List Json) :
    walked (spread spacing depth (.arr (item :: rest))) =
      '[' :: (spacing.line (depth + 1) ++ walked (spreadItems spacing depth (item :: rest))) := by
  rw [spread, List.cons_append, walked_cons_of_ascii (by decide), walked_append,
    walked_of_blanks (spacing.blanks_line _)]

theorem walked_spread_obj (depth : Nat) (member : String × Json) (rest : List (String × Json)) :
    walked (spread spacing depth (.obj (member :: rest))) =
      '\x7b' :: (spacing.line (depth + 1) ++
        walked (spreadMembers spacing depth (member :: rest))) := by
  rw [spread, List.cons_append, walked_cons_of_ascii (by decide), walked_append,
    walked_of_blanks (spacing.blanks_line _)]

theorem walked_spreadItems_last (depth : Nat) (item : Json) :
    walked (spreadItems spacing depth [item]) =
      walked (spread spacing (depth + 1) item) ++ (spacing.line depth ++ [']']) := by
  rw [spreadItems, walked_append, walked_append, walked_of_blanks (spacing.blanks_line _),
    walked_cons_of_ascii (c := ']') (by decide), List.append_assoc]
  rfl

theorem walked_spreadItems_more (depth : Nat) (item next : Json) (rest : List Json) :
    walked (spreadItems spacing depth (item :: next :: rest)) =
      walked (spread spacing (depth + 1) item) ++
        ',' :: (spacing.line (depth + 1) ++ walked (spreadItems spacing depth (next :: rest))) := by
  rw [spreadItems, walked_append, walked_append, walked_cons_of_ascii (c := ',') (by decide),
    walked_of_blanks (spacing.blanks_line _), List.append_assoc, List.cons_append]
  exact nofun

theorem walked_spreadMembers_last (depth : Nat) (name : String) (value : Json) :
    walked (spreadMembers spacing depth [(name, value)]) =
      walked (quote name) ++ ':' :: (spacing.colon ++
        (walked (spread spacing (depth + 1) value) ++ (spacing.line depth ++ ['\x7d']))) := by
  rw [spreadMembers, walked_append, walked_append, walked_append, walked_append,
    walked_of_blanks (spacing.blanks_line _), walked_cons_of_ascii (c := ':') (by decide),
    walked_of_blanks spacing.blanks_colon, walked_cons_of_ascii (c := '\x7d') (by decide)]
  simp only [List.append_assoc, List.cons_append, walked_nil]

theorem walked_spreadMembers_more (depth : Nat) (name : String) (value : Json)
    (next : String × Json) (rest : List (String × Json)) :
    walked (spreadMembers spacing depth ((name, value) :: next :: rest)) =
      walked (quote name) ++ ':' :: (spacing.colon ++
        (walked (spread spacing (depth + 1) value) ++
          ',' :: (spacing.line (depth + 1) ++
            walked (spreadMembers spacing depth (next :: rest))))) := by
  rw [spreadMembers, walked_append, walked_append, walked_append, walked_append,
    walked_cons_of_ascii (c := ':') (by decide), walked_of_blanks spacing.blanks_colon,
    walked_cons_of_ascii (c := ',') (by decide), walked_of_blanks (spacing.blanks_line _)]
  · simp only [List.append_assoc, List.cons_append]
  · exact nofun

theorem startsValue_spread {tree : Json} (hexact : tree.Exact) (depth : Nat) :
    StartsValue (walked (spread spacing depth tree) ++ tail) := by
  cases tree with
  | null => exact ⟨'n', _, rfl, by decide⟩
  | bool value => cases value <;> exact ⟨_, _, rfl, by decide⟩
  | int n =>
      obtain ⟨c, rest, hhead, hnumber⟩ := exists_head_ofInt n
      change StartsValue (walked (Text.Decimal.ofInt n) ++ tail)
      rw [walked_ofInt, hhead]
      exact startsValue_of_number hnumber
  | float x => exact hexact.elim
  | str s =>
      change StartsValue (walked (quote s) ++ tail)
      rw [walked_quote]
      exact ⟨'"', _, rfl, by decide⟩
  | arr items =>
      cases items with
      | nil => exact ⟨'[', _, rfl, by decide⟩
      | cons item rest =>
          rw [walked_spread_arr]
          exact ⟨'[', _, rfl, by decide⟩
  | obj members =>
      cases members with
      | nil => exact ⟨'\x7b', _, rfl, by decide⟩
      | cons member rest =>
          rw [walked_spread_obj]
          exact ⟨'\x7b', _, rfl, by decide⟩
  | unreadable => exact hexact.elim

theorem startsValue_spreadItems {item : Json} (hexact : item.Exact) (depth : Nat)
    (rest : List Json) :
    StartsValue (walked (spreadItems spacing depth (item :: rest)) ++ tail) := by
  cases rest with
  | nil =>
      rw [walked_spreadItems_last, List.append_assoc]
      exact startsValue_spread spacing hexact _
  | cons next rest =>
      rw [walked_spreadItems_more, List.append_assoc]
      exact startsValue_spread spacing hexact _

/-- Members start with the mark that opens the first name. -/
theorem exists_walked_spreadMembers (depth : Nat) (member : String × Json)
    (rest : List (String × Json)) :
    ∃ text, walked (spreadMembers spacing depth (member :: rest)) = '"' :: text := by
  obtain ⟨name, value⟩ := member
  cases rest with
  | nil =>
      rw [walked_spreadMembers_last, walked_quote]
      exact ⟨_, rfl⟩
  | cons next rest =>
      rw [walked_spreadMembers_more, walked_quote]
      exact ⟨_, rfl⟩

theorem length_spread_pos {tree : Json} (hexact : tree.Exact) (depth : Nat) :
    0 < (walked (spread spacing depth tree)).length := by
  have hstarts : StartsValue (walked (spread spacing depth tree) ++ []) :=
    startsValue_spread spacing hexact depth
  obtain ⟨c, rest, heq, -⟩ := hstarts
  rw [List.append_nil] at heq
  rw [heq]
  exact Nat.succ_pos _

/-! ## Steps of the reader -/

variable {name : List Unit16 → Option String} {steps room : Nat}

theorem value?_of_number {c : Char} (hnumber : c.isDigit ∨ c = '-') :
    value? name (steps + 1) room (c :: rest) = number? (c :: rest) := by
  have hne : ∀ mark : Char, ¬ mark.isDigit → mark ≠ '-' → c ≠ mark := by
    rintro mark hdigit hdash rfl
    exact hnumber.elim hdigit hdash
  rw [value?]
  · exact fun rest heq => hne '\x7b' (by decide) (by decide) (List.cons.inj heq).1
  · exact fun rest heq => hne '[' (by decide) (by decide) (List.cons.inj heq).1
  · exact fun rest heq => hne '"' (by decide) (by decide) (List.cons.inj heq).1
  · exact fun rest heq => hne 'n' (by decide) (by decide) (List.cons.inj heq).1
  · exact fun rest heq => hne 't' (by decide) (by decide) (List.cons.inj heq).1
  · exact fun rest heq => hne 'f' (by decide) (by decide) (List.cons.inj heq).1

theorem value?_quote (s : String) :
    value? name (steps + 1) room (walked (quote s) ++ tail) = some (.str s, tail) := by
  rw [walked_quote, List.cons_append, List.append_assoc, value?]
  simp only [List.singleton_append, string?_quote]

theorem value?_bracket {items : List Json} (hskip : skipBlank text = rest)
    (hstarts : StartsValue rest)
    (hitems : items? name steps (room - 1) rest = some (items, tail)) :
    value? name (steps + 1) room ('[' :: text) = some (nested room (.arr items), tail) := by
  rw [value?, hskip]
  split
  · exact absurd rfl (ne_bracket_of_startsValue hstarts)
  · rw [hitems]

theorem value?_brace {members : List (Option String × Json)}
    (hskip : skipBlank text = '"' :: rest)
    (hmembers : Parser.members? name steps (room - 1) ('"' :: rest) = some (members, tail)) :
    value? name (steps + 1) room ('\x7b' :: text) =
      some (nested room (objectOf members), tail) := by
  rw [value?, hskip]
  split
  · rename_i heq
    exact absurd (List.cons.inj heq).1 (by decide)
  · rw [hmembers]

theorem items?_last {item : Json} (hvalue : value? name steps room text = some (item, rest))
    (hskip : skipBlank rest = ']' :: tail) :
    items? name (steps + 1) room text = some ([item], tail) := by
  simp only [items?, hvalue, hskip]

theorem items?_more {item : Json} {items : List Json} {next : List Char}
    (hvalue : value? name steps room text = some (item, rest))
    (hskip : skipBlank rest = ',' :: next)
    (hitems : items? name steps room (skipBlank next) = some (items, tail)) :
    items? name (steps + 1) room text = some (item :: items, tail) := by
  simp only [items?, hvalue, hskip, hitems]

theorem members?_last {s : String} {value : Json}
    (hvalue : value? text? steps room (skipBlank text) = some (value, rest))
    (hskip : skipBlank rest = '\x7d' :: tail) :
    Parser.members? text? (steps + 1) room (walked (quote s) ++ ':' :: text) =
      some ([(some s, value)], tail) := by
  have hcolon : skipBlank (':' :: text) = ':' :: text := rfl
  rw [walked_quote, List.cons_append, List.append_assoc, Parser.members?]
  simp only [List.singleton_append, string?_quote, hcolon, hvalue, hskip]

theorem members?_more {s : String} {value : Json} {members : List (Option String × Json)}
    {next : List Char} (hvalue : value? text? steps room (skipBlank text) = some (value, rest))
    (hskip : skipBlank rest = ',' :: next)
    (hmembers : Parser.members? text? steps room (skipBlank next) = some (members, tail)) :
    Parser.members? text? (steps + 1) room (walked (quote s) ++ ':' :: text) =
      some ((some s, value) :: members, tail) := by
  have hcolon : skipBlank (':' :: text) = ':' :: text := rfl
  rw [walked_quote, List.cons_append, List.append_assoc, Parser.members?]
  simp only [List.singleton_append, string?_quote, hcolon, hvalue, hskip, hmembers]

theorem objectOf_named (members : List (String × Json)) :
    objectOf (members.map fun member => (some member.1, member.2)) = .obj members := by
  have hnames : (members.map fun member => (some member.1, member.2)).mapM
      (fun member : Option String × Json => member.1.map fun name => (name, member.2)) =
        some members := by
    induction members with
    | nil => rfl
    | cons member rest ih => simp [ih]
  rw [objectOf, hnames]

/-! ## Whole trees -/

theorem skipBlank_line (depth : Nat) (text : List Char) :
    skipBlank (spacing.line depth ++ text) = skipBlank text :=
  skipBlank_append (spacing.blanks_line depth) text

theorem skipBlank_colon {tree : Json} (hexact : tree.Exact) (depth : Nat) :
    skipBlank (spacing.colon ++ (walked (spread spacing depth tree) ++ tail)) =
      walked (spread spacing depth tree) ++ tail := by
  rw [skipBlank_append spacing.blanks_colon,
    skipBlank_of_startsValue (startsValue_spread spacing hexact depth)]

/-- A number is over where a line begins, with a mark behind it. -/
theorem endsNumber_line (depth : Nat) {c : Char} (hmark : c ∈ [',', ']', '\x7d']) :
    EndsNumber (spacing.line depth ++ c :: tail) :=
  endsNumber_blanks (spacing.blanks_line depth) (endsNumber_mark hmark)

mutual

/-- The text of a tree is read as what there is room for of the tree, wherever blanks stand
in it, and what follows it is left. -/
theorem value?_spread (spacing : Spacing) : ∀ (tree : Json) {depth steps room : Nat}
    {tail : List Char}, tree.Exact → EndsNumber tail →
      (walked (spread spacing depth tree)).length ≤ steps →
      value? text? steps room (walked (spread spacing depth tree) ++ tail) =
        some (truncate room tree, tail)
  | .null, _, steps + 1, _, _, _, _, _ => rfl
  | .bool true, _, steps + 1, _, _, _, _, _ => rfl
  | .bool false, _, steps + 1, _, _, _, _, _ => rfl
  | .int n, _, steps + 1, room, tail, hexact, htail, _ => by
      obtain ⟨c, rest, hhead, hnumber⟩ := exists_head_ofInt n
      have hread := number?_ofInt hexact.1 hexact.2 htail
      change value? text? (steps + 1) room (walked (Text.Decimal.ofInt n) ++ tail) = _
      rw [walked_ofInt]
      rw [hhead, List.cons_append] at hread ⊢
      rw [value?_of_number hnumber]
      exact hread
  | .str s, _, steps + 1, _, _, _, _, _ => value?_quote s
  | .arr [], _, steps + 1, _, _, _, _, _ => rfl
  | .arr (item :: rest), depth, steps + 1, room, tail, hexact, _, hsteps => by
      rw [walked_spread_arr, List.length_cons, List.length_append] at hsteps
      rw [walked_spread_arr, List.cons_append, List.append_assoc]
      have hstarts : StartsValue (walked (spreadItems spacing depth (item :: rest)) ++ tail) :=
        startsValue_spreadItems spacing hexact.1 depth rest
      refine value?_bracket ?_ hstarts
        (items?_spread spacing (item :: rest) (List.cons_ne_nil _ _) hexact (by omega))
      rw [skipBlank_line, skipBlank_of_startsValue hstarts]
  | .obj [], _, steps + 1, _, _, _, _, _ => rfl
  | .obj (member :: rest), depth, steps + 1, room, tail, hexact, _, hsteps => by
      rw [walked_spread_obj, List.length_cons, List.length_append] at hsteps
      rw [walked_spread_obj, List.cons_append, List.append_assoc]
      have hmembers : Parser.members? text? steps (room - 1)
          (walked (spreadMembers spacing depth (member :: rest)) ++ tail) =
            some ((truncateMembers (room - 1) (member :: rest)).map
              fun member => (some member.1, member.2), tail) :=
        members?_spread spacing (member :: rest) (List.cons_ne_nil _ _) hexact (by omega)
      -- The parser looks at the mark of the first name before it reads members.
      obtain ⟨text, htext⟩ := exists_walked_spreadMembers spacing depth member rest
      rw [htext, List.cons_append] at hmembers ⊢
      rw [value?_brace (skipBlank_line spacing _ _) hmembers, objectOf_named]
      rfl
  -- Every text takes a step, so the bound is not used up before the text is.
  | tree, depth, 0, _, _, hexact, _, hsteps =>
      absurd hsteps (Nat.not_le.mpr (length_spread_pos spacing hexact depth))

theorem items?_spread (spacing : Spacing) : ∀ (items : List Json) {depth steps room : Nat}
    {tail : List Char}, items ≠ [] → ExactItems items →
      (walked (spreadItems spacing depth items)).length ≤ steps →
      items? text? steps room (walked (spreadItems spacing depth items) ++ tail) =
        some (truncateItems room items, tail)
  | [], _, _, _, _, hne, _, _ => absurd rfl hne
  | [item], depth, steps + 1, room, tail, _, hexact, hsteps => by
      simp only [walked_spreadItems_last, List.length_append, List.length_cons] at hsteps
      simp only [walked_spreadItems_last, List.append_assoc]
      have hitem : value? text? steps room (walked (spread spacing (depth + 1) item) ++
          (spacing.line depth ++ ']' :: tail)) =
            some (truncate room item, spacing.line depth ++ ']' :: tail) :=
        value?_spread spacing item hexact.1 (endsNumber_line spacing depth (by decide)) (by omega)
      exact items?_last hitem (skipBlank_line spacing _ _)
  | item :: next :: rest, depth, steps + 1, room, tail, _, hexact, hsteps => by
      have hpos := length_spread_pos spacing hexact.1 (depth + 1)
      simp only [walked_spreadItems_more, List.length_append, List.length_cons] at hsteps
      simp only [walked_spreadItems_more, List.append_assoc, List.cons_append]
      have hitems : items? text? steps room
          (walked (spreadItems spacing depth (next :: rest)) ++ tail) =
            some (truncateItems room (next :: rest), tail) :=
        items?_spread spacing (next :: rest) (List.cons_ne_nil _ _) hexact.2 (by omega)
      refine items?_more (value?_spread spacing item hexact.1 (endsNumber_mark (by decide))
        (by omega)) rfl ?_
      rw [skipBlank_line,
        skipBlank_of_startsValue (startsValue_spreadItems spacing hexact.2.1 depth rest), hitems]
  | [item], depth, 0, _, _, _, _, hsteps => by
      simp [walked_spreadItems_last] at hsteps
  | item :: next :: rest, depth, 0, _, _, _, _, hsteps => by
      simp [walked_spreadItems_more] at hsteps

theorem members?_spread (spacing : Spacing) : ∀ (members : List (String × Json))
    {depth steps room : Nat} {tail : List Char}, members ≠ [] → ExactMembers members →
      (walked (spreadMembers spacing depth members)).length ≤ steps →
      Parser.members? text? steps room (walked (spreadMembers spacing depth members) ++ tail) =
        some ((truncateMembers room members).map fun member => (some member.1, member.2), tail)
  | [], _, _, _, _, hne, _, _ => absurd rfl hne
  | [(s, value)], depth, steps + 1, room, tail, _, hexact, hsteps => by
      simp only [walked_spreadMembers_last, List.length_append, List.length_cons] at hsteps
      simp only [walked_spreadMembers_last, List.append_assoc, List.cons_append, List.nil_append]
      have hvalue : value? text? steps room (walked (spread spacing (depth + 1) value) ++
          (spacing.line depth ++ '\x7d' :: tail)) =
            some (truncate room value, spacing.line depth ++ '\x7d' :: tail) :=
        value?_spread spacing value hexact.1 (endsNumber_line spacing depth (by decide))
          (by omega)
      rw [← skipBlank_colon spacing hexact.1] at hvalue
      exact members?_last hvalue (skipBlank_line spacing _ _)
  | (s, value) :: next :: rest, depth, steps + 1, room, tail, _, hexact, hsteps => by
      simp only [walked_spreadMembers_more, List.length_append, List.length_cons] at hsteps
      simp only [walked_spreadMembers_more, List.append_assoc, List.cons_append]
      have hvalue : value? text? steps room (walked (spread spacing (depth + 1) value) ++
          ',' :: (spacing.line (depth + 1) ++
            (walked (spreadMembers spacing depth (next :: rest)) ++ tail))) =
            some (truncate room value, ',' :: (spacing.line (depth + 1) ++
              (walked (spreadMembers spacing depth (next :: rest)) ++ tail))) :=
        value?_spread spacing value hexact.1 (endsNumber_mark (by decide)) (by omega)
      have hmembers : Parser.members? text? steps room
          (walked (spreadMembers spacing depth (next :: rest)) ++ tail) =
            some ((truncateMembers room (next :: rest)).map
              fun member => (some member.1, member.2), tail) :=
        members?_spread spacing (next :: rest) (List.cons_ne_nil _ _) hexact.2 (by omega)
      have hstarts : skipBlank (walked (spreadMembers spacing depth (next :: rest)) ++ tail) =
          walked (spreadMembers spacing depth (next :: rest)) ++ tail := by
        obtain ⟨text, htext⟩ := exists_walked_spreadMembers spacing depth next rest
        rw [htext]
        rfl
      rw [← skipBlank_colon spacing hexact.1] at hvalue
      refine members?_more hvalue rfl ?_
      rw [skipBlank_line, hstarts, hmembers]
  | [(s, value)], depth, 0, _, _, _, _, hsteps => by
      simp [walked_spreadMembers_last] at hsteps
  | (s, value) :: next :: rest, depth, 0, _, _, _, _, hsteps => by
      simp [walked_spreadMembers_more] at hsteps

end

/-- Blanks behind the text of a tree do not count either. -/
theorem parseWithin?_spread {tree : Json} (hexact : tree.Exact) (limit depth : Nat)
    {blanks : List Char} (hblanks : Blanks blanks) :
    parseWithin? limit (String.ofList (spread spacing depth tree ++ blanks)).toUTF8.toList =
      some (truncate limit tree) := by
  have hwalked : (String.ofList (spread spacing depth tree ++ blanks)).toUTF8.toList.map
      (fun byte => Char.ofNat byte.toNat) = walked (spread spacing depth tree) ++ blanks := by
    rw [toList_toUTF8]
    change walked (spread spacing depth tree ++ blanks) = _
    rw [walked_append, walked_of_blanks hblanks]
  have hstarts : StartsValue (walked (spread spacing depth tree) ++ blanks) :=
    startsValue_spread spacing hexact depth
  have hblank : blanks ++ [] = blanks := List.append_nil blanks
  have hends : EndsNumber blanks := hblank ▸ endsNumber_blanks hblanks nofun
  have hskip : skipBlank blanks = [] := by
    rw [← hblank, skipBlank_append hblanks]
    rfl
  have hread : value? text?
      (2 * (walked (spread spacing depth tree) ++ blanks).length + 2) limit
      (walked (spread spacing depth tree) ++ blanks) = some (truncate limit tree, blanks) :=
    value?_spread spacing tree hexact hends (by rw [List.length_append]; omega)
  simp only [parseWithin?, parseBy?, hwalked, skipBlank_of_startsValue hstarts, hread, hskip,
    if_true]

/-! ## The texts that are written -/

mutual

theorem spread_dense : ∀ (tree : Json) (depth : Nat), spread .dense depth tree = render tree
  | .null, _ => rfl
  | .bool _, _ => rfl
  | .int _, _ => rfl
  | .float _, _ => rfl
  | .str _, _ => rfl
  | .unreadable, _ => rfl
  | .arr [], _ => rfl
  | .arr (item :: rest), depth => by
      rw [spread, spreadItems_dense (item :: rest) depth rfl]
      rfl
  | .obj [], _ => rfl
  | .obj ((name, value) :: rest), depth => by
      rw [spread, spreadMembers_dense ((name, value) :: rest) depth rfl]
      rfl

theorem spreadItems_dense : ∀ (items : List Json) (depth : Nat) {item : Json} {rest : List Json},
    items = item :: rest → spreadItems .dense depth items = render item ++ renderItems rest
  | [item], depth, _, _, rfl => by
      rw [spreadItems, spread_dense item]
      simp [Spacing.dense, renderItems]
  | item :: next :: rest, depth, _, _, rfl => by
      rw [spreadItems, spread_dense item, spreadItems_dense (next :: rest) depth rfl]
      · simp [Spacing.dense, renderItems]
      · exact nofun

theorem spreadMembers_dense : ∀ (members : List (String × Json)) (depth : Nat) {name : String}
    {value : Json} {rest : List (String × Json)}, members = (name, value) :: rest →
      spreadMembers .dense depth members =
        quote name ++ ':' :: render value ++ renderMembers rest
  | [(name, value)], depth, _, _, _, rfl => by
      rw [spreadMembers, spread_dense value]
      simp [Spacing.dense, renderMembers]
  | (name, value) :: (name', value') :: rest, depth, _, _, _, rfl => by
      rw [spreadMembers, spread_dense value,
        spreadMembers_dense ((name', value') :: rest) depth rfl]
      · simp [Spacing.dense, renderMembers]
      · exact nofun

end

mutual

/-- Over several lines trees are written alike that have no floating-point numbers. -/
theorem spread_lines : ∀ (tree : Json) (depth : Nat), tree.Exact →
    spread .lines depth tree = indentedAt depth tree
  | .null, _, _ => rfl
  | .bool _, _, _ => rfl
  | .int _, _, _ => rfl
  | .float _, _, hexact => hexact.elim
  | .str _, _, _ => rfl
  | .unreadable, _, hexact => hexact.elim
  | .arr [], _, _ => rfl
  | .arr (item :: rest), depth, hexact => by
      rw [spread, spreadItems_lines (item :: rest) depth hexact rfl, indentedAt]
      simp [Spacing.lines]
  | .obj [], _, _ => rfl
  | .obj ((name, value) :: rest), depth, hexact => by
      rw [spread, spreadMembers_lines ((name, value) :: rest) depth hexact rfl, indentedAt]
      simp [Spacing.lines]

theorem spreadItems_lines : ∀ (items : List Json) (depth : Nat) {item : Json} {rest : List Json},
    ExactItems items → items = item :: rest →
      spreadItems .lines depth items = indentedAt (depth + 1) item ++ indentedItems depth rest
  | [item], depth, _, _, hexact, rfl => by
      rw [spreadItems, spread_lines item (depth + 1) hexact.1]
      simp [Spacing.lines, indentedItems]
  | item :: next :: rest, depth, _, _, hexact, rfl => by
      rw [spreadItems, spread_lines item (depth + 1) hexact.1,
        spreadItems_lines (next :: rest) depth hexact.2 rfl]
      · simp [Spacing.lines, indentedItems]
      · exact nofun

theorem spreadMembers_lines : ∀ (members : List (String × Json)) (depth : Nat) {name : String}
    {value : Json} {rest : List (String × Json)}, ExactMembers members →
      members = (name, value) :: rest → spreadMembers .lines depth members =
        quote name ++ ':' :: ' ' :: indentedAt (depth + 1) value ++ indentedMembers depth rest
  | [(name, value)], depth, _, _, _, hexact, rfl => by
      rw [spreadMembers, spread_lines value (depth + 1) hexact.1]
      simp [Spacing.lines, indentedMembers]
  | (name, value) :: (name', value') :: rest, depth, _, _, _, hexact, rfl => by
      rw [spreadMembers, spread_lines value (depth + 1) hexact.1,
        spreadMembers_lines ((name', value') :: rest) depth hexact.2 rfl]
      · simp [Spacing.lines, indentedMembers]
      · exact nofun

end

theorem parseWithin?_render {tree : Json} (hexact : tree.Exact) (limit : Nat) :
    parseWithin? limit (String.ofList (render tree)).toUTF8.toList =
      some (truncate limit tree) := by
  have hread := parseWithin?_spread .dense hexact limit 0 (List.forall_mem_nil _)
  rwa [spread_dense, List.append_nil] at hread

/-- The text over several lines is read as the tree, and a line end behind it is skipped. -/
theorem parseWithin?_indented {tree : Json} (hexact : tree.Exact) (limit : Nat) :
    parseWithin? limit (indented tree ++ "\n").toUTF8.toList = some (truncate limit tree) := by
  have hread := parseWithin?_spread .lines hexact limit 0
    (List.forall_mem_singleton.mpr (by decide : '\n' ∈ [' ', '\t', '\n', '\r']))
  rwa [spread_lines tree 0 hexact, String.ofList_append] at hread

end RemoteCall.Json
