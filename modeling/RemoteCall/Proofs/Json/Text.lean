import RemoteCall.Json.Parser
import RemoteCall.Json.Printer

/-!
# String literals read back

A text is walked byte by byte, each byte as the character of its number.  ASCII
characters are walked as they are, and no other character is walked through a byte
that is ASCII.  So a literal ends where it was closed, and the bytes between are those
of the text that was quoted, escaped characters included.
-/

namespace RemoteCall.Json

variable {text rest tail : List Char} {c : Char}

/-! ## Bytes -/

/-- A text as it is walked: its bytes in UTF-8, each as the character of its number. -/
def walked (text : List Char) : List Char :=
  (text.flatMap String.utf8EncodeChar).map fun byte => Char.ofNat byte.toNat

@[simp]
theorem walked_nil : walked [] = [] := rfl

@[simp]
theorem walked_append (left right : List Char) :
    walked (left ++ right) = walked left ++ walked right := by
  rw [walked, List.flatMap_append, List.map_append]
  rfl

theorem utf8EncodeChar_of_ascii (hascii : c.toNat < 0x80) :
    String.utf8EncodeChar c = [UInt8.ofNat c.toNat] := by
  rw [String.utf8EncodeChar]
  exact if_pos (Nat.lt_succ_iff.mp hascii)

theorem walked_cons_of_ascii (hascii : c.toNat < 0x80) : walked (c :: rest) = c :: walked rest := by
  have hbyte : (UInt8.ofNat c.toNat).toNat = c.toNat := by
    rw [UInt8.toNat_ofNat']
    omega
  rw [walked, List.flatMap_cons, utf8EncodeChar_of_ascii hascii, List.singleton_append,
    List.map_cons, hbyte, Char.ofNat_toNat]
  rfl

theorem walked_of_ascii (hascii : ∀ c ∈ text, c.toNat < 0x80) : walked text = text := by
  induction text with
  | nil => rfl
  | cons c rest ih =>
      rw [walked_cons_of_ascii (hascii c List.mem_cons_self),
        ih fun c hmem => hascii c (List.mem_cons_of_mem _ hmem)]

/-- Characters beyond ASCII are made of bytes beyond ASCII. -/
theorem le_of_mem_utf8EncodeChar (hbeyond : 0x80 ≤ c.toNat) {byte : UInt8}
    (hmem : byte ∈ String.utf8EncodeChar c) : 0x80 ≤ byte.toNat := by
  have hval : c.val.toNat = c.toNat := rfl
  rw [String.utf8EncodeChar] at hmem
  simp only [hval] at hmem
  split at hmem
  · omega
  · split at hmem
    · simp only [List.mem_cons, List.not_mem_nil, or_false] at hmem
      rcases hmem with rfl | rfl <;> rw [UInt8.toNat_ofNat'] <;> omega
    · split at hmem
      · simp only [List.mem_cons, List.not_mem_nil, or_false] at hmem
        rcases hmem with rfl | rfl | rfl <;> rw [UInt8.toNat_ofNat'] <;> omega
      · simp only [List.mem_cons, List.not_mem_nil, or_false] at hmem
        rcases hmem with rfl | rfl | rfl | rfl <;> rw [UInt8.toNat_ofNat'] <;> omega

theorem toNat_ofNat_byte (byte : UInt8) : (Char.ofNat byte.toNat).toNat = byte.toNat := by
  have hvalid : byte.toNat.isValidChar := .inl (by have := byte.toNat_lt; omega)
  rw [Char.ofNat, dif_pos hvalid]
  rfl

theorem toList_loop (bytes : ByteArray) (place : Nat) (done : List UInt8) :
    ByteArray.toList.loop bytes place done = done.reverse ++ bytes.data.toList.drop place := by
  fun_induction ByteArray.toList.loop bytes place done with
  | case1 place done hlt ih =>
      have hlength : place < bytes.data.toList.length := by simpa using hlt
      rw [ih, List.drop_eq_getElem_cons hlength]
      simp [ByteArray.get!, hlt]
  | case2 place done hle =>
      rw [List.drop_eq_nil_of_le (by simpa using Nat.le_of_not_lt hle), List.append_nil]

theorem toList_toUTF8 (text : List Char) :
    (String.ofList text).toUTF8.toList = text.flatMap String.utf8EncodeChar := by
  rw [ByteArray.toList, toList_loop]
  exact List.toList_data_toByteArray

theorem fromUTF8?_toList (s : String) :
    String.fromUTF8? ⟨(s.toList.flatMap String.utf8EncodeChar).toArray⟩ = some s := by
  have hbytes : (⟨(s.toList.flatMap String.utf8EncodeChar).toArray⟩ : ByteArray) =
      s.toByteArray := by
    rw [← List.data_toByteArray, ← List.utf8Encode, ← String.toByteArray_ofList,
      String.ofList_toList]
  rw [hbytes, String.fromUTF8?, dif_pos s.isValidUTF8]
  rfl

/-! ## Escapes -/

/-- A character that stands for itself in a literal. -/
def IsBare (c : Char) : Prop := 0x20 ≤ c.toNat ∧ c ≠ '"' ∧ c ≠ '\\'

/-- A character is escaped by a letter or by its number, or it stands for itself. -/
theorem escape_cases (c : Char) :
    (∃ letter, escape c = ['\\', letter] ∧ letter.toNat < 0x80 ∧ letter ≠ 'u' ∧
        Parser.shortEscape? letter = some c ∧ c.toNat < 0x80) ∨
      (escape c = ['\\', 'u', '0', '0', Text.Hex.digit (c.toNat / 16),
        Text.Hex.digit (c.toNat % 16)] ∧ c.toNat < 0x20) ∨
      (escape c = [c] ∧ IsBare c) := by
  unfold escape
  split
  · exact .inl ⟨'"', rfl, by decide, by decide, rfl, by decide⟩
  · exact .inl ⟨'\\', rfl, by decide, by decide, rfl, by decide⟩
  · exact .inl ⟨'b', rfl, by decide, by decide, rfl, by decide⟩
  · exact .inl ⟨'f', rfl, by decide, by decide, rfl, by decide⟩
  · exact .inl ⟨'n', rfl, by decide, by decide, rfl, by decide⟩
  · exact .inl ⟨'r', rfl, by decide, by decide, rfl, by decide⟩
  · exact .inl ⟨'t', rfl, by decide, by decide, rfl, by decide⟩
  · rename_i hquote hbackslash _ _ _ _ _
    split
    · rename_i hlt
      exact .inr (.inl ⟨rfl, hlt⟩)
    · rename_i hge
      exact .inr (.inr ⟨rfl, Nat.le_of_not_lt hge, hquote, hbackslash⟩)

/-! ## Literals -/

namespace Parser

variable {units : List Unit16}

theorem stringBody_letter {letter : Char} (hletter : letter ≠ 'u')
    (hescape : shortEscape? letter = some c) (hrest : stringBody rest = some (units, tail)) :
    stringBody ('\\' :: letter :: rest) = some (.byte c :: units, tail) := by
  rw [stringBody]
  · simp only [hescape, hrest]
  · exact fun _ _ _ _ _ heq => absurd heq hletter

theorem stringBody_number (hlt : c.toNat < 0x20) (hrest : stringBody rest = some (units, tail)) :
    stringBody ('\\' :: 'u' :: '0' :: '0' :: Text.Hex.digit (c.toNat / 16) ::
      Text.Hex.digit (c.toNat % 16) :: rest) = some (.unit c.toNat :: units, tail) := by
  have hzero : Text.Hex.value? '0' = some 0 := rfl
  have hhex : hex4? '0' '0' (Text.Hex.digit (c.toNat / 16)) (Text.Hex.digit (c.toNat % 16)) =
      some c.toNat := by
    have hhigh : c.toNat / 16 < 16 := by omega
    have hlow : c.toNat % 16 < 16 := by omega
    simp only [hex4?, hzero, Text.Hex.value?_digit hhigh, Text.Hex.value?_digit hlow,
      Option.some.injEq]
    omega
  rw [stringBody]
  simp only [hhex, hrest]

theorem stringBody_bare (hbare : IsBare c) (hrest : stringBody rest = some (units, tail)) :
    stringBody (c :: rest) = some (.byte c :: units, tail) := by
  obtain ⟨hge, hquote, hbackslash⟩ := hbare
  rw [stringBody]
  · rw [if_neg (by simpa using ⟨hge, hbackslash⟩), hrest]
  · exact hquote
  · exact fun _ _ _ _ _ heq => absurd heq hbackslash
  · exact fun _ _ heq => absurd heq hbackslash

theorem stringBody_bares {bares : List Char} (hbares : ∀ c ∈ bares, IsBare c)
    (hrest : stringBody rest = some (units, tail)) :
    stringBody (bares ++ rest) = some (bares.map .byte ++ units, tail) := by
  induction bares with
  | nil => exact hrest
  | cons c bares ih =>
      exact stringBody_bare (hbares c List.mem_cons_self)
        (ih fun c hmem => hbares c (List.mem_cons_of_mem _ hmem))

/-- A character below the surrogates that is written by its number. -/
theorem literalBytes?_number (hlt : c.toNat < 0x20) :
    literalBytes? (.unit c.toNat :: units) =
      (literalBytes? units).map (String.utf8EncodeChar c ++ ·) := by
  have hchar : Char.ofNat c.toNat = c := Char.ofNat_toNat c
  have hhigh : ¬ (0xd800 ≤ c.toNat ∧ c.toNat ≤ 0xdbff) := by omega
  have hlow : ¬ (0xdc00 ≤ c.toNat ∧ c.toNat ≤ 0xdfff) := by omega
  have hhalf : ¬ (0xd800 ≤ c.toNat ∧ c.toNat ≤ 0xdfff) := by omega
  rcases units with _ | ⟨_ | _, units⟩ <;>
    simp only [literalBytes?, hhigh, hlow, hhalf, if_false, hchar]

theorem literalBytes?_bytes (bytes : List UInt8) :
    literalBytes? (bytes.map (fun byte => .byte (Char.ofNat byte.toNat)) ++ units) =
      (literalBytes? units).map (bytes ++ ·) := by
  induction bytes with
  | nil => simp
  | cons byte rest ih =>
      have hbyte : UInt8.ofNat (Char.ofNat byte.toNat).toNat = byte := by
        rw [toNat_ofNat_byte, UInt8.ofNat_toNat]
      rw [List.map_cons, List.cons_append, literalBytes?, ih, hbyte, Option.map_map]
      rfl

/-- The bytes of a character that stands for itself stand for themselves. -/
theorem isBare_of_mem_walked (hbare : IsBare c) : ∀ byte ∈ walked [c], IsBare byte := by
  by_cases hascii : c.toNat < 0x80
  · rw [walked_cons_of_ascii hascii]
    exact List.forall_mem_singleton.mpr hbare
  · rw [walked, List.flatMap_singleton, List.forall_mem_map]
    intro byte hmem
    have hbeyond := le_of_mem_utf8EncodeChar (Nat.le_of_not_lt hascii) hmem
    rw [← toNat_ofNat_byte] at hbeyond
    refine ⟨by omega, ?_, ?_⟩ <;> intro heq <;> rw [heq] at hbeyond <;>
      exact absurd hbeyond (by decide)

/-- A character is read off the start of a literal in units that denote its bytes. -/
theorem exists_units_escape (c : Char) :
    ∃ units, (∀ {rest body tail}, stringBody rest = some (body, tail) →
        stringBody (walked (escape c) ++ rest) = some (units ++ body, tail)) ∧
      ∀ body, literalBytes? (units ++ body) =
        (literalBytes? body).map (String.utf8EncodeChar c ++ ·) := by
  rcases escape_cases c with ⟨letter, hescape, hletter, hne, hshort, hascii⟩ | ⟨hescape, hlt⟩ |
    ⟨hescape, hbare⟩
  · refine ⟨[.byte c], fun {rest body tail} hrest => ?_, fun body => ?_⟩
    · have hwalked : walked (escape c) = ['\\', letter] := by
        rw [hescape, walked_cons_of_ascii (by decide), walked_cons_of_ascii hletter, walked_nil]
      rw [hwalked]
      exact stringBody_letter hne hshort hrest
    · rw [utf8EncodeChar_of_ascii hascii, List.singleton_append, literalBytes?]
      rfl
  · refine ⟨[.unit c.toNat], fun {rest body tail} hrest => ?_, fun body =>
      literalBytes?_number hlt⟩
    have hdigit : ∀ n < 16, (Text.Hex.digit n).toNat < 0x80 := by decide
    have hwalked : walked (escape c) = escape c := by
      rw [hescape]
      refine walked_of_ascii fun letter hmem => ?_
      simp only [List.mem_cons, List.not_mem_nil, or_false] at hmem
      rcases hmem with rfl | rfl | rfl | rfl | rfl | rfl
      · decide
      · decide
      · decide
      · decide
      · exact hdigit _ (by omega)
      · exact hdigit _ (by omega)
    rw [hwalked, hescape]
    exact stringBody_number hlt hrest
  · refine ⟨(walked [c]).map .byte, fun {rest body tail} hrest => ?_, fun body => ?_⟩
    · rw [hescape]
      exact stringBody_bares (isBare_of_mem_walked hbare) hrest
    · rw [walked, List.flatMap_singleton, List.map_map]
      exact literalBytes?_bytes _

theorem exists_units (text tail : List Char) :
    ∃ units, stringBody (walked (text.flatMap escape) ++ '"' :: tail) = some (units, tail) ∧
      literalBytes? units = some (text.flatMap String.utf8EncodeChar) := by
  induction text with
  | nil => exact ⟨[], by simp [stringBody], rfl⟩
  | cons c rest ih =>
      obtain ⟨body, hbody, hbytes⟩ := ih
      obtain ⟨units, hunits, hdenoted⟩ := exists_units_escape c
      refine ⟨units ++ body, ?_, ?_⟩
      · rw [List.flatMap_cons, walked_append, List.append_assoc]
        exact hunits hbody
      · rw [hdenoted, hbytes, List.flatMap_cons]
        rfl

/-- A text that was quoted is read back, and what follows it is left. -/
theorem string?_quote (s : String) (tail : List Char) :
    string? text? (walked (s.toList.flatMap escape) ++ '"' :: tail) = some (some s, tail) := by
  obtain ⟨units, hunits, hbytes⟩ := exists_units s.toList tail
  have htext : text? units = some s := by
    rw [text?, hbytes, Option.bind_some, fromUTF8?_toList]
  rw [string?, hunits, Option.map_some]
  exact congrArg (fun text => some (text, tail)) htext

end Parser

theorem walked_quote (s : String) :
    walked (quote s) = '"' :: (walked (s.toList.flatMap escape) ++ ['"']) := by
  rw [quote, List.cons_append, walked_cons_of_ascii (by decide), walked_append,
    walked_cons_of_ascii (c := '"') (by decide), walked_nil]

theorem quote_injective {s s' : String} (heq : quote s = quote s') : s = s' := by
  have hwalked := congrArg walked heq
  rw [walked_quote, walked_quote] at hwalked
  have hread := Parser.string?_quote s []
  rw [(List.cons.inj hwalked).2, Parser.string?_quote] at hread
  exact (Option.some.inj (Prod.mk.inj (Option.some.inj hread)).1).symm

end RemoteCall.Json
