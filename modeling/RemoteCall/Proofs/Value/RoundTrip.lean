import RemoteCall.Proofs.Json.Reordered
import RemoteCall.Proofs.Value.Parts
import RemoteCall.Value.Wire

/-!
# Values read back

A value is read back from its tree in whatever order the members stand, and so from its
tree in canonical order.  Identifiers, bytes and whole numbers are read back on their own;
lists, maps and objects by induction on the value, with any bound that the tree stays
below.  Whether the tree was taken in before its use makes no difference.
-/

namespace RemoteCall

open Json (canonical canonicalItems canonicalMembers arrange ReadAs Reordered)

/-! ## Identifiers -/

namespace Uid

theorem forall_mem_encode {P : Char → Prop} {bytes : List UInt8}
    (hdigit : ∀ n < 16, P (Text.Hex.digit n)) : ∀ c ∈ Text.Hex.encode bytes, P c := by
  intro c hmem
  rw [Text.Hex.encode, List.mem_flatMap] at hmem
  obtain ⟨byte, -, hmem⟩ := hmem
  have hlt := byte.toNat_lt
  simp only [List.mem_cons, List.not_mem_nil, or_false] at hmem
  rcases hmem with rfl | rfl <;> exact hdigit _ (by omega)

theorem length_digits (uid : Uid) : uid.digits.length = 32 := by
  have hlength : ∀ bytes : List UInt8, (Text.Hex.encode bytes).length = 2 * bytes.length := by
    intro bytes
    simp [Text.Hex.encode, List.length_flatMap, Nat.mul_comm]
  rw [digits, hlength, uid.length_eq]

theorem ofDigits?_digits (uid : Uid) : ofDigits? uid.digits = some uid := by
  rw [ofDigits?, digits, Text.Hex.pairs?_encode, Option.bind_some, ofBytes?,
    dif_pos uid.length_eq]

theorem length_group {digits : List Char} (hlength : digits.length = 32) :
    (group digits).length = 36 := by
  simp [group, hlength]

/-- Without the hyphens the groups are the digits. -/
theorem filter_group {digits : List Char} (hdigits : ∀ c ∈ digits, c ≠ '-') :
    (group digits).filter (· != '-') = digits := by
  have htake : ∀ n m, ((digits.drop n).take m).filter (· != '-') = (digits.drop n).take m := by
    intro n m
    refine List.filter_eq_self.mpr fun c hmem => ?_
    exact bne_iff_ne.mpr (hdigits c (List.mem_of_mem_drop (List.mem_of_mem_take hmem)))
  have hdrop : (digits.drop 20).filter (· != '-') = digits.drop 20 :=
    List.filter_eq_self.mpr fun c hmem => bne_iff_ne.mpr (hdigits c (List.mem_of_mem_drop hmem))
  have hjoin : ∀ n m, (digits.drop n).take m ++ digits.drop (n + m) = digits.drop n := by
    intro n m
    rw [← List.drop_drop, List.take_append_drop]
  have hfirst := htake 0 8
  rw [List.drop_zero] at hfirst
  simp only [group, List.filter_append, List.filter_cons, hfirst, htake, hdrop, bne_self_eq_false,
    Bool.false_eq_true, if_false, List.append_assoc]
  rw [hjoin 16 4, hjoin 12 4, hjoin 8 4]
  exact List.take_append_drop 8 digits

theorem ofGroups?_hyphenated (uid : Uid) : ofGroups? (group uid.digits) = some uid := by
  have hdigits : ∀ c ∈ uid.digits, c ≠ '-' := forall_mem_encode (by decide)
  rw [ofGroups?, filter_group hdigits, if_pos ⟨uid.length_digits, rfl⟩, ofDigits?_digits]

theorem ofChars?_hyphenated (uid : Uid) : ofChars? (group uid.digits) = some uid := by
  obtain ⟨c, rest, hcons⟩ : ∃ c rest, uid.digits = c :: rest :=
    List.exists_cons_of_length_pos (by rw [uid.length_digits]; decide)
  obtain ⟨tail, hhead⟩ : ∃ tail, group uid.digits = c :: tail := by
    rw [hcons, group]
    exact ⟨_, rfl⟩
  have hdigit : ∀ c ∈ uid.digits, c ≠ '\x7b' ∧ c.toLower ≠ 'u' := forall_mem_encode (by decide)
  obtain ⟨hbrace, hlower⟩ := hdigit c (hcons ▸ List.mem_cons_self)
  have hlength := length_group uid.length_digits
  have hbegins : ((group uid.digits).take 9).map Char.toLower ≠ "urn:uuid:".toList := by
    rw [hhead]
    exact fun heq => hlower (List.cons.inj heq).1
  rw [ofChars?]
  · rw [if_neg (by rw [hlength]; decide), if_neg hbegins, ofGroups?_hyphenated]
  · rw [hhead]
    exact fun _ heq => hbrace (List.cons.inj heq).1

theorem ofJson?_toJson (uid : Uid) : (Json.ofJson? (Json.toJson uid) : Option Uid) = some uid := by
  have hread : ofString uid.hyphenated = .ok uid := by
    rw [ofString, hyphenated, String.toList_ofList, ofChars?_hyphenated]
  change ((ofString uid.hyphenated).toOption : Option Uid) = some uid
  rw [hread]
  rfl

theorem readAs_toJson (uid : Uid) : ReadAs Json.ofJson? (Json.toJson uid) uid :=
  Json.readAs_of_isLeaf trivial uid.ofJson?_toJson

end Uid

/-! ## Whole numbers -/

namespace Json

theorem below?_toNat {bound n : Nat} (hlt : n < bound) : below? bound (.int n) = some n := by
  rw [below?, if_pos ⟨Int.natCast_nonneg n, Int.ofNat_lt.mpr hlt⟩, Int.toNat_natCast]

theorem byte?_toNat (byte : UInt8) : byte? (.int byte.toNat) = some byte := by
  rw [byte?, below?_toNat byte.toNat_lt_size, Option.map_some, UInt8.ofNat_toNat]

theorem word?_toNat (n : UInt32) : word? (.int n.toNat) = some n := by
  rw [word?, below?_toNat n.toNat_lt_size, Option.map_some, UInt32.ofNat_toNat]

theorem readAs_byte? (byte : UInt8) : ReadAs byte? (.int byte.toNat) byte :=
  readAs_of_isLeaf trivial (byte?_toNat byte)

theorem readAs_word? (n : UInt32) : ReadAs word? (.int n.toNat) n :=
  readAs_of_isLeaf trivial (word?_toNat n)

theorem int64?_toInt (n : Int64) : int64? (.int n.toInt) = some n := by
  have hbounds : Int64.minValue.toInt ≤ n.toInt ∧ n.toInt ≤ Int64.maxValue.toInt :=
    ⟨Int64.minValue_le_toInt n, n.toInt_le⟩
  rw [int64?, if_pos hbounds, Int64.ofInt_toInt]

end Json

/-! ## Records -/

theorem RemoteObject.readAs_toJson (remote : RemoteObject) :
    ReadAs Json.ofJson? (Json.toJson remote) remote := by
  change ReadAs (fun tree => (Json.fields? _ tree).bind _) (.obj _) remote
  refine Json.readAs_of_fields? (by simp) rfl ?_
  rintro _ (_ | ⟨⟨hid⟩, _ | ⟨⟨hservice⟩, _ | ⟨⟨htypeName⟩, ⟨⟩⟩⟩⟩)
  simp only [remote.id.readAs_toJson _ hid, remote.service.readAs_toJson _ hservice,
    Json.readAs_str? _ _ htypeName, Option.bind_eq_bind, Option.bind_some, Option.pure_def]

namespace Value

theorem canonical_tagged (kind : String) (content : Json) :
    canonical (tagged kind content) = tagged kind (canonical content) := by
  have hgt : compare (String.ofList (Json.quote "value")) (String.ofList (Json.quote "type")) =
      .gt := by decide +kernel
  change Json.obj (arrange [("type", .str kind), ("value", canonical content)]) = _
  simp only [arrange, Entries.ofList, Entries.insert, List.map_cons, List.map_nil,
    List.foldl_cons, List.foldl_nil, hgt, tagged]

theorem tagged?_tagged (kind : String) (content : Json) (waited : Bool) :
    Json.tagged? "type" "value" kinds waited (tagged kind content) =
      some ⟨kind, some content, waited⟩ := by
  rfl

theorem ofJsonWithin?_tagged {fuel : Nat} {waited : Bool} {kind : String} {content : Json}
    (hkind : kind ≠ "none") :
    ofJsonWithin? (fuel + 1) waited (tagged kind content) =
      holding? (ofJsonWithin? fuel waited) kind content := by
  simp only [ofJsonWithin?, tagged?_tagged, if_neg hkind, Option.bind_some]

/-- What a tagged tree holds is read in whatever order tag and content stand. -/
theorem readAs_tagged {fuel : Nat} {waited : Bool} {kind : String} {content : Json}
    {value : Value} (hkind : kind ≠ "none") (hregular : content.Regular)
    (hcontent : ∀ waited, ReadAs (holding? (ofJsonWithin? fuel waited) kind) content value) :
    ReadAs (ofJsonWithin? (fuel + 1) waited) (tagged kind content) value := by
  intro tree hreordered
  obtain ⟨content', waited', hreordered, htagged⟩ :=
    Json.tagged?_of_reordered waited (by decide) hregular hreordered
  rw [ofJsonWithin?, htagged]
  dsimp only
  rw [if_neg hkind, Option.bind_some, hcontent waited' content' hreordered]

theorem readAs_none (fuel : Nat) (waited : Bool) :
    ReadAs (ofJsonWithin? (fuel + 1) waited) (toJson .none) .none := by
  intro tree hreordered
  rw [Json.eq_of_reordered_bare hreordered]
  rfl

theorem holding?_map (read : Json → Option Value) (content : Json) :
    holding? read "map" content =
      ((Json.members? read content).map Entries.ofList).map .map := by
  rw [Option.map_map]
  rfl

theorem holding?_remote (read : Json → Option Value) (content : Json) :
    holding? read "remote" content = (Json.ofJson? content).map .remote := rfl

theorem holding?_object (read : Json → Option Value) (content : Json) :
    holding? read "object" content = (objectOfJson? read content).map .object := rfl

/-! ## Values -/

theorem itemsToJson_eq_map (items : List Value) : itemsToJson items = items.map toJson := by
  induction items with
  | nil => rfl
  | cons item rest ih => rw [itemsToJson, ih, List.map_cons]

theorem entriesToJson_eq_map (entries : List (String × Value)) :
    entriesToJson entries = entries.map fun entry => (entry.1, toJson entry.2) := by
  induction entries with
  | nil => rfl
  | cons entry rest ih => rw [entriesToJson, ih, List.map_cons]

theorem keys_entriesToJson (entries : List (String × Value)) :
    (entriesToJson entries).map Prod.fst = entries.map Prod.fst := by
  rw [entriesToJson_eq_map, List.map_map]
  rfl

theorem canonicalItems_itemsToJson (items : List Value) :
    canonicalItems (itemsToJson items) = items.map fun item => canonical (toJson item) := by
  rw [itemsToJson_eq_map, Json.canonicalItems_eq_map, List.map_map]
  rfl

theorem canonicalMembers_entriesToJson (entries : List (String × Value)) :
    canonicalMembers (entriesToJson entries) =
      entries.map fun entry => (entry.1, canonical (toJson entry.2)) := by
  rw [entriesToJson_eq_map, Json.canonicalMembers_eq_map, List.map_map]
  rfl

theorem keys_canonicalMembers (entries : List (String × Value)) :
    (canonicalMembers (entriesToJson entries)).map Prod.fst = entries.map Prod.fst := by
  rw [canonicalMembers_entriesToJson, List.map_map]
  rfl

theorem readAs_objectJson {read : Json → Option Value} (object : ObjectValue)
    (hascending : Entries.Ascending object.fields)
    (hfields : ∀ entry ∈ object.fields, ReadAs read (toJson entry.2) entry.2) :
    ReadAs (objectOfJson? read)
      (objectJson object.name object.version (entriesToJson object.fields)) object := by
  change ReadAs (fun tree => (Json.fields? _ tree).bind _) (.obj _) object
  refine Json.readAs_of_fields? (by simp) rfl ?_
  rintro _ (_ | ⟨⟨hname⟩, _ | ⟨⟨hversion⟩, _ | ⟨⟨hentries⟩, ⟨⟩⟩⟩⟩)
  rw [entriesToJson_eq_map] at hentries
  simp only [Json.readAs_str? _ _ hname, Json.readAs_word? _ _ hversion, Json.orElse,
    Json.readAs_members? hascending hfields _ hentries, Option.bind_eq_bind, Option.bind_some,
    Option.pure_def]

theorem canonical_objectJson (name : String) (version : UInt32)
    (members : List (String × Json)) :
    canonical (objectJson name version members) =
      .obj (arrange [("canonical_name", .str name), ("version", .int version.toNat),
        ("fields", .obj (arrange (canonicalMembers members)))]) := by
  simp only [objectJson, canonical, canonicalMembers]

theorem regular_tagged {kind : String} {content : Json} (hcontent : content.Regular) :
    (tagged kind content).Regular :=
  ⟨by simp, trivial, hcontent, trivial⟩

mutual

theorem regular_toJson : ∀ (value : Value), value.Ordered → (toJson value).Regular
  | .none => fun _ => ⟨List.nodup_singleton _, trivial, trivial⟩
  | .bool _ => fun _ => regular_tagged trivial
  | .int _ => fun _ => regular_tagged trivial
  | .float _ => fun _ => regular_tagged trivial
  | .str _ => fun _ => regular_tagged trivial
  | .bytes data => fun _ => regular_tagged (Json.regularItems_iff.mpr fun item hmem => by
      obtain ⟨byte, -, rfl⟩ := List.mem_map.mp hmem
      trivial)
  | .uid _ => fun _ => regular_tagged trivial
  | .list items => fun hordered => regular_tagged (regularItems_toJson items hordered)
  | .map entries => fun hordered => regular_tagged (regularMembers_toJson entries hordered)
  | .object ⟨_, _, fields⟩ => fun hordered => regular_tagged
      ⟨by simp, trivial, trivial, regularMembers_toJson fields hordered, trivial⟩
  | .remote _ => fun _ => regular_tagged ⟨by simp, trivial, trivial, trivial, trivial⟩
  | .pointer _ => fun _ => regular_tagged trivial

theorem regularItems_toJson : ∀ (items : List Value), OrderedItems items →
    Json.RegularItems (itemsToJson items)
  | [] => fun _ => trivial
  | item :: rest => fun hordered =>
      ⟨regular_toJson item hordered.1, regularItems_toJson rest hordered.2⟩

theorem regularMembers_toJson : ∀ (entries : List (String × Value)),
    Entries.Ascending entries ∧ OrderedEntries entries →
      (Json.obj (entriesToJson entries)).Regular
  | [] => fun _ => ⟨List.nodup_nil, trivial⟩
  | (_, value) :: rest => fun hordered =>
      ⟨keys_entriesToJson _ ▸ Entries.nodup_keys hordered.1, regular_toJson value hordered.2.1,
        (regularMembers_toJson rest ⟨(List.pairwise_cons.mp hordered.1).2, hordered.2.2⟩).2⟩

end

mutual

/-- A value is read back from its tree. -/
theorem readAs_ofJsonWithin? : ∀ (value : Value) (fuel : Nat) (waited : Bool),
    value.Ordered → (toJson value).depth ≤ fuel →
      ReadAs (ofJsonWithin? (fuel + 1) waited) (toJson value) value
  | .none => fun fuel waited _ _ => readAs_none fuel waited
  | .bool b => fun _ _ _ _ => readAs_tagged (by decide) trivial fun _ =>
      (Json.readAs_bool? b).map Value.bool
  | .int n => fun _ _ _ _ => readAs_tagged (by decide) trivial fun _ =>
      Json.readAs_of_isLeaf trivial (congrArg (Option.map Value.int) (Json.int64?_toInt n))
  | .float x => fun _ _ _ _ => readAs_tagged (by decide) trivial fun _ =>
      Json.readAs_of_isLeaf trivial rfl
  | .str s => fun _ _ _ _ => readAs_tagged (by decide) trivial fun _ =>
      (Json.readAs_str? s).map Value.str
  | .bytes data => fun _ _ hordered _ => by
      refine readAs_tagged (by decide) (regular_toJson (.bytes data) hordered).2.2.1 fun _ => ?_
      exact (Json.readAs_list? fun byte _ => Json.readAs_byte? byte).map Value.bytes
  | .uid id => fun _ _ _ _ => readAs_tagged (by decide) trivial fun _ =>
      id.readAs_toJson.map Value.uid
  | .list items => by
      intro fuel waited hordered hdepth
      obtain ⟨less, rfl, hcontent⟩ := Json.exists_of_depth_tagged_le hdepth
      rw [Json.depth] at hcontent
      refine readAs_tagged (by decide) (regularItems_toJson items hordered) fun waited => ?_
      have hitems := Json.readAs_list? (readAs_items items less waited hordered (by omega))
      rw [← itemsToJson_eq_map] at hitems
      exact hitems.map Value.list
  | .map entries => by
      intro fuel waited hordered hdepth
      obtain ⟨less, rfl, hcontent⟩ := Json.exists_of_depth_tagged_le hdepth
      rw [Json.depth] at hcontent
      refine readAs_tagged (by decide) (regularMembers_toJson entries hordered) fun waited => ?_
      have hentries := Json.readAs_members? hordered.1
        (readAs_entries entries less waited hordered.2 (by omega))
      rw [← entriesToJson_eq_map] at hentries
      rw [funext (holding?_map _)]
      exact hentries.map Value.map
  | .object ⟨name, version, fields⟩ => by
      intro fuel waited hordered hdepth
      obtain ⟨less, rfl, hcontent⟩ := Json.exists_of_depth_tagged_le hdepth
      have hobject : (objectJson name version (entriesToJson fields)).depth =
        1 + max 0 (max 0 (max (1 + Json.depthMembers (entriesToJson fields)) 0)) := rfl
      refine readAs_tagged (by decide)
        (regular_toJson (.object ⟨name, version, fields⟩) hordered).2.2.1 fun waited => ?_
      exact (readAs_objectJson ⟨name, version, fields⟩ hordered.1
        (readAs_entries fields less waited hordered.2 (by omega))).map Value.object
  | .remote there => fun _ _ hordered _ =>
      readAs_tagged (by decide) (regular_toJson (.remote there) hordered).2.2.1 fun _ =>
        there.readAs_toJson.map Value.remote
  | .pointer id => fun _ _ _ _ => readAs_tagged (by decide) trivial fun _ =>
      id.readAs_toJson.map Value.pointer

theorem readAs_items : ∀ (items : List Value) (fuel : Nat) (waited : Bool),
    OrderedItems items → Json.depthItems (itemsToJson items) ≤ fuel →
      ∀ item ∈ items, ReadAs (ofJsonWithin? (fuel + 1) waited) (toJson item) item
  | [] => fun _ _ _ _ _ hmem => nomatch hmem
  | item :: rest => by
      intro fuel waited hordered hdepth
      rw [itemsToJson, Json.depthItems, Nat.max_le] at hdepth
      exact List.forall_mem_cons.mpr
        ⟨readAs_ofJsonWithin? item fuel waited hordered.1 hdepth.1,
          readAs_items rest fuel waited hordered.2 hdepth.2⟩

theorem readAs_entries : ∀ (entries : List (String × Value)) (fuel : Nat)
    (waited : Bool), OrderedEntries entries →
      Json.depthMembers (entriesToJson entries) ≤ fuel →
      ∀ entry ∈ entries, ReadAs (ofJsonWithin? (fuel + 1) waited) (toJson entry.2) entry.2
  | [] => fun _ _ _ _ _ hmem => nomatch hmem
  | (name, value) :: rest => by
      intro fuel waited hordered hdepth
      rw [entriesToJson, Json.depthMembers, Nat.max_le] at hdepth
      exact List.forall_mem_cons.mpr
        ⟨readAs_ofJsonWithin? value fuel waited hordered.1 hdepth.1,
          readAs_entries rest fuel waited hordered.2 hdepth.2⟩

end

theorem readAs_toJson {value : Value} (hordered : value.Ordered) :
    ReadAs ofJson? (toJson value) value := by
  intro tree hreordered
  exact readAs_ofJsonWithin? value tree.depth false hordered
    (Nat.le_of_eq (Json.depth_of_reordered hreordered).symm) tree hreordered

/-- Whether the tree was taken in before its use makes no difference, and every bound that
it stays below will do. -/
theorem ofJsonWithin?_canonical {value : Value} {fuel : Nat} (waited : Bool)
    (hordered : value.Ordered) (hdepth : (canonical (toJson value)).depth ≤ fuel) :
    ofJsonWithin? (fuel + 1) waited (canonical (toJson value)) = some value := by
  have hreordered := Json.reordered_canonical (regular_toJson value hordered)
  rw [Json.depth_of_reordered hreordered] at hdepth
  exact readAs_ofJsonWithin? value fuel waited hordered hdepth _ hreordered

theorem ofJson?_canonical {value : Value} (hordered : value.Ordered) :
    ofJson? (canonical (toJson value)) = some value :=
  readAs_toJson hordered _ (Json.reordered_canonical (regular_toJson value hordered))

/-! ## Values that are told by their texts -/

/-- What is read back as it was written: names ascend at every depth, as maps and objects
keep them, and no part is a floating-point number. -/
structure Portable (value : Value) : Prop where
  ordered : value.Ordered
  floatFree : ∀ x, .float x ∉ value.parts

theorem exact_tagged {kind : String} {content : Json} (hcontent : content.Exact) :
    (tagged kind content).Exact :=
  ⟨trivial, hcontent, trivial⟩

mutual

theorem exact_toJson : ∀ (value : Value), (∀ x, .float x ∉ value.parts) → (toJson value).Exact
  | .none => fun _ => ⟨trivial, trivial⟩
  | .bool _ => fun _ => exact_tagged trivial
  | .int n => fun _ => exact_tagged
      ⟨Int64.minValue_le_toInt n, Int.lt_trans n.toInt_lt (by decide)⟩
  | .float x => fun hfree => absurd List.mem_cons_self (hfree x)
  | .str _ => fun _ => exact_tagged trivial
  | .bytes data => fun _ => exact_tagged (Json.exactItems_iff.mpr fun item hmem => by
      obtain ⟨byte, -, rfl⟩ := List.mem_map.mp hmem
      exact Json.exact_natCast (Nat.lt_trans byte.toNat_lt_size (by decide)))
  | .uid _ => fun _ => exact_tagged trivial
  | .list items => fun hfree => exact_tagged
      (exactItems_toJson items fun x hmem => hfree x (List.mem_cons_of_mem _ hmem))
  | .map entries => fun hfree => exact_tagged
      (exactMembers_toJson entries fun x hmem => hfree x (List.mem_cons_of_mem _ hmem))
  | .object ⟨_, version, fields⟩ => fun hfree => exact_tagged
      ⟨trivial, Json.exact_natCast (Nat.lt_trans version.toNat_lt_size (by decide)),
        exactMembers_toJson fields fun x hmem => hfree x (List.mem_cons_of_mem _ hmem), trivial⟩
  | .remote _ => fun _ => exact_tagged ⟨trivial, trivial, trivial, trivial⟩
  | .pointer _ => fun _ => exact_tagged trivial

theorem exactItems_toJson : ∀ (items : List Value), (∀ x, .float x ∉ insideItems items) →
    Json.ExactItems (itemsToJson items)
  | [] => fun _ => trivial
  | item :: rest => fun hfree =>
      ⟨exact_toJson item fun x hmem => hfree x (List.mem_append_left (insideItems rest) hmem),
        exactItems_toJson rest fun x hmem => hfree x
          (List.mem_append_right item.parts hmem)⟩

theorem exactMembers_toJson : ∀ (entries : List (String × Value)),
    (∀ x, .float x ∉ insideEntries entries) → Json.ExactMembers (entriesToJson entries)
  | [] => fun _ => trivial
  | (_, value) :: rest => fun hfree =>
      ⟨exact_toJson value fun x hmem => hfree x (List.mem_append_left (insideEntries rest) hmem),
        exactMembers_toJson rest fun x hmem => hfree x
          (List.mem_append_right value.parts hmem)⟩

end

end Value

end RemoteCall
