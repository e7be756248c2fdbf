import RemoteCall.Call.Basic
import RemoteCall.Call.Result
import RemoteCall.Proofs.Signing.Envelope
import RemoteCall.Proofs.Value.Nesting

/-!
# Calls and results read back

What is signed and sent is read back: values without floating-point numbers, and calls
and results that are made of such values, exactly if they nest no more arrays and
objects than are read.  That limit holds for the call or result as a whole, which nests
its values deeper than they are by themselves.
-/

namespace RemoteCall

open Json (canonical canonicalItems canonicalMembers arrange truncate nestingLimit)

/-! ## Reading back -/

/-- The encoded form is decoded as what was encoded, and an envelope signed with any key
opens to it, if the key's signature of the encoded form is verified. -/
def RoundTrips {α : Type} [Json.Wire α] (a : α) : Prop :=
  ∃ bytes, Codec.encode a = .ok bytes ∧ Codec.decode bytes = .ok a ∧
    ∀ key : SigningKey, key.verifyKey.verify bytes (key.sign bytes) →
      ∃ envelope : Envelope α, Envelope.sign key a = .ok envelope ∧
        envelope.openPayload.1 = .ok a

section Codec

variable {α : Type} [Json.Wire α] {a : α}

theorem encode_of_exact (hexact : (Json.toJson a).Exact) :
    Codec.encode a =
      .ok (String.ofList (Json.toJson a).canonicalText).toUTF8.toList := by
  rw [Codec.encode, Codec.encodeJson, Json.nonFinite?_of_exact _ hexact]

theorem decode_eq_ok_iff_of_exact {b : α} (hexact : (Json.toJson a).Exact) :
    Codec.decode (String.ofList (Json.toJson a).canonicalText).toUTF8.toList = .ok b ↔
      Json.ofJson? (truncate nestingLimit (canonical (Json.toJson a))) = some b := by
  rw [Codec.decode, Json.parse?_canonicalText hexact, Option.bind_some]
  cases (Json.ofJson? (truncate nestingLimit (canonical (Json.toJson a))) : Option α) <;> simp

/-- What is told by its text and read back from its tree is read back from its bytes, if
nothing is read from a tree that is cut off. -/
theorem roundTrips_iff_of_exact (hexact : (Json.toJson a).Exact)
    (hread : Json.ofJson? (canonical (Json.toJson a)) = some a)
    (hdepth : (Json.ofJson? (truncate nestingLimit (canonical (Json.toJson a))) :
      Option α).isSome → (Json.toJson a).depth ≤ nestingLimit) :
    RoundTrips a ↔ (Json.toJson a).depth ≤ nestingLimit := by
  have hencode := encode_of_exact hexact
  constructor
  · -- The bytes are settled, so there is only one tree that could be read.
    rintro ⟨bytes, hbytes, hdecode, -⟩
    cases hencode.symm.trans hbytes
    exact hdepth (Option.isSome_of_eq_some ((decode_eq_ok_iff_of_exact hexact).mp hdecode))
  · intro hdepth
    have hdecode := (decode_eq_ok_iff_of_exact hexact).mpr
      ((congrArg Json.ofJson? (Json.truncate_canonical hdepth)).trans hread)
    refine ⟨_, hencode, hdecode, fun key hverify => ⟨_, by rw [Envelope.sign, hencode], ?_⟩⟩
    exact (Envelope.genuine_ofParts _ _ _).openPayload_fst.trans
      (Envelope.openAnew_eq_ok_iff.mpr ⟨hverify, hdecode⟩)

end Codec

theorem Value.roundTrips_iff {value : Value} (hportable : value.Portable) :
    RoundTrips value ↔ (Json.toJson value).depth ≤ nestingLimit :=
  roundTrips_iff_of_exact (Value.exact_toJson value hportable.floatFree)
    (Value.ofJson?_canonical hportable.ordered) fun hread =>
      Value.depth_le_of_isRead value hportable.ordered (Value.isRead_of_ofJson? hread)

/-! ## Calls -/

namespace Call

/-- Every argument is read back as it was written. -/
def Portable (call : Call) : Prop :=
  (∀ value ∈ call.arguments.args, value.Portable) ∧
    ∀ entry ∈ call.arguments.kwargs.entries, entry.2.Portable

variable {call : Call}

theorem exact_toJson (hportable : call.Portable) : (Json.toJson call).Exact := by
  have hargs : Json.ExactItems (Value.itemsToJson call.arguments.args) := by
    refine Value.exactItems_toJson _ fun x hmem => ?_
    obtain ⟨value, hvalue, hpart⟩ := Value.mem_insideItems.mp hmem
    exact (hportable.1 value hvalue).floatFree x hpart
  have hkwargs : Json.ExactMembers (Value.entriesToJson call.arguments.kwargs.entries) := by
    refine Value.exactMembers_toJson _ fun x hmem => ?_
    obtain ⟨entry, hentry, hpart⟩ := Value.mem_insideEntries.mp hmem
    exact (hportable.2 entry hentry).floatFree x hpart
  exact ⟨trivial, trivial, hargs, hkwargs, trivial, trivial⟩

theorem regular_toJson (hportable : call.Portable) : (Json.toJson call).Regular :=
  ⟨by simp, trivial, trivial,
    Value.regularItems_toJson _
      (Value.orderedItems_iff.mpr fun value hmem => (hportable.1 value hmem).ordered),
    Value.regularMembers_toJson _ ⟨call.arguments.kwargs.ascending,
      Value.orderedEntries_iff.mpr fun entry hmem => (hportable.2 entry hmem).ordered⟩,
    trivial, trivial⟩

theorem readAs_toJson (hportable : call.Portable) :
    Json.ReadAs Json.ofJson? (Json.toJson call) call := by
  change Json.ReadAs (fun tree => (Json.fields? _ tree).bind _) (.obj _) call
  refine Json.readAs_of_fields? (by simp) rfl ?_
  rintro _ (_ | ⟨⟨htarget⟩, _ | ⟨⟨hpath⟩, _ | ⟨⟨hargs⟩, _ | ⟨⟨hkwargs⟩, _ | ⟨⟨hblocking⟩, ⟨⟩⟩⟩⟩⟩⟩)
  rw [Value.itemsToJson_eq_map] at hargs
  rw [Value.entriesToJson_eq_map] at hkwargs
  have hargs := Json.readAs_list?
    (fun value hmem => Value.readAs_toJson (hportable.1 value hmem).ordered) _ hargs
  have hkwargs := Json.readAs_map?
    (fun entry hmem => Value.readAs_toJson (hportable.2 entry hmem).ordered) _ hkwargs
  simp only [call.target.readAs_toJson _ htarget, Json.readAs_str? _ _ hpath, Json.orElse, hargs,
    hkwargs, Json.readAs_bool? _ _ hblocking, Option.bind_eq_bind, Option.bind_some,
    Option.pure_def]

theorem ofJson?_canonical (hportable : call.Portable) :
    (Json.ofJson? (canonical (Json.toJson call)) : Option Call) = some call :=
  readAs_toJson hportable _ (Json.reordered_canonical (regular_toJson hportable))

theorem depth_toJson (call : Call) :
    (Json.toJson call).depth =
      2 + max (Json.depthItems (Value.itemsToJson call.arguments.args))
        (Json.depthMembers (Value.entriesToJson call.arguments.kwargs.entries)) := by
  have hdepth : (Json.toJson call).depth = 1 + max 0 (max 0 (max
      (1 + Json.depthItems (Value.itemsToJson call.arguments.args)) (max
        (1 + Json.depthMembers (Value.entriesToJson call.arguments.kwargs.entries))
        (max 0 0)))) := rfl
  omega

/-- Reading a call takes reading its arguments. -/
theorem exists_of_truncate {room : Nat}
    (hread : (Json.ofJson? (truncate room (canonical (Json.toJson call))) :
      Option Call).isSome) :
    ∃ less, room = less + 1 ∧
      (Json.list? Value.ofJson? (truncate less
        (.arr (canonicalItems (Value.itemsToJson call.arguments.args))))).isSome ∧
      (Json.members? Value.ofJson? (truncate less (.obj (arrange (canonicalMembers
        (Value.entriesToJson call.arguments.kwargs.entries)))))).isSome := by
  obtain ⟨target, path, ⟨args, kwargs⟩, blocking⟩ := call
  change ((Json.fields? ["target", "path", "args", "kwargs", "blocking"]
    (truncate room (.obj (arrange [("target", Json.toJson target), ("path", .str path),
      ("args", .arr (canonicalItems (Value.itemsToJson args))),
      ("kwargs", .obj (arrange (canonicalMembers (Value.entriesToJson kwargs.entries)))),
      ("blocking", .bool blocking)])))).bind _).isSome at hread
  cases hfields : Json.fields? ["target", "path", "args", "kwargs", "blocking"]
      (truncate room (.obj (arrange [("target", Json.toJson target), ("path", .str path),
        ("args", .arr (canonicalItems (Value.itemsToJson args))),
        ("kwargs", .obj (arrange (canonicalMembers (Value.entriesToJson kwargs.entries)))),
        ("blocking", .bool blocking)]))) with
  | none => simp [hfields] at hread
  | some fields =>
      rw [hfields, Option.bind_some] at hread
      obtain ⟨less, rfl, heq⟩ := Json.exists_of_fields?_truncate (by simp) hfields
      cases heq
      refine ⟨less, rfl, ?_, ?_⟩
      · cases hargs : Json.list? Value.ofJson?
            (truncate less (.arr (canonicalItems (Value.itemsToJson args)))) with
        | none => simp [Json.orElse, hargs] at hread
        | some args => rfl
      · cases hkwargs : Json.members? Value.ofJson? (truncate less
            (.obj (arrange (canonicalMembers (Value.entriesToJson kwargs.entries))))) with
        | none => simp [Json.orElse, Json.map?, hkwargs] at hread
        | some kwargs => rfl

/-- A call has no part that is skipped when it is read. -/
theorem depth_le_of_read {room : Nat} (hportable : call.Portable)
    (hread : (Json.ofJson? (truncate room (canonical (Json.toJson call))) :
      Option Call).isSome) :
    (Json.toJson call).depth ≤ room := by
  obtain ⟨room, rfl, hlist, hmap⟩ := exists_of_truncate hread
  obtain ⟨room, rfl, hargs⟩ := Value.exists_of_items_truncate hlist
  obtain ⟨_, ⟨rfl⟩, hkwargs⟩ :=
    Value.exists_of_entries_truncate call.arguments.kwargs.ascending hmap
  have hitems := Value.depthItems_le_of_isRead call.arguments.args
    (Value.orderedItems_iff.mpr fun value hmem => (hportable.1 value hmem).ordered)
    fun value hmem => Value.isRead_of_ofJson? (hargs value hmem)
  have hentries := Value.depthMembers_le_of_isRead call.arguments.kwargs.entries
    (Value.orderedEntries_iff.mpr fun entry hmem => (hportable.2 entry hmem).ordered)
    fun entry hmem => Value.isRead_of_ofJson? (hkwargs entry hmem)
  rw [depth_toJson]
  omega

theorem roundTrips_iff (hportable : call.Portable) :
    RoundTrips call ↔ (Json.toJson call).depth ≤ nestingLimit :=
  roundTrips_iff_of_exact (exact_toJson hportable) (ofJson?_canonical hportable)
    (depth_le_of_read hportable)

end Call

/-! ## Results -/

namespace ErrorDescriptor

theorem exact_toJson (error : ErrorDescriptor) : (Json.toJson error).Exact := by
  obtain ⟨code, message, _ | trace⟩ := error
  · exact ⟨trivial, trivial, trivial⟩
  · exact ⟨trivial, trivial, trivial, trivial⟩

theorem regular_toJson (error : ErrorDescriptor) : (Json.toJson error).Regular := by
  obtain ⟨code, message, _ | trace⟩ := error
  · exact ⟨by simp, trivial, trivial, trivial⟩
  · exact ⟨by simp, trivial, trivial, trivial, trivial⟩

/-- A missing trace is read back as well as one that is there. -/
theorem readAs_toJson (error : ErrorDescriptor) :
    Json.ReadAs Json.ofJson? (Json.toJson error) error := by
  have hfields : Json.fields? ["code", "message", "trace"] (Json.toJson error) =
      some [some (.str error.code), some (.str error.message), error.trace.map .str] := by
    obtain ⟨code, message, _ | trace⟩ := error
    · rfl
    · rfl
  change Json.ReadAs (fun tree => (Json.fields? _ tree).bind _) (.obj _) error
  refine Json.readAs_of_fields? error.regular_toJson.1 hfields ?_
  rintro _ (_ | ⟨⟨hcode⟩, _ | ⟨⟨hmessage⟩, _ | ⟨htrace, ⟨⟩⟩⟩⟩)
  have htrace := Json.optional_of_rel rfl (fun trace _ => Json.readAs_str? trace) htrace
  simp only [Json.readAs_str? _ _ hcode, Json.readAs_str? _ _ hmessage, htrace,
    Option.bind_eq_bind, Option.bind_some, Option.pure_def]

theorem ofJson?_canonical (error : ErrorDescriptor) :
    (Json.ofJson? (canonical (Json.toJson error)) : Option ErrorDescriptor) = some error :=
  error.readAs_toJson _ (Json.reordered_canonical error.regular_toJson)

end ErrorDescriptor

namespace CallResult

/-- A value in the result is read back as it was written. -/
def Portable : CallResult → Prop
  | .ok value _ => value.Portable
  | .err _ => True

variable {result : CallResult}

theorem exact_toJson (hportable : result.Portable) : (Json.toJson result).Exact := by
  cases result with
  | ok value update =>
      exact ⟨trivial, Value.exact_toJson value hportable.floatFree, trivial, trivial⟩
  | err error => exact ⟨trivial, error.exact_toJson, trivial⟩

theorem canonical_ok (value : Value) (update : Bool) :
    canonical (Json.toJson (ok value update)) =
      .obj (arrange [("status", .str "ok"), ("value", canonical (Json.toJson value)),
        ("require_api_update", .bool update)]) := rfl

theorem canonical_err (error : ErrorDescriptor) :
    canonical (Json.toJson (err error)) =
      .obj (arrange [("status", .str "err"), ("error", canonical (Json.toJson error))]) := rfl

/-- The status is found among the members wherever it stands, and the others are left. -/
theorem status?_arrange (status : String) (members : List (String × Json))
    (hnodup : ("status" :: members.map Prod.fst).Nodup) :
    ∃ rest, rest.Perm members ∧
      status? (.obj (arrange (("status", .str status) :: members))) = some (status, .obj rest) := by
  have hperm : (arrange (("status", Json.str status) :: members)).Perm
      (("status", .str status) :: members) := Json.arrange_perm hnodup
  have hne : ∀ member ∈ members, member.1 ≠ "status" := fun member hmem heq =>
    (List.nodup_cons.mp hnodup).1 (heq ▸ List.mem_map_of_mem hmem)
  have hstatus : members.filter (fun member => member.1 == "status") = [] :=
    List.filter_eq_nil_iff.mpr fun member hmem => by simpa using hne member hmem
  have hothers : members.filter (fun member => member.1 != "status") = members :=
    List.filter_eq_self.mpr fun member hmem => bne_iff_ne.mpr (hne member hmem)
  have hfound := hperm.filter fun member => member.1 == "status"
  have hleft := hperm.filter fun member => member.1 != "status"
  rw [List.filter_cons_of_pos rfl, hstatus, List.perm_singleton] at hfound
  rw [List.filter_cons_of_neg (by simp), hothers] at hleft
  exact ⟨_, hleft, by simp only [status?, hfound]⟩

theorem ofJson?_canonical (hportable : result.Portable) :
    (Json.ofJson? (canonical (Json.toJson result)) : Option CallResult) = some result := by
  have hreadable : (canonical (Json.toJson result)).isReadable :=
    Json.isReadable_of_exact _ (Json.exact_canonical (exact_toJson hportable))
  change ofJson? (canonical (Json.toJson result)) = some result
  rw [ofJson?, if_pos hreadable]
  cases result with
  | ok value update =>
      obtain ⟨rest, hperm, hstatus⟩ := status?_arrange "ok"
        [("value", canonical (Json.toJson value)), ("require_api_update", .bool update)] (by simp)
      have hfields : Json.fields? ["value", "require_api_update"] (.obj rest) =
          some [some (canonical (Json.toJson value)), some (.bool update)] := by
        rw [Json.fields?_of_perm (by simp) hperm]
        rfl
      have hvalue : Value.ofJsonWithin? ((canonical (Json.toJson value)).depth + 1) true
          (canonical (Json.toJson value)) = some value :=
        Value.ofJsonWithin?_canonical true hportable.ordered (Nat.le_refl _)
      rw [canonical_ok, hstatus]
      simp only [Option.bind_eq_bind, Option.bind_some, hfields, hvalue, Json.orElse, Json.bool?,
        Option.pure_def]
  | err error =>
      obtain ⟨rest, hperm, hstatus⟩ := status?_arrange "err"
        [("error", canonical (Json.toJson error))] (by simp)
      have hfields : Json.fields? ["error"] (.obj rest) =
          some [some (canonical (Json.toJson error))] := by
        rw [Json.fields?_of_perm (by simp) hperm]
        rfl
      rw [canonical_err, hstatus]
      simp only [Option.bind_eq_bind, Option.bind_some, hfields, error.ofJson?_canonical,
        Option.pure_def]

theorem depth_toJson_ok (value : Value) (update : Bool) :
    (Json.toJson (ok value update)).depth = 1 + (Json.toJson value).depth := by
  have hdepth : (Json.toJson (ok value update)).depth =
      1 + max 0 (max (Json.toJson value).depth (max 0 0)) := rfl
  omega

/-- A result is taken in as a whole before it is read. -/
theorem depth_le_of_read {room : Nat} (hportable : result.Portable)
    (hread : (Json.ofJson? (truncate room (canonical (Json.toJson result))) :
      Option CallResult).isSome) :
    (Json.toJson result).depth ≤ room := by
  have hreadable : (canonical (Json.toJson result)).isReadable :=
    Json.isReadable_of_exact _ (Json.exact_canonical (exact_toJson hportable))
  have hdepth : (canonical (Json.toJson result)).depth ≤ room := by
    refine (Json.isReadable_truncate_iff _ hreadable).mp ?_
    by_contra hnot
    change (ofJson? _).isSome at hread
    rw [ofJson?, if_neg hnot] at hread
    cases hread
  cases result with
  | ok value update =>
      have hlt : (canonical (Json.toJson value)).depth < room :=
        Json.depth_lt_of_mem_arrange (by simp) (canonical_ok value update ▸ hdepth)
          ("value", canonical (Json.toJson value)) (by simp)
      have hle : (Json.toJson value).depth ≤ (canonical (Json.toJson value)).depth :=
        Value.depth_le_canonical hportable.ordered
      rw [depth_toJson_ok]
      omega
  | err error =>
      have hlt : (canonical (Json.toJson error)).depth < room :=
        Json.depth_lt_of_mem_arrange (by simp) (canonical_err error ▸ hdepth)
          ("error", canonical (Json.toJson error)) (by simp)
      have hpos : 0 < (canonical (Json.toJson error)).depth := Nat.add_pos_left Nat.one_pos _
      have htwo : (Json.toJson (err error)).depth = 2 := by
        obtain ⟨code, message, _ | trace⟩ := error <;> rfl
      omega

theorem roundTrips_iff (hportable : result.Portable) :
    RoundTrips result ↔ (Json.toJson result).depth ≤ nestingLimit :=
  roundTrips_iff_of_exact (exact_toJson hportable) (ofJson?_canonical hportable)
    (depth_le_of_read hportable)

end CallResult

/-! ## All that is signed and sent -/

namespace Codec

/-- Values without floating-point numbers are read back, and so are the calls and results
that are made of them, exactly if the tree of the whole is not too deep. -/
theorem roundTrips_iff_of_portable :
    (∀ value : Value, value.Portable →
      (RoundTrips value ↔ (Json.toJson value).depth ≤ nestingLimit)) ∧
    (∀ call : Call, call.Portable →
      (RoundTrips call ↔ (Json.toJson call).depth ≤ nestingLimit)) ∧
    ∀ result : CallResult, result.Portable →
      (RoundTrips result ↔ (Json.toJson result).depth ≤ nestingLimit) :=
  ⟨fun _ => Value.roundTrips_iff, fun _ => Call.roundTrips_iff,
    fun _ => CallResult.roundTrips_iff⟩

/-- The call that posts a value. -/
def posted (value : Value) : Call := .new default "post" ⟨[value], .empty⟩

theorem portable_posted {value : Value} (hportable : value.Portable) :
    (posted value).Portable :=
  ⟨fun _ hmem => List.mem_singleton.mp hmem ▸ hportable, fun _ hmem => nomatch hmem⟩

theorem depth_posted (value : Value) :
    (Json.toJson (posted value)).depth = 2 + (Json.toJson value).depth := by
  have hdepth : Json.depthItems (Value.itemsToJson (posted value).arguments.args) =
      max (Json.toJson value).depth 0 := rfl
  have hnone : Json.depthMembers
      (Value.entriesToJson (posted value).arguments.kwargs.entries) = 0 := rfl
  rw [Call.depth_toJson, hdepth, hnone]
  omega

/-- A text with characters that are escaped. -/
def memo : Value := .str "to \"all\"\n"

/-- The key that the memo is signed with. -/
def memoKey : SigningKey := .ofSeed (List.replicate 32 7)

theorem portable_memo : memo.Portable :=
  ⟨trivial, by simp [memo, Value.parts, Value.inside]⟩

theorem roundTrips_iff_of_portable_memo :
    (∃ envelope : Envelope Value, Envelope.sign memoKey memo = .ok envelope ∧
      envelope.openPayload.1 = .ok memo) ∧
    RoundTrips (posted memo) ∧
    RoundTrips (CallResult.err ⟨"closed", "no one is in", some "at the door"⟩) := by
  obtain ⟨hvalue, hcall, hresult⟩ := roundTrips_iff_of_portable
  refine ⟨?_, (hcall _ (portable_posted portable_memo)).mpr (by decide),
    (hresult (.err _) trivial).mpr (by decide)⟩
  obtain ⟨bytes, hencode, -, hopen⟩ := (hvalue memo portable_memo).mpr (by decide)
  rw [encode_of_exact (Value.exact_toJson memo portable_memo.floatFree)] at hencode
  cases hencode
  refine hopen memoKey ?_
  rw [memoKey, SigningKey.verify_sign_ofSeed]
  decide +kernel

/-- A value inside as many lists. -/
def nested : Nat → Value
  | 0 => .none
  | n + 1 => .list [nested n]

theorem portable_nested (n : Nat) : (nested n).Portable := by
  induction n with
  | zero => exact ⟨trivial, by simp [nested, Value.parts, Value.inside]⟩
  | succ n ih =>
      have hparts : (nested (n + 1)).parts = .list [nested n] :: (nested n).parts := by
        simp [nested, Value.parts, Value.inside, Value.insideItems]
      refine ⟨⟨ih.ordered, trivial⟩, fun x hmem => ?_⟩
      rw [hparts] at hmem
      exact ih.floatFree x (List.mem_of_ne_of_mem (by simp) hmem)

theorem depth_nested (n : Nat) : (Json.toJson (nested n)).depth = 2 * n + 1 := by
  induction n with
  | zero => rfl
  | succ n ih =>
      have hdepth : (Json.toJson (nested (n + 1))).depth =
          1 + max 0 (max (1 + max (Json.toJson (nested n)).depth 0) 0) := rfl
      omega

/-- A value that is read back by itself, but neither in a call nor in a result. -/
theorem not_roundTrips_nested :
    (nested 63).Portable ∧ (Json.toJson (nested 63)).depth ≤ nestingLimit ∧
      ¬ RoundTrips (posted (nested 63)) ∧ ¬ RoundTrips (CallResult.ok (nested 63) false) := by
  have hportable := portable_nested 63
  have hdepth := depth_nested 63
  have hresult : (CallResult.ok (nested 63) false).Portable := hportable
  rw [Call.roundTrips_iff (portable_posted hportable), CallResult.roundTrips_iff hresult,
    depth_posted, CallResult.depth_toJson_ok, hdepth]
  exact ⟨hportable, by decide⟩

end Codec

end RemoteCall
