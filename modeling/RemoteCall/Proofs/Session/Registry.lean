import Mathlib.Data.List.Count
import Mathlib.Data.List.Nodup
import RemoteCall.Proofs.SortedMap
import RemoteCall.Session.Registry

/-!
# Registries as lists

A registry finds sessions by their keys and knows their order by their numbers.  To the
one who uses it, it is a list of sessions in the order in which they came: a session that
is registered goes to the end of the list, and one that was there under its key leaves
its place.

What ties the two together are the numbers.  They ascend along the list, and the next one
is above them all as long as the numbers do not run out.  In which order the table itself
is kept does not matter.
-/

namespace RemoteCall

/-! ## Keys -/

theorem SessionKey.bytes_injective : Function.Injective SessionKey.bytes := by
  intro left right heq
  have hlength : left.service.bytes.length = right.service.bytes.length :=
    left.service.length_eq.trans right.service.length_eq.symm
  obtain ⟨hservice, hcaller⟩ := List.append_inj heq hlength
  obtain ⟨⟨_, _⟩, ⟨_, _⟩⟩ := left
  obtain ⟨⟨_, _⟩, ⟨_, _⟩⟩ := right
  dsimp only at hservice hcaller
  subst hservice hcaller
  rfl

variable {α : Type} [IsSession α]

/-- Whether it is the session of a caller at a service. -/
def hasKey (key : SessionKey) (session : α) : Bool := IsSession.key session == key

/-! ## What is asked of a registry -/

/-- What changes the sessions that are known. -/
inductive RegistryRequest (α : Type) where
  | register (session : α)
  | invalidate (key : SessionKey)
  | removeService (service : Uid)

/-- What the one who asks is told. -/
inductive RegistryAnswer (α : Type) where
  /-- The session that had the key before. -/
  | displaced (session : Option α)
  /-- How many sessions are gone. -/
  | removed (count : Nat)

namespace RegistryRequest

omit [IsSession α] in
/-- Whether a session is registered. -/
def registers : RegistryRequest α → Bool
  | .register _ => true
  | .invalidate _ | .removeService _ => false

omit [IsSession α] in
/-- The answers to some requests in turn, and what they lead to, where `answer` is how a
single one is met. -/
def answerAll {σ : Type} (answer : σ → RegistryRequest α → RegistryAnswer α × σ) :
    List (RegistryRequest α) → σ → List (RegistryAnswer α) × σ
  | [], s => ([], s)
  | request :: rest, s =>
    ((answer s request).1 :: (answerAll answer rest (answer s request).2).1,
      (answerAll answer rest (answer s request).2).2)

end RegistryRequest

/-- How a registry meets a request. -/
def SessionRegistry.answer (registry : SessionRegistry α) :
    RegistryRequest α → RegistryAnswer α × SessionRegistry α
  | .register session =>
    (.displaced (registry.register session).1, (registry.register session).2)
  | .invalidate key => (.displaced (registry.invalidate key).1, (registry.invalidate key).2)
  | .removeService service =>
    (.removed (registry.removeService service).1, (registry.removeService service).2)

/-- Sessions in the order in which they came. -/
abbrev SessionList (α : Type) := List α

namespace SessionList

def isAt (service : Uid) (session : α) : Bool := (IsSession.key session).service == service

/-- The sessions without the one that has the key. -/
def without (sessions : SessionList α) (key : SessionKey) : SessionList α :=
  sessions.filter fun session => !hasKey key session

/-- How a list of sessions meets a request. -/
def answer (sessions : SessionList α) :
    RegistryRequest α → RegistryAnswer α × SessionList α
  | .register session =>
    (.displaced (sessions.find? (hasKey (IsSession.key session))),
      sessions.without (IsSession.key session) ++ [session])
  | .invalidate key => (.displaced (sessions.find? (hasKey key)), sessions.without key)
  | .removeService service =>
    (.removed (sessions.countP (isAt service)),
      sessions.filter fun session => !isAt service session)

end SessionList

/-! ## What a registry shows -/

namespace SessionRegistry

/-- All that a registry tells is what the list of its sessions tells, and every session
stands under its own key. -/
structure Shows (registry : SessionRegistry α) (sessions : SessionList α) : Prop where
  get?_eq : ∀ key, registry.get? key = sessions.find? (hasKey key)
  recent?_eq : ∀ service,
    registry.recent? service = (sessions.filter (SessionList.isAt service)).getLast?
  all_eq : registry.all = sessions
  size_eq : registry.size = sessions.length
  isEmpty_eq : registry.isEmpty = sessions.isEmpty
  key_eq : ∀ key registered, registry.table.get? key = some registered →
    key = (IsSession.key registered.session).bytes

/-- The registered sessions stand in a list with ascending numbers, and in the table each
under its own key. -/
structure Numbers (registry : SessionRegistry α) (numbered : List (Registered α)) : Prop where
  ascending : numbered.Pairwise fun left right => left.number < right.number
  le_latest : ∀ registered ∈ numbered, registered.number ≤ registry.latest
  get?_iff : ∀ key registered, registry.table.get? key = some registered ↔
    registered ∈ numbered ∧ key = (IsSession.key registered.session).bytes

theorem numbers_empty : Numbers (empty : SessionRegistry α) [] where
  ascending := .nil
  le_latest := nofun
  get?_iff key registered := by simp [empty]

namespace Numbers

variable {registry : SessionRegistry α} {numbered : List (Registered α)}
  {left right : Registered α}

/-! ### One session for a number -/

theorem nodup_numbers (hnumbers : registry.Numbers numbered) :
    (numbered.map Registered.number).Nodup := by
  rw [List.Nodup, List.pairwise_map]
  apply hnumbers.ascending.imp
  intro left right hlt heq
  rw [heq] at hlt
  exact UInt64.lt_irrefl _ hlt

theorem nodup (hnumbers : registry.Numbers numbered) : numbered.Nodup :=
  hnumbers.nodup_numbers.of_map

theorem eq_of_number_eq (hnumbers : registry.Numbers numbered) (hleft : left ∈ numbered)
    (hright : right ∈ numbered) (hnumber : left.number = right.number) : left = right :=
  List.inj_on_of_nodup_map hnumbers.nodup_numbers hleft hright hnumber

theorem perm_values (hnumbers : registry.Numbers numbered) :
    registry.table.values.Perm numbered := by
  have hkey : ∀ entry ∈ registry.table.entries,
      entry.1 = (IsSession.key entry.2.session).bytes := by
    intro entry hmem
    exact ((hnumbers.get?_iff _ _).mp (SortedMap.mem_entries_iff.mp hmem)).2
  have hvalues : registry.table.values.Nodup := by
    apply List.Nodup.map_on
    · intro left hleft right hright heq
      apply Prod.ext
      · rw [hkey left hleft, hkey right hright, heq]
      · exact heq
    · exact (Entries.nodup_keys registry.table.ascending).of_map
  apply (List.perm_ext_iff_of_nodup hvalues hnumbers.nodup).mpr
  intro registered
  constructor
  · intro hmem
    obtain ⟨entry, hentry, rfl⟩ := List.mem_map.mp hmem
    exact ((hnumbers.get?_iff _ _).mp (SortedMap.mem_entries_iff.mp hentry)).1
  · intro hmem
    have hfound := (hnumbers.get?_iff _ registered).mpr ⟨hmem, rfl⟩
    exact List.mem_map.mpr ⟨_, SortedMap.mem_entries_iff.mpr hfound, rfl⟩

/-! ### What is told of the sessions -/

theorem get?_eq (hnumbers : registry.Numbers numbered) (key : SessionKey) :
    registry.get? key = (numbered.map Registered.session).find? (hasKey key) := by
  rw [get?, List.find?_map]
  apply congrArg (Option.map Registered.session)
  cases hfound : numbered.find? (hasKey key ∘ Registered.session) with
  | none =>
      cases hstored : registry.table.get? key.bytes with
      | none => rfl
      | some registered =>
          obtain ⟨hmem, hbytes⟩ := (hnumbers.get?_iff _ _).mp hstored
          have hkey : key = IsSession.key registered.session :=
            SessionKey.bytes_injective hbytes
          have hmiss := List.find?_eq_none.mp hfound registered hmem
          rw [hkey] at hmiss
          exact absurd (beq_self_eq_true _) hmiss
  | some registered =>
      have hkey : IsSession.key registered.session = key := by
        have hhas : (hasKey key ∘ Registered.session) registered = true :=
          List.find?_some hfound
        exact eq_of_beq hhas
      apply (hnumbers.get?_iff _ _).mpr
      exact ⟨List.mem_of_find?_eq_some hfound, congrArg SessionKey.bytes hkey.symm⟩

omit [IsSession α] in
theorem pairwise_mergeSort_number (among : List (Registered α)) :
    (among.mergeSort fun left right => left.number ≤ right.number).Pairwise
      fun left right => left.number ≤ right.number := by
  have hsorted : (among.mergeSort fun left right => left.number ≤ right.number).Pairwise
      fun left right => decide (left.number ≤ right.number) := by
    apply List.pairwise_mergeSort
    · intro left middle right hleft hright
      exact decide_eq_true (UInt64.le_trans (of_decide_eq_true hleft) (of_decide_eq_true hright))
    · intro left right
      rw [Bool.or_eq_true, decide_eq_true_eq, decide_eq_true_eq]
      exact UInt64.le_total left.number right.number
  exact hsorted.imp of_decide_eq_true

theorem all_eq (hnumbers : registry.Numbers numbered) :
    registry.all = numbered.map Registered.session := by
  have hperm := (List.mergeSort_perm registry.table.values
    fun left right => left.number ≤ right.number).trans hnumbers.perm_values
  have hsorted : registry.table.values.mergeSort
      (fun left right => left.number ≤ right.number) = numbered := by
    apply hperm.eq_of_pairwise
    · intro left right hleft hright hle hge
      apply hnumbers.eq_of_number_eq (hperm.mem_iff.mp hleft) hright
      exact UInt64.le_antisymm hle hge
    · exact pairwise_mergeSort_number _
    · exact hnumbers.ascending.imp UInt64.le_of_lt
  rw [all, hsorted]

theorem size_eq (hnumbers : registry.Numbers numbered) : registry.size = numbered.length := by
  rw [← hnumbers.perm_values.length_eq]
  exact (List.length_map _).symm

/-- The session is one of some, none of which came later. -/
def IsLatest (registered : Registered α) (among : List (Registered α)) : Prop :=
  registered ∈ among ∧ ∀ other ∈ among, other.number ≤ registered.number

omit [IsSession α] in
/-- The fold finds the latest session, in whatever order they are. -/
theorem isLatest_foldl_later (best : Registered α) (rest : List (Registered α)) :
    ∃ latest, rest.foldl later (some best) = some latest ∧ IsLatest latest (best :: rest) := by
  induction rest generalizing best with
  | nil =>
      refine ⟨best, rfl, List.mem_cons_self, ?_⟩
      intro other hother
      rw [List.mem_singleton.mp hother]
      exact UInt64.le_refl _
  | cons next rest ih =>
      rw [List.foldl_cons, later]
      by_cases hnext : best.number ≤ next.number
      · rw [if_pos hnext]
        obtain ⟨latest, hfold, hmem, hle⟩ := ih next
        have hbest := UInt64.le_trans hnext (hle next List.mem_cons_self)
        exact ⟨latest, hfold, List.mem_cons_of_mem _ hmem, List.forall_mem_cons.mpr ⟨hbest, hle⟩⟩
      · rw [if_neg hnext]
        obtain ⟨latest, hfold, hmem, hle⟩ := ih best
        have hbest := hle best List.mem_cons_self
        have hlt : next.number < best.number := UInt64.not_le.mp hnext
        have hnextLe := UInt64.le_trans (UInt64.le_of_lt hlt) hbest
        have hrestLe : ∀ other ∈ rest, other.number ≤ latest.number :=
          fun other hother => hle other (List.mem_cons_of_mem _ hother)
        refine ⟨latest, hfold, ?_, List.forall_mem_cons.mpr
          ⟨hbest, List.forall_mem_cons.mpr ⟨hnextLe, hrestLe⟩⟩⟩
        rcases List.mem_cons.mp hmem with rfl | hrest
        · exact List.mem_cons_self
        · exact List.mem_cons_of_mem _ (List.mem_cons_of_mem _ hrest)

omit [IsSession α] in
/-- Along ascending numbers the last session is the latest. -/
theorem isLatest_getLast {among : List (Registered α)} {last : Registered α}
    (hascending : among.Pairwise fun left right => left.number < right.number)
    (hlast : among.getLast? = some last) : IsLatest last among := by
  obtain ⟨before, rfl⟩ := List.getLast?_eq_some_iff.mp hlast
  refine ⟨List.mem_append_right _ List.mem_cons_self, ?_⟩
  intro other hother
  rcases List.mem_append.mp hother with hbefore | hother
  · apply UInt64.le_of_lt
    exact (List.pairwise_append.mp hascending).2.2 other hbefore last List.mem_cons_self
  · rw [List.mem_singleton.mp hother]
    exact UInt64.le_refl _

theorem recent?_eq (hnumbers : registry.Numbers numbered) (service : Uid) :
    registry.recent? service =
      ((numbered.map Registered.session).filter (SessionList.isAt service)).getLast? := by
  have hperm : (registry.table.values.filter (isAt service)).Perm
      (numbered.filter (isAt service)) := hnumbers.perm_values.filter _
  have hascending := hnumbers.ascending.filter (isAt service)
  have hmap : (numbered.map Registered.session).filter (SessionList.isAt service) =
      (numbered.filter (isAt service)).map Registered.session := List.filter_map
  rw [recent?, hmap, List.getLast?_map]
  apply congrArg (Option.map Registered.session)
  cases hvalues : registry.table.values.filter (isAt service) with
  | nil =>
      rw [hvalues] at hperm
      rw [hperm.symm.eq_nil]
      rfl
  | cons best rest =>
      rw [hvalues] at hperm
      obtain ⟨latest, hfold, hmem, hle⟩ := isLatest_foldl_later best rest
      have hsome : (numbered.filter (isAt service)).getLast?.isSome := by
        rw [List.getLast?_isSome]
        exact List.ne_nil_of_mem (hperm.mem_iff.mp hmem)
      obtain ⟨last, hlast⟩ := Option.isSome_iff_exists.mp hsome
      obtain ⟨hlastMem, hlastLe⟩ := isLatest_getLast hascending hlast
      have hlatest := hperm.mem_iff.mp hmem
      have hsame : latest = last := by
        apply hnumbers.eq_of_number_eq (List.mem_of_mem_filter hlatest)
          (List.mem_of_mem_filter hlastMem)
        exact UInt64.le_antisymm (hlastLe latest hlatest) (hle last (hperm.mem_iff.mpr hlastMem))
      rw [hlast, ← hsame]
      exact hfold

/-- A registry whose sessions stand in the list shows that list. -/
theorem shows (hnumbers : registry.Numbers numbered) :
    registry.Shows (numbered.map Registered.session) where
  get?_eq := hnumbers.get?_eq
  recent?_eq := hnumbers.recent?_eq
  all_eq := hnumbers.all_eq
  size_eq := by rw [hnumbers.size_eq, List.length_map]
  isEmpty_eq := by
    have hlength := hnumbers.size_eq
    rw [isEmpty, SortedMap.isEmpty, List.isEmpty_map]
    rw [size, SortedMap.size] at hlength
    rw [Bool.eq_iff_iff, List.isEmpty_iff_length_eq_zero, List.isEmpty_iff_length_eq_zero, hlength]
  key_eq key registered hfound := ((hnumbers.get?_iff key registered).mp hfound).2

/-! ### One request -/

/-- Sessions that leave the table leave the list, and the others keep their order. -/
theorem keep {table : SortedMap (List UInt8) (Registered α)} {keep : Registered α → Bool}
    (hnumbers : registry.Numbers numbered)
    (htable : ∀ key registered, table.get? key = some registered ↔
      registry.table.get? key = some registered ∧ keep registered) :
    Numbers ⟨table, registry.latest⟩ (numbered.filter keep) where
  ascending := hnumbers.ascending.filter keep
  le_latest registered hmem := hnumbers.le_latest registered (List.mem_of_mem_filter hmem)
  get?_iff key registered := by
    rw [htable, hnumbers.get?_iff, List.mem_filter]
    exact and_right_comm

theorem invalidate (hnumbers : registry.Numbers numbered) (key : SessionKey) :
    (registry.invalidate key).2.Numbers
      (numbered.filter fun registered => !hasKey key registered.session) := by
  apply hnumbers.keep
  intro bytes registered
  rw [SortedMap.get?_erase_eq_ite]
  by_cases hbytes : bytes = key.bytes
  · rw [if_pos hbytes]
    have hgone : registry.table.get? bytes = some registered → hasKey key registered.session := by
      intro hfound
      have hkey := ((hnumbers.get?_iff _ _).mp hfound).2
      rw [hbytes] at hkey
      exact beq_iff_eq.mpr (SessionKey.bytes_injective hkey).symm
    constructor
    · exact nofun
    · rintro ⟨hfound, hkept⟩
      rw [hgone hfound] at hkept
      cases hkept
  · rw [if_neg hbytes]
    have hkept : registry.table.get? bytes = some registered →
        !hasKey key registered.session := by
      intro hfound
      rw [Bool.not_eq_true', hasKey, beq_eq_false_iff_ne]
      intro hkey
      exact hbytes (hkey ▸ ((hnumbers.get?_iff _ _).mp hfound).2)
    exact ⟨fun hfound => ⟨hfound, hkept hfound⟩, And.left⟩

theorem removeService (hnumbers : registry.Numbers numbered) (service : Uid) :
    (registry.removeService service).2.Numbers
      (numbered.filter fun registered => !isAt service registered) := by
  apply hnumbers.keep
  intro key registered
  exact SortedMap.get?_filter_eq_some_iff

/-- The next number is above all others, unless the numbers run out. -/
theorem lt_next {number : UInt64} (hroom : number.toNat + 1 < UInt64.size) :
    number < number + 1 := by
  rw [UInt64.lt_iff_toNat_lt, UInt64.toNat_add]
  change number.toNat < (number.toNat + 1) % UInt64.size
  rw [Nat.mod_eq_of_lt hroom]
  exact Nat.lt_succ_self _

/-- A session whose key is free goes to the end. -/
theorem append (hnumbers : registry.Numbers numbered)
    (hroom : registry.latest.toNat + 1 < UInt64.size) {session : α}
    (hfree : ∀ registered ∈ numbered,
      IsSession.key registered.session ≠ IsSession.key session) :
    Numbers ⟨registry.table.insert (IsSession.key session).bytes ⟨registry.latest + 1, session⟩,
      registry.latest + 1⟩ (numbered ++ [⟨registry.latest + 1, session⟩]) where
  ascending := by
    apply List.pairwise_append.mpr
    refine ⟨hnumbers.ascending, List.pairwise_singleton _ _, ?_⟩
    intro left hleft right hright
    rw [List.mem_singleton.mp hright]
    exact UInt64.lt_of_le_of_lt (hnumbers.le_latest left hleft) (lt_next hroom)
  le_latest registered hmem := by
    rcases List.mem_append.mp hmem with hmem | hmem
    · exact UInt64.le_trans (hnumbers.le_latest registered hmem)
        (UInt64.le_of_lt (lt_next hroom))
    · rw [List.mem_singleton.mp hmem]
      exact UInt64.le_refl _
  get?_iff key registered := by
    rw [SortedMap.get?_insert_eq_ite, List.mem_append, List.mem_singleton]
    by_cases hkey : key = (IsSession.key session).bytes
    · rw [if_pos hkey]
      constructor
      · intro heq
        cases heq
        exact ⟨.inr rfl, hkey⟩
      · rintro ⟨hmem | rfl, hregistered⟩
        · apply absurd (SessionKey.bytes_injective (hregistered.symm.trans hkey))
          exact hfree registered hmem
        · rfl
    · rw [if_neg hkey, hnumbers.get?_iff]
      constructor
      · rintro ⟨hmem, hregistered⟩
        exact ⟨.inl hmem, hregistered⟩
      · rintro ⟨hmem | rfl, hregistered⟩
        · exact ⟨hmem, hregistered⟩
        · exact absurd hregistered hkey

theorem register (hnumbers : registry.Numbers numbered)
    (hroom : registry.latest.toNat + 1 < UInt64.size) (session : α) :
    (registry.register session).2.Numbers
      ((numbered.filter fun registered => !hasKey (IsSession.key session) registered.session) ++
        [⟨registry.latest + 1, session⟩]) := by
  have hfree : ∀ registered ∈ numbered.filter fun registered =>
      !hasKey (IsSession.key session) registered.session,
      IsSession.key registered.session ≠ IsSession.key session := by
    intro registered hmem heq
    have hkept := List.of_mem_filter hmem
    rw [hasKey, heq, beq_self_eq_true] at hkept
    cases hkept
  have happended := (hnumbers.invalidate (IsSession.key session)).append hroom hfree
  -- What is stored under the key is replaced, be it there or not.
  have htable : (registry.table.erase (IsSession.key session).bytes).insert
        (IsSession.key session).bytes ⟨registry.latest + 1, session⟩ =
      registry.table.insert (IsSession.key session).bytes ⟨registry.latest + 1, session⟩ := by
    apply SortedMap.ext_get?
    intro key
    rw [SortedMap.get?_insert, SortedMap.get?_insert, SortedMap.get?_erase]
    split <;> rfl
  rw [SessionRegistry.invalidate, htable] at happended
  exact happended

end Numbers

/-- The list is that of the registered sessions in the order of their numbers. -/
def Refines (registry : SessionRegistry α) (sessions : SessionList α) : Prop :=
  ∃ numbered, registry.Numbers numbered ∧ numbered.map Registered.session = sessions

namespace Refines

variable {registry : SessionRegistry α} {sessions : SessionList α}

/-- A request is met by the list as by the registry. -/
theorem answer (hrefines : registry.Refines sessions) {request : RegistryRequest α}
    (hroom : request.registers → registry.latest.toNat + 1 < UInt64.size) :
    (registry.answer request).1 = (SessionList.answer sessions request).1 ∧
      (registry.answer request).2.Refines (SessionList.answer sessions request).2 := by
  obtain ⟨numbered, hnumbers, rfl⟩ := hrefines
  cases request with
  | register session =>
      constructor
      · exact congrArg RegistryAnswer.displaced (hnumbers.get?_eq (IsSession.key session))
      · refine ⟨_, hnumbers.register (hroom rfl) session, ?_⟩
        rw [List.map_append, List.map_singleton, SessionList.answer, SessionList.without,
          List.filter_map]
        rfl
  | invalidate key =>
      constructor
      · exact congrArg RegistryAnswer.displaced (hnumbers.get?_eq key)
      · refine ⟨_, hnumbers.invalidate key, ?_⟩
        rw [SessionList.answer, SessionList.without, List.filter_map]
        rfl
  | removeService service =>
      have hremoved := hnumbers.removeService service
      constructor
      · have hsplit : numbered.length = numbered.countP (isAt service) +
            numbered.countP fun registered => !isAt service registered := by
          simpa using List.length_eq_countP_add_countP (isAt service)
        apply congrArg RegistryAnswer.removed
        calc registry.size - (registry.removeService service).2.size
            = numbered.length -
                (numbered.filter fun registered => !isAt service registered).length := by
              rw [hnumbers.size_eq, hremoved.size_eq]
          _ = numbered.countP (isAt service) := by
              rw [hsplit, ← List.countP_eq_length_filter, Nat.add_sub_cancel]
          _ = (numbered.map Registered.session).countP (SessionList.isAt service) := by
              rw [List.countP_map]
              rfl
      · refine ⟨_, hremoved, ?_⟩
        rw [SessionList.answer, List.filter_map]
        rfl

/-- Only registering takes a number. -/
theorem toNat_latest_answer_le (registry : SessionRegistry α) (request : RegistryRequest α) :
    (registry.answer request).2.latest.toNat ≤
      registry.latest.toNat + if request.registers then 1 else 0 := by
  cases request with
  | register session =>
      change (registry.latest + 1).toNat ≤ registry.latest.toNat + 1
      rw [UInt64.toNat_add]
      exact Nat.mod_le _ _
  | invalidate key => exact Nat.le_refl _
  | removeService service => exact Nat.le_refl _

/-! ### Many requests -/

theorem answerAll (hrefines : registry.Refines sessions) {requests : List (RegistryRequest α)}
    (hroom : registry.latest.toNat + requests.countP RegistryRequest.registers < UInt64.size) :
    (RegistryRequest.answerAll SessionRegistry.answer requests registry).1 =
        (RegistryRequest.answerAll SessionList.answer requests sessions).1 ∧
      (RegistryRequest.answerAll SessionRegistry.answer requests registry).2.Refines
        (RegistryRequest.answerAll SessionList.answer requests sessions).2 := by
  induction requests generalizing registry sessions with
  | nil => exact ⟨rfl, hrefines⟩
  | cons request rest ih =>
      rw [List.countP_cons] at hroom
      have hnow : request.registers → registry.latest.toNat + 1 < UInt64.size := by
        intro hregisters
        rw [if_pos hregisters] at hroom
        omega
      have hlater : (registry.answer request).2.latest.toNat +
          rest.countP RegistryRequest.registers < UInt64.size := by
        have hlatest := toNat_latest_answer_le registry request
        omega
      obtain ⟨htold, hleft⟩ := hrefines.answer hnow
      obtain ⟨hmore, hend⟩ := ih hleft hlater
      refine ⟨?_, hend⟩
      rw [RegistryRequest.answerAll, RegistryRequest.answerAll, htold, hmore]

end Refines

/-- A registry that begins empty meets all requests as a list does in which a session that
is registered leaves its old place and goes to the end, and after them it shows that list,
as long as there are numbers for all that is registered. -/
theorem shows_of_answerAll (requests : List (RegistryRequest α))
    (hroom : requests.countP RegistryRequest.registers < UInt64.size) :
    (RegistryRequest.answerAll SessionRegistry.answer requests empty).1 =
        (RegistryRequest.answerAll SessionList.answer requests []).1 ∧
      (RegistryRequest.answerAll SessionRegistry.answer requests empty).2.Shows
        (RegistryRequest.answerAll SessionList.answer requests []).2 := by
  have hempty : Refines (empty : SessionRegistry α) [] := ⟨[], numbers_empty, rfl⟩
  have hstart : (empty : SessionRegistry α).latest.toNat +
      requests.countP RegistryRequest.registers < UInt64.size := by
    change 0 + _ < _
    rw [Nat.zero_add]
    exact hroom
  obtain ⟨htold, numbered, hnumbers, hsessions⟩ := hempty.answerAll hstart
  exact ⟨htold, hsessions ▸ hnumbers.shows⟩

/-! ## Two callers -/

/-- A visit under the key of a session. -/
structure Visit where
  key : SessionKey
  name : String
  deriving DecidableEq

instance : IsSession Visit := ⟨Visit.key⟩

/-- A visit to one service; callers are told apart by one byte. -/
def visit (caller : UInt8) (name : String) : Visit :=
  ⟨⟨default, ⟨List.replicate 32 caller, List.length_replicate⟩⟩, name⟩

/-- The first caller comes again after the second, who then goes. -/
def visits : List (RegistryRequest Visit) :=
  [.register (visit 7 "first"), .register (visit 8 "second"), .register (visit 7 "again"),
    .invalidate (visit 8 "second").key]

theorem shows_of_answerAll_visits :
    visits.countP RegistryRequest.registers < UInt64.size ∧
      (RegistryRequest.answerAll answer visits empty).1 =
        [.displaced none, .displaced none, .displaced (some (visit 7 "first")),
          .displaced (some (visit 8 "second"))] ∧
      (RegistryRequest.answerAll answer visits empty).2.all = [visit 7 "again"] ∧
      (RegistryRequest.answerAll answer visits empty).2.recent? default =
        some (visit 7 "again") := by
  have hroom : visits.countP RegistryRequest.registers < UInt64.size := by decide
  obtain ⟨htold, hshows⟩ := shows_of_answerAll visits hroom
  exact ⟨hroom, htold, hshows.all_eq, hshows.recent?_eq default⟩

end SessionRegistry

end RemoteCall
