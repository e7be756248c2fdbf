import Mathlib.Order.Bounds.Defs
import RemoteCall.Migration.ProtocolVersion

/-!
# The order and the texts of protocol versions

Versions are ordered as their numbers are, with `dev` above all numbers.  Of some versions
one is the newest, unless there are none at all, and which one it is depends on neither
their order nor their repetitions.  Every version is read back from its text.
-/

namespace RemoteCall.ProtocolVersion

variable {version limit other : ProtocolVersion} {versions : List ProtocolVersion}

/-! ## The order -/

/-- The place of a version: its number, and for `dev` what is beyond all numbers. -/
def rank : ProtocolVersion → Nat
  | .stable n => n.toNat
  | .dev => UInt32.size

instance : LE ProtocolVersion := ⟨fun version limit => version.rank ≤ limit.rank⟩

theorem rank_injective : Function.Injective rank := by
  intro left right heq
  cases left with
  | stable n =>
      cases right with
      | stable m => exact congrArg stable (UInt32.toNat_inj.mp heq)
      | dev => exact absurd heq (Nat.ne_of_lt n.toNat_lt_size)
  | dev =>
      cases right with
      | stable m => exact absurd heq.symm (Nat.ne_of_lt m.toNat_lt_size)
      | dev => rfl

theorem le_antisymm (hle : version ≤ limit) (hge : limit ≤ version) : version = limit :=
  rank_injective (Nat.le_antisymm hle hge)

theorem atMost_iff_le : version.atMost limit ↔ version ≤ limit := by
  cases version with
  | stable n =>
      cases limit with
      | stable m =>
          have hcompare : atMost (.stable n) (.stable m) = (compare n m).isLE := by
            change (compare n m != .gt) = (compare n m).isLE
            cases compare n m <;> rfl
          rw [hcompare, Std.isLE_compare]
          exact UInt32.le_iff_toNat_le
      | dev => exact iff_of_true rfl (Nat.le_of_lt n.toNat_lt_size)
  | dev =>
      cases limit with
      | stable m => exact iff_of_false nofun (Nat.not_le.mpr m.toNat_lt_size)
      | dev => exact iff_of_true rfl (Nat.le_refl _)

/-! ## The newest of some versions -/

theorem newest?_eq_none_iff : newest? versions = none ↔ versions = [] := by
  cases versions with
  | nil => exact iff_of_true rfl rfl
  | cons version rest =>
      refine iff_of_false ?_ (List.cons_ne_nil _ _)
      rw [newest?]
      split <;> exact Option.some_ne_none _

theorem isGreatest_of_newest? (hnewest : newest? versions = some version) :
    IsGreatest {other | other ∈ versions} version := by
  induction versions generalizing version with
  | nil => cases hnewest
  | cons head rest ih =>
      rw [newest?] at hnewest
      split at hnewest
      · rename_i hnone
        cases hnewest
        rw [newest?_eq_none_iff.mp hnone]
        refine ⟨List.mem_cons_self, fun other hmem => ?_⟩
        rw [List.mem_singleton.mp hmem]
        exact Nat.le_refl _
      · rename_i newest hrest
        obtain ⟨hmem, hbound⟩ := ih hrest
        cases hnewest
        by_cases hhead : atMost head newest
        · rw [if_pos hhead]
          refine ⟨List.mem_cons_of_mem _ hmem, fun other hother => ?_⟩
          rcases List.mem_cons.mp hother with rfl | hother
          · exact atMost_iff_le.mp hhead
          · exact hbound hother
        · have hle : newest ≤ head := Nat.le_of_not_le (mt atMost_iff_le.mpr hhead)
          rw [if_neg hhead]
          refine ⟨List.mem_cons_self, fun other hother => ?_⟩
          rcases List.mem_cons.mp hother with rfl | hother
          · exact Nat.le_refl _
          · exact Nat.le_trans (hbound hother) hle

/-- The newest of some versions is a matter of which there are. -/
theorem newest?_eq_some_iff :
    newest? versions = some version ↔ IsGreatest {other | other ∈ versions} version := by
  refine ⟨isGreatest_of_newest?, fun hgreatest => ?_⟩
  cases hnewest : newest? versions with
  | none =>
      rw [newest?_eq_none_iff.mp hnewest] at hgreatest
      cases hgreatest.1
  | some other =>
      have hother := isGreatest_of_newest? hnewest
      exact congrArg some (le_antisymm (hgreatest.2 hother.1) (hother.2 hgreatest.1))

theorem newest?_congr {others : List ProtocolVersion}
    (hsame : ∀ version, version ∈ versions ↔ version ∈ others) :
    newest? versions = newest? others := by
  have hset : {version | version ∈ versions} = {version | version ∈ others} := Set.ext hsame
  ext newest
  rw [newest?_eq_some_iff, newest?_eq_some_iff, hset]

/-! ## The texts -/

theorem ofChars?_toChars (version : ProtocolVersion) : ofChars? version.toChars = some version := by
  cases version with
  | dev => rfl
  | stable n =>
      have hdigits : Text.Decimal.ofNat n.toNat ≠ "dev".toList := by
        intro heq
        have hread := Text.Decimal.unsigned?_ofNat n.toNat_lt_size
        rw [heq] at hread
        cases hread
      rw [toChars, ofChars?, if_neg hdigits, Text.Decimal.unsigned?_ofNat n.toNat_lt_size,
        Option.map_some, UInt32.ofNat_toNat]

end RemoteCall.ProtocolVersion
