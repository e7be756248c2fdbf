import Mathlib.Data.List.Forall2
import RemoteCall.Migration.Engine

/-!
# Parts of values

A value is a list, a map or an object, or it has no parts.  What is said of a
value at every depth is said of its parts one by one.
-/

namespace RemoteCall

namespace Value

mutual

/-- The objects in a value, at every depth. -/
def objects : Value → List ObjectValue
  | .list items => objectsOfItems items
  | .map entries => objectsOfEntries entries
  | .object ⟨name, version, fields⟩ => ⟨name, version, fields⟩ :: objectsOfEntries fields
  | _ => []

/-- The objects in several values. -/
def objectsOfItems : List Value → List ObjectValue
  | [] => []
  | item :: rest => objects item ++ objectsOfItems rest

/-- The objects in the values of entries. -/
def objectsOfEntries : List (String × Value) → List ObjectValue
  | [] => []
  | (_, value) :: rest => objects value ++ objectsOfEntries rest

end

mutual

/-- The values inside a value, at every depth. -/
def inside : Value → List Value
  | .list items => insideItems items
  | .map entries => insideEntries entries
  | .object ⟨_, _, fields⟩ => insideEntries fields
  | _ => []

/-- Several values, and the values inside them. -/
def insideItems : List Value → List Value
  | [] => []
  | item :: rest => item :: (inside item ++ insideItems rest)

/-- The values of entries, and the values inside them. -/
def insideEntries : List (String × Value) → List Value
  | [] => []
  | (_, value) :: rest => value :: (inside value ++ insideEntries rest)

end

/-- A value and the values inside it, at every depth. -/
def parts (value : Value) : List Value := value :: value.inside

/-- Only lists, maps and objects have a depth. -/
theorem shape (value : Value) :
    (∃ items, value = .list items) ∨ (∃ entries, value = .map entries) ∨
      (∃ object, value = .object object) ∨ value.depth = 0 := by
  cases value with
  | list items => exact .inl ⟨items, rfl⟩
  | map entries => exact .inr (.inl ⟨entries, rfl⟩)
  | object object => exact .inr (.inr (.inl ⟨object, rfl⟩))
  | _ => exact .inr (.inr (.inr rfl))

theorem mem_objects_list {items : List Value} {object : ObjectValue} :
    object ∈ objects (.list items) ↔ ∃ item ∈ items, object ∈ item.objects := by
  rw [objects]
  induction items with
  | nil => simp [objectsOfItems]
  | cons item rest ih => simp [objectsOfItems, ih]

theorem mem_objectsOfEntries {entries : List (String × Value)} {object : ObjectValue} :
    object ∈ objectsOfEntries entries ↔ ∃ entry ∈ entries, object ∈ entry.2.objects := by
  induction entries with
  | nil => simp [objectsOfEntries]
  | cons entry rest ih => simp [objectsOfEntries, ih]

theorem mem_objects_map {entries : List (String × Value)} {object : ObjectValue} :
    object ∈ objects (.map entries) ↔ ∃ entry ∈ entries, object ∈ entry.2.objects :=
  mem_objectsOfEntries

theorem mem_objects_object {object object' : ObjectValue} :
    object' ∈ objects (.object object) ↔
      object' = object ∨ ∃ entry ∈ object.fields, object' ∈ entry.2.objects := by
  rw [objects, List.mem_cons, mem_objectsOfEntries]

theorem mem_insideItems {items : List Value} {part : Value} :
    part ∈ insideItems items ↔ ∃ item ∈ items, part ∈ item.parts := by
  induction items with
  | nil => simp [insideItems]
  | cons item rest ih => simp [insideItems, parts, ih, or_assoc]

theorem mem_insideEntries {entries : List (String × Value)} {part : Value} :
    part ∈ insideEntries entries ↔ ∃ entry ∈ entries, part ∈ entry.2.parts := by
  induction entries with
  | nil => simp [insideEntries]
  | cons entry rest ih => simp [insideEntries, parts, ih, or_assoc]

theorem orderedItems_iff {items : List Value} :
    OrderedItems items ↔ ∀ item ∈ items, item.Ordered := by
  induction items with
  | nil => simp [OrderedItems]
  | cons item rest ih => simp [OrderedItems, ih]

theorem orderedEntries_iff {entries : List (String × Value)} :
    OrderedEntries entries ↔ ∀ entry ∈ entries, entry.2.Ordered := by
  induction entries with
  | nil => simp [OrderedEntries]
  | cons entry rest ih => simp [OrderedEntries, ih]

theorem depthItems_le_iff {items : List Value} {bound : Nat} :
    depthItems items ≤ bound ↔ ∀ item ∈ items, item.depth ≤ bound := by
  induction items with
  | nil => simp [depthItems]
  | cons item rest ih => rw [depthItems, Nat.max_le, ih, List.forall_mem_cons]

theorem depthEntries_le_iff {entries : List (String × Value)} {bound : Nat} :
    depthEntries entries ≤ bound ↔ ∀ entry ∈ entries, entry.2.depth ≤ bound := by
  induction entries with
  | nil => simp [depthEntries]
  | cons entry rest ih => rw [depthEntries, Nat.max_le, ih, List.forall_mem_cons]

theorem depth_list_le_iff {items : List Value} {bound : Nat} :
    depth (.list items) ≤ bound + 1 ↔ ∀ item ∈ items, item.depth ≤ bound := by
  rw [depth, ← depthItems_le_iff]
  omega

theorem depth_map_le_iff {entries : List (String × Value)} {bound : Nat} :
    depth (.map entries) ≤ bound + 1 ↔ ∀ entry ∈ entries, entry.2.depth ≤ bound := by
  rw [depth, ← depthEntries_le_iff]
  omega

theorem depth_object_le_iff {object : ObjectValue} {bound : Nat} :
    depth (.object object) ≤ bound + 1 ↔
      ∀ entry ∈ object.fields, entry.2.depth ≤ bound := by
  rw [depth, ← depthEntries_le_iff]
  omega

end Value

end RemoteCall
