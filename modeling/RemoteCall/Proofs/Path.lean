import RemoteCall.Path

/-!
# Paths and their segments

A path is split at every one of its dots, and its segments joined with dots are the
path again.  So a path is told by its segments, and a path that follows another one
after a dot adds its own segments to those of the other.
-/

namespace RemoteCall.Path

theorem splitDots_eq_splitOn (text : List Char) : splitDots text = text.splitOn '.' := by
  induction text with
  | nil => rfl
  | cons c rest ih =>
      rw [splitDots, List.splitOn_cons_eq_if_modifyHead, ih]
      by_cases hdot : c = '.'
      · rw [if_pos hdot, if_pos (beq_iff_eq.mpr hdot)]
      · rw [if_neg hdot, if_neg (mt beq_iff_eq.mp hdot)]
        cases hrest : rest.splitOn '.' with
        | nil => exact absurd hrest (List.splitOn_ne_nil '.' rest)
        | cons segment segments => rfl

theorem segments_eq (path : String) :
    segments path = (path.toList.splitOn '.').map String.ofList := by
  rw [segments, splitDots_eq_splitOn]

/-! ## Joining -/

theorem join_segments (path : String) : join (segments path) = path := by
  have hbytes : String.toList ∘ String.ofList = id := by
    funext text
    exact String.toList_ofList
  apply String.toList_inj.mp
  rw [join, String.toList_intercalate, segments_eq, List.map_map, hbytes, List.map_id]
  exact List.intercalate_splitOn '.'

theorem segments_injective : Function.Injective segments := by
  intro left right heq
  calc
    left = join (segments left) := (join_segments left).symm
    _ = join (segments right) := congrArg join heq
    _ = right := join_segments right

/-- A path after another one adds its own segments. -/
theorem segments_append (left right : String) :
    segments (left ++ "." ++ right) = segments left ++ segments right := by
  have htext : (left ++ "." ++ right).toList = left.toList ++ '.' :: right.toList := by
    simp
  rw [segments_eq, segments_eq, segments_eq, htext, List.splitOn_append_cons_self,
    List.map_append]

/-! ## Single segments -/

theorem not_mem_of_mem_splitDots {text segment : List Char} (hmem : segment ∈ splitDots text) :
    '.' ∉ segment := by
  induction text generalizing segment with
  | nil =>
      rw [splitDots, List.mem_singleton] at hmem
      rw [hmem]
      exact List.not_mem_nil
  | cons c rest ih =>
      rw [splitDots] at hmem
      split at hmem
      · rcases List.mem_cons.mp hmem with hnil | hrest
        · rw [hnil]
          exact List.not_mem_nil
        · exact ih hrest
      · rename_i hdot
        split at hmem
        · rename_i head tail hsplit
          rw [hsplit] at ih
          rcases List.mem_cons.mp hmem with hhead | htail
          · rw [hhead, List.mem_cons, not_or]
            exact ⟨Ne.symm hdot, ih List.mem_cons_self⟩
          · exact ih (List.mem_cons_of_mem head htail)
        · rw [List.mem_singleton.mp hmem, List.mem_singleton]
          exact Ne.symm hdot

theorem not_mem_of_mem_segments {path segment : String} (hmem : segment ∈ segments path) :
    '.' ∉ segment.toList := by
  obtain ⟨text, htext, rfl⟩ := List.mem_map.mp hmem
  rw [String.toList_ofList]
  exact not_mem_of_mem_splitDots htext

/-- A text is a segment of its own just if it has no dot. -/
theorem segments_eq_singleton_iff {path : String} :
    segments path = [path] ↔ '.' ∉ path.toList := by
  constructor
  · intro hsegments
    have hmem : path ∈ segments path := by
      rw [hsegments]
      exact List.mem_singleton_self path
    exact not_mem_of_mem_segments hmem
  · intro hdot
    rw [segments_eq, List.splitOn_eq_singleton hdot, List.map_singleton, String.ofList_toList]

end RemoteCall.Path
