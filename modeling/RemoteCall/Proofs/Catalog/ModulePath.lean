import Mathlib.Data.List.DropRight
import RemoteCall.Catalog.Endpoint
import RemoteCall.Proofs.Call.Action
import RemoteCall.Proofs.Path.Pattern

/-!
# Paths taken apart and put together

An action keeps the path of its function as what stands before and after the last dot, and
an endpoint is listed in the namespace that stands before it.  For dotted paths nothing is
lost by that: the action names the path that it was made for, and the segments of the
namespace with the last one after them are those of the path.
-/

namespace RemoteCall

namespace Path

variable {text before after : List Char}

/-- What stands after the last dot of a text, or all of it. -/
def lastSegment (text : List Char) : List Char := text.rtakeWhile (· != '.')

theorem bne_dot_of_not_mem (hdot : '.' ∉ text) : ∀ c ∈ text, (c != '.') = true := by
  intro c hmem
  rw [bne_iff_ne]
  rintro rfl
  exact hdot hmem

theorem lastSegment_append_cons (hafter : '.' ∉ after) :
    lastSegment (before ++ '.' :: after) = after := by
  have hdots : ∀ c ∈ after.reverse, (c != '.') = true := fun c hmem =>
    bne_dot_of_not_mem hafter c (List.mem_reverse.mp hmem)
  rw [lastSegment, List.rtakeWhile, List.reverse_append, List.reverse_cons, List.append_assoc,
    List.takeWhile_append_of_pos hdots, List.singleton_append,
    List.takeWhile_cons_of_neg (by decide), List.append_nil, List.reverse_reverse]

theorem lastSegment_of_not_mem (hdot : '.' ∉ text) : lastSegment text = text := by
  rw [lastSegment, List.rtakeWhile_eq_self_iff]
  exact bne_dot_of_not_mem hdot

theorem splitLast?_eq_none_iff : splitLast? text = none ↔ '.' ∉ text := by
  induction text with
  | nil => simp [splitLast?]
  | cons c rest ih =>
      rw [splitLast?, List.mem_cons, not_or, ← ih]
      cases hrest : splitLast? rest with
      | some parts => simp
      | none => simp [eq_comm]

/-- The last dot is cut at. -/
theorem not_mem_of_splitLast? (hsplit : splitLast? text = some (before, after)) :
    '.' ∉ after := by
  induction text generalizing before with
  | nil => cases hsplit
  | cons c rest ih =>
      rw [splitLast?] at hsplit
      cases hrest : splitLast? rest with
      | some parts =>
          rw [hrest] at hsplit
          cases hsplit
          exact ih hrest
      | none =>
          rw [hrest] at hsplit
          by_cases hdot : c = '.'
          · rw [if_pos hdot] at hsplit
            cases hsplit
            exact splitLast?_eq_none_iff.mp hrest
          · rw [if_neg hdot] at hsplit
            cases hsplit

end Path

/-- The segments of the namespace that the endpoint is listed in, none if it is in none. -/
def Endpoint.spaceSegments (endpoint : Endpoint) : List (List Char) :=
  if endpoint.space = "" then [] else endpoint.space.toList.splitOn '.'

theorem Endpoint.spaceSegments_append_lastSegment {endpoint : Endpoint}
    (hvalid : Path.isValid endpoint.modulePath) :
    endpoint.spaceSegments ++ [Path.lastSegment endpoint.modulePath.toList] =
      endpoint.modulePath.toList.splitOn '.' := by
  rw [spaceSegments, space, Path.parent]
  cases hsplit : Path.splitLast? endpoint.modulePath.toList with
  | none =>
      have hdot := Path.splitLast?_eq_none_iff.mp hsplit
      rw [if_pos rfl, Path.lastSegment_of_not_mem hdot, List.splitOn_eq_singleton hdot,
        List.nil_append]
  | some cut =>
      obtain ⟨before, after⟩ := cut
      have hpath : endpoint.modulePath.toList = before ++ '.' :: after :=
        Path.eq_of_splitLast? hsplit
      have hafter : '.' ∉ after := Path.not_mem_of_splitLast? hsplit
      have hbefore : String.ofList before ≠ "" := by
        intro hempty
        apply Path.ne_nil_of_isValid hvalid hpath
        simpa using congrArg String.toList hempty
      rw [if_neg hbefore, hpath, Path.lastSegment_append_cons hafter,
        List.splitOn_append_cons_self, List.splitOn_eq_singleton hafter, String.toList_ofList]

namespace Path

/-- The path is taken apart and put together without loss. -/
structure Rejoins (path : String) : Prop where
  /-- The path is read off the action that calls the function at it. -/
  fullPath_eq : ∀ id resultId arguments,
    (Action.function id resultId path arguments).fullPath = path
  /-- The namespace of an endpoint at the path has all segments of it but the last. -/
  segments_eq : ∀ endpoint : Endpoint, endpoint.modulePath = path →
    endpoint.spaceSegments ++ [lastSegment path.toList] = path.toList.splitOn '.'

theorem check_eq_ok_iff {path : String} : check path = .ok () ↔ isValid path := by
  rw [check]
  split <;> simp_all

/-- The check admits the texts of the pattern, and these are the texts that have identifiers
between all their dots.  What it admits is taken apart and put together without loss. -/
theorem check_iff_dotted_and_rejoins (path : String) :
    (check path = .ok () ↔ path.toList ∈ dotted) ∧
      (check path = .ok () ↔ ∀ segment ∈ path.toList.splitOn '.', IsSegment segment) ∧
      (check path = .ok () → Rejoins path) := by
  refine ⟨?_, ?_, fun hcheck => ?_⟩
  · rw [check_eq_ok_iff, isValid_iff, mem_dotted_iff]
    simp only [mem_identifiers_iff]
  · rw [check_eq_ok_iff, isValid_iff]
    simp only [isIdentifier_iff]
  · have hvalid : isValid path := check_eq_ok_iff.mp hcheck
    constructor
    · exact Action.fullPath_function hvalid
    · rintro endpoint rfl
      exact Endpoint.spaceSegments_append_lastSegment hvalid

theorem check_iff_dotted_and_rejoins_inverse :
    check "numpy.linalg.inv" = .ok () ∧ "numpy.linalg.inv".toList ∈ dotted ∧
      (∀ segment ∈ "numpy.linalg.inv".toList.splitOn '.', IsSegment segment) ∧
      Rejoins "numpy.linalg.inv" := by
  have hcheck : check "numpy.linalg.inv" = .ok () := by decide +kernel
  obtain ⟨hdotted, hsegments, hrejoins⟩ := check_iff_dotted_and_rejoins "numpy.linalg.inv"
  exact ⟨hcheck, hdotted.mp hcheck, hsegments.mp hcheck, hrejoins hcheck⟩

end Path

end RemoteCall
