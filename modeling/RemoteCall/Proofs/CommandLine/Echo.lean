import RemoteCall.CommandLine.Run
import RemoteCall.Proofs.Json.Limit
import RemoteCall.Proofs.Value.Plain

/-!
# Typed arguments shown again

An argument is typed as a text, and the value that it stands for is printed over several
lines if it is what a call comes to.  For a tree without numbers but whole ones of 64 bits
the printed text is read as the tree that was typed, up to the order of members; the text
itself is that of this tree, so it does not matter how the argument was spaced.
-/

namespace RemoteCall

namespace Json

variable {tree : Json}

theorem exact_of_whole (hwhole : tree.Whole) : tree.Exact := by
  induction tree using tree_induction with
  | leaf tree hleaf =>
      cases tree with
      | int n => exact ⟨hwhole.1, Int.lt_of_le_of_lt hwhole.2 (by decide)⟩
      | float x => exact hwhole.elim
      | unreadable => exact hwhole.elim
      | arr items => exact hleaf.elim
      | obj members => exact hleaf.elim
      | _ => trivial
  | arr items ih =>
      exact exactItems_iff.mpr fun item hmem => ih item hmem (whole_arr_iff.mp hwhole item hmem)
  | obj members ih =>
      exact exactMembers_iff.mpr fun member hmem =>
        ih member hmem (whole_obj_iff.mp hwhole member hmem)

/-- What is read of a text can be printed over several lines and read again. -/
theorem ofText?_indented (hexact : tree.Exact) (hdepth : tree.depth ≤ nestingLimit) :
    ofText? (indented tree ++ "\n") = some tree := by
  rw [ofText?, parse?, parseWithin?_indented hexact, truncate_of_depth_le tree hdepth]

end Json

namespace Value

open Json (Reordered)

variable {tree : Json} {text : String}

theorem ofTyped_of_ofText? (hread : Json.ofText? text = some tree)
    (hreadable : tree.isReadable) : ofTyped text = ofPlain tree := by
  rw [ofTyped, hread]
  exact if_pos hreadable

/-- What is shown of a tree that was read is read again. -/
theorem ofText?_shown (hwhole : tree.Whole) (hregular : tree.Regular)
    (hread : Json.ofText? text = some tree) :
    Json.ofText? (Json.indented (toPlain (ofPlain tree)) ++ "\n") =
      some (toPlain (ofPlain tree)) := by
  have hexact := Json.exact_of_whole hwhole
  have hreordered := reordered_toPlain_ofPlain hwhole hregular
  have hdepth : (toPlain (ofPlain tree)).depth ≤ Json.nestingLimit := by
    rw [Json.depth_of_reordered hreordered]
    exact Json.depth_le_of_ofText? hread (Json.isReadable_of_exact tree hexact)
  exact Json.ofText?_indented (Json.exact_of_reordered hreordered hexact) hdepth

/-- A tree comes back as it was typed, and no other tree stands for its value. -/
structure ComesBack (tree : Json) : Prop where
  /-- With its names in order it is shown as it is. -/
  same : tree.Ordered → toPlain (ofPlain tree) = tree
  /-- Otherwise it is shown with its members in order. -/
  ordered : (toPlain (ofPlain tree)).Ordered ∧ Reordered tree (toPlain (ofPlain tree))
  /-- Another tree with its names in order stands for another value. -/
  alone : tree.Ordered → ∀ other : Json, other.Whole → other.Ordered →
    ofPlain other = ofPlain tree → other = tree
  /-- Of all trees just those stand for its value that have its members in some order. -/
  apart : ∀ other : Json, other.Whole → other.Regular →
    (ofPlain other = ofPlain tree ↔ Reordered tree other)
  /-- Typed in any way and printed as what a call comes to, it is read from what is
  printed. -/
  echoed : ∀ text notices, Json.ofText? text = some tree →
    CommandLine.showResult (.ok (some (ofTyped text))) notices =
        .shown (Json.indented (toPlain (ofPlain tree)) ++ "\n") notices ∧
      Json.ofText? (Json.indented (toPlain (ofPlain tree)) ++ "\n") =
        some (toPlain (ofPlain tree))

/-- A tree whose numbers are whole and fit into 64 bits, and whose objects have no two
members of one name, comes back. -/
theorem comesBack_of_whole (hwhole : tree.Whole) (hregular : tree.Regular) :
    ComesBack tree where
  same hordered := toPlain_ofPlain_of_ordered hwhole hordered
  ordered := ⟨ordered_toPlain_ofPlain tree, reordered_toPlain_ofPlain hwhole hregular⟩
  alone hordered other hwhole' hordered' heq := by
    rw [← toPlain_ofPlain_of_ordered hwhole' hordered', heq,
      toPlain_ofPlain_of_ordered hwhole hordered]
  apart other hwhole' hregular' := ofPlain_eq_iff_reordered hwhole hregular hwhole' hregular'
  echoed text notices hread := by
    refine ⟨?_, ofText?_shown hwhole hregular hread⟩
    rw [ofTyped_of_ofText? hread (Json.isReadable_of_exact tree (Json.exact_of_whole hwhole)),
      CommandLine.showResult]

/-- A form with its names out of order, one of them empty, and the least and the greatest of
the numbers. -/
def form : Json :=
  .obj [("places", .arr [.int (-9223372036854775808), .arr [], .obj []]),
    ("", .null),
    ("note", .str "a \"b\""),
    ("kept", .obj [("yes", .bool true), ("last", .int 9223372036854775807)])]

theorem comesBack_of_whole_form :
    form.Whole ∧ form.Regular ∧ ComesBack form ∧
      Json.ofText? (Json.indented form ++ "\n") = some form ∧
      toPlain (ofPlain form) =
        .obj [("", .null),
          ("kept", .obj [("last", .int 9223372036854775807), ("yes", .bool true)]),
          ("note", .str "a \"b\""),
          ("places", .arr [.int (-9223372036854775808), .arr [], .obj []])] := by
  have hwhole : form.Whole := by
    simp [form, Json.Whole, Json.WholeMembers, Json.WholeItems, Int64.toInt_maxValue]
  have hregular : form.Regular := by
    simp [form, Json.Regular, Json.RegularMembers, Json.RegularItems]
  have hread : Json.ofText? (Json.indented form ++ "\n") = some form :=
    Json.ofText?_indented (Json.exact_of_whole hwhole) (by decide)
  exact ⟨hwhole, hregular, comesBack_of_whole hwhole hregular, hread, rfl⟩

end Value

end RemoteCall
