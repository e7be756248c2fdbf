import RemoteCall.Catalog.Check
import RemoteCall.Proofs.Outcome

/-!
# What the check of a catalog asks for

A catalog passes its check just when each of its endpoints, of the service or of a
library, can be used: both of its paths are dotted paths, and its signature passes the
check of signatures.
-/

namespace RemoteCall

/-- An endpoint with dotted paths and a signature that can be used. -/
structure Endpoint.Usable (endpoint : Endpoint) : Prop where
  servicePath : Path.isValid endpoint.servicePath
  modulePath : Path.isValid endpoint.modulePath
  signature : endpoint.signature.check = .ok ()

namespace Catalog

/-- All endpoints of a catalog under their keys, those of libraries last. -/
def allEndpoints (catalog : Catalog) : List (String × Endpoint) :=
  catalog.endpoints.entries ++ catalog.libEndpoints.entries

theorem checkPath_eq_ok_iff {path : String} : checkPath path = .ok () ↔ Path.isValid path := by
  rw [checkPath, Outcome.mapError_eq_ok_iff, Path.check]
  split
  · rename_i hvalid
    exact iff_of_true rfl hvalid
  · rename_i hinvalid
    exact iff_of_false nofun hinvalid

theorem checkSignature_eq_ok_iff {path : String} {signature : Signature} :
    checkSignature path signature = .ok () ↔ signature.check = .ok () :=
  Outcome.mapError_eq_ok_iff

theorem checkEndpoint_eq_ok_iff {key : String} {endpoint : Endpoint} :
    checkEndpoint key endpoint = .ok () ↔ endpoint.Usable := by
  constructor
  · intro hcheck
    rw [checkEndpoint] at hcheck
    split at hcheck
    · cases hcheck
    · rename_i hservice
      split at hcheck
      · cases hcheck
      · rename_i hmodule
        exact ⟨checkPath_eq_ok_iff.mp hservice, checkPath_eq_ok_iff.mp hmodule,
          checkSignature_eq_ok_iff.mp hcheck⟩
  · intro husable
    rw [checkEndpoint, checkPath_eq_ok_iff.mpr husable.servicePath,
      checkPath_eq_ok_iff.mpr husable.modulePath]
    exact checkSignature_eq_ok_iff.mpr husable.signature

theorem checkEndpoints_eq_ok_iff {entries : List (String × Endpoint)} :
    checkEndpoints entries = .ok () ↔ ∀ entry ∈ entries, entry.2.Usable := by
  induction entries with
  | nil => exact iff_of_true rfl nofun
  | cons entry rest ih =>
      rw [checkEndpoints, List.forall_mem_cons, ← ih, ← @checkEndpoint_eq_ok_iff entry.1]
      cases checkEndpoint entry.1 entry.2 with
      | error e => simp
      | ok _ => simp

theorem check_eq_ok_iff {catalog : Catalog} :
    catalog.check = .ok () ↔ ∀ entry ∈ catalog.allEndpoints, entry.2.Usable := by
  rw [allEndpoints, List.forall_mem_append, ← checkEndpoints_eq_ok_iff,
    ← checkEndpoints_eq_ok_iff, check]
  cases checkEndpoints catalog.endpoints.entries with
  | error e => simp
  | ok _ => simp

end Catalog

end RemoteCall
