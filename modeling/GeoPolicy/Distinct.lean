/-!
# Distinct members

## Main definitions

* `distinct` — the members of a list, each once, in the order of their first occurrences.
-/

namespace GeoPolicy

/-- The members of a list in the order of their first occurrences, each once. -/
def distinct {α : Type} [DecidableEq α] : List α → List α
  | [] => []
  | a :: rest => a :: (distinct rest).filter (· ≠ a)

theorem distinct_nodup {α : Type} [DecidableEq α] (l : List α) : (distinct l).Nodup := by
  induction l with
  | nil => exact List.nodup_nil
  | cons a rest ih => exact List.nodup_cons.2 ⟨by simp, List.Pairwise.filter _ ih⟩

end GeoPolicy
