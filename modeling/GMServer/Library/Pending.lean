import Mathlib.Data.List.Basic

/-!
# Pending operations

A list of operations that were started and have not completed.  They complete
in any order, so one is taken out at any position.
-/

namespace GMServer
namespace Pending

variable {op : Type}

/-- A list around the operation at one of its positions. -/
theorem split_at {pending : List op} {i : Nat} {o : op} (h : pending[i]? = some o) :
    exists before after, pending = before ++ o :: after ∧
      pending.eraseIdx i = before ++ after ∧ before.length = i := by
  induction pending generalizing i with
  | nil =>
      cases h
  | cons first rest ih =>
      cases i with
      | zero =>
          cases h
          exact ⟨[], rest, rfl, rfl, rfl⟩
      | succ i =>
          rcases ih h with ⟨before, after, hlist, herase, hlength⟩
          refine ⟨first :: before, after, ?_, ?_, ?_⟩
          · rw [hlist, List.cons_append]
          · rw [List.eraseIdx_cons_succ, herase, List.cons_append]
          · rw [List.length_cons, hlength]

theorem getElem?_of_split (before after : List op) (o : op) :
    (before ++ o :: after)[before.length]? = some o := by
  rw [List.getElem?_append_right (Nat.le_refl _), Nat.sub_self]
  rfl

/-- Counting after one operation was taken out. -/
theorem countP_eraseIdx {pending : List op} {i : Nat} {o : op} (p : op -> Bool)
    (h : pending[i]? = some o) :
    (pending.eraseIdx i).countP p + (if p o then 1 else 0) = pending.countP p := by
  rcases split_at h with ⟨before, after, hlist, herase, _⟩
  rw [herase, hlist, List.countP_append, List.countP_append, List.countP_cons]
  omega

/-- Counting after one operation was replaced. -/
theorem countP_set {pending : List op} {i : Nat} {o : op} (p : op -> Bool) (new : op)
    (h : pending[i]? = some o) :
    (pending.set i new).countP p + (if p o then 1 else 0) =
      pending.countP p + (if p new then 1 else 0) := by
  rcases split_at h with ⟨before, after, hlist, _, hlength⟩
  rw [hlist, List.set_append_right _ _ (Nat.le_of_eq hlength), hlength, Nat.sub_self,
    List.set_cons_zero, List.countP_append, List.countP_append, List.countP_cons,
    List.countP_cons]
  omega

end Pending
end GMServer
