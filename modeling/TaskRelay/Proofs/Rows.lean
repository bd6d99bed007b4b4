import Mathlib.Algebra.Order.Ring.Nat
import TaskRelay.Rows

/-!
# Adding up over rows

What the rows amount to when every row counts for something.

> `Rows.sum_set`, `Rows.sum_erase`: a change of one row changes the sum by that row alone.

> `sum_le_add_length`: if no item gets more than one above what it was, the sum gets no more than
> one per item above.
-/

namespace TaskRelay

/-- If every item gives at most one more, all of them together give at most one more each. -/
theorem sum_le_add_length {α : Type} {f g : α → Nat} {l : List α} (h : ∀ a, f a ≤ g a + 1) :
    (l.map f).sum ≤ (l.map g).sum + l.length := by
  induction l with
  | nil => exact Nat.le_refl _
  | cons a rest ih =>
    have ha := h a
    simp only [List.map_cons, List.sum_cons, List.length_cons]
    omega

namespace Rows

variable {κ α : Type} [DecidableEq κ] {key : κ} {a b : α} {f : κ × α → Nat} {rows : Rows κ α}

/-- A row that changes changes a sum by itself. -/
theorem sum_set (h : get? key rows = some b) :
    ((set key a rows).map f).sum + f (key, b) = (rows.map f).sum + f (key, a) := by
  have hsum := ((perm_set (a := a) h).map f).sum_nat
  rw [List.map_cons, List.sum_cons, List.map_cons, List.sum_cons] at hsum
  omega

/-- A row that is taken out is missing in a sum. -/
theorem sum_erase (h : get? key rows = some b) :
    ((erase key rows).map f).sum + f (key, b) = (rows.map f).sum := by
  have hsum := ((perm_erase h).map f).sum_nat
  rw [List.map_cons, List.sum_cons] at hsum
  omega

theorem length_erase (h : get? key rows = some b) :
    (erase key rows).length + 1 = rows.length := (perm_erase h).length_eq

end Rows

end TaskRelay
