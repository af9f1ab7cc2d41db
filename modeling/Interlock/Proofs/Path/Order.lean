import Interlock.Path.Basic
import Interlock.Proofs.Order
import Mathlib.Data.List.Lex
import Mathlib.Data.Prod.Lex
import Mathlib.Data.String.Basic

/-!
# The order of paths

Paths are compared component by component, a component by its kind and then by its name. So each
path has a key in a linear order, and comparing paths is comparing keys (`Path.ordersBy_key`).
-/

namespace Interlock.Path

namespace Component

/-- What a component is compared by. -/
def key : Component → Nat ×ₗ String
  | normal name => toLex (3, name)
  | c => toLex (c.rank, "")

theorem ordersBy_key : OrdersBy Component.compare key where
  lt_iff := by
    intro a b
    cases a <;> cases b <;>
      simp [Component.compare, key, rank, Prod.Lex.toLex_lt_toLex, compare_lt_iff_lt]
  eq_iff := by
    intro a b
    cases a <;> cases b <;> simp [Component.compare, key, rank]

end Component

/-- What a path is compared by. -/
def key (path : String) : List (Nat ×ₗ String) := (components path).map Component.key

theorem ordersBy_key : OrdersBy Path.compare key :=
  (Component.ordersBy_key.list rfl (fun _ _ => rfl) (fun _ _ => rfl) fun _ _ _ _ => rfl).comap
    components

end Interlock.Path
