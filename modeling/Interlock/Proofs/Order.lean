import Mathlib.Data.List.Lex
import Mathlib.Data.Prod.Lex

/-!
# Comparing by keys

A comparison orders by a key if it comes to comparing keys in a linear order (`OrdersBy`). To
compare by one key and then by another is to compare by the pair (`OrdersBy.andThen`), and to
compare lists member by member is to compare the lists of keys (`OrdersBy.list`). A list that is
sorted with such a comparison is sorted by its keys (`OrdersBy.pairwise_mergeSort`).
-/

namespace Interlock

/-- Comparing is comparing keys. -/
structure OrdersBy {α κ : Type} [LinearOrder κ] (cmp : α → α → Ordering) (key : α → κ) : Prop where
  lt_iff : ∀ {a b}, cmp a b = .lt ↔ key a < key b
  eq_iff : ∀ {a b}, cmp a b = .eq ↔ key a = key b

namespace OrdersBy

variable {α β κ κ' : Type} [LinearOrder κ] [LinearOrder κ'] {cmp cmp' : α → α → Ordering}
  {key : α → κ} {key' : α → κ'}

theorem isLE_iff (h : OrdersBy cmp key) {a b : α} : (cmp a b).isLE ↔ key a ≤ key b := by
  rw [Ordering.isLE_iff_eq_lt_or_eq_eq, h.lt_iff, h.eq_iff, le_iff_lt_or_eq]

theorem comap (h : OrdersBy cmp key) (f : β → α) :
    OrdersBy (fun a b => cmp (f a) (f b)) fun a => key (f a) :=
  ⟨h.lt_iff, h.eq_iff⟩

/-- Comparing by a second key where the first one does not decide. -/
theorem andThen (h : OrdersBy cmp key) (h' : OrdersBy cmp' key') :
    OrdersBy (fun a b => (cmp a b).then (cmp' a b)) fun a => toLex (key a, key' a) where
  lt_iff := by
    intro a b
    rw [Ordering.then_eq_lt, h.lt_iff, h.eq_iff, h'.lt_iff, Prod.Lex.toLex_lt_toLex]
  eq_iff := by
    intro a b
    rw [Ordering.then_eq_eq, h.eq_iff, h'.eq_iff, toLex_inj, Prod.mk.injEq]

/-- Comparing lists member by member, a list before its continuations. -/
theorem list (h : OrdersBy cmp key) {cmps : List α → List α → Ordering} (nil : cmps [] [] = .eq)
    (nil_cons : ∀ b bs, cmps [] (b :: bs) = .lt) (cons_nil : ∀ a as, cmps (a :: as) [] = .gt)
    (cons : ∀ a as b bs, cmps (a :: as) (b :: bs) = (cmp a b).then (cmps as bs)) :
    OrdersBy cmps fun as => as.map key where
  lt_iff := by
    intro as bs
    induction as generalizing bs with
    | nil => cases bs <;> simp [nil, nil_cons]
    | cons a as ih =>
      cases bs with
      | nil => simp [cons_nil]
      | cons b bs =>
        rw [cons, Ordering.then_eq_lt, ih, h.lt_iff, h.eq_iff, List.map_cons, List.map_cons,
          List.cons_lt_cons_iff]
  eq_iff := by
    intro as bs
    induction as generalizing bs with
    | nil => cases bs <;> simp [nil, nil_cons]
    | cons a as ih =>
      cases bs with
      | nil => simp [cons_nil]
      | cons b bs =>
        rw [cons, Ordering.then_eq_eq, ih, h.eq_iff, List.map_cons, List.map_cons, List.cons.injEq]

theorem pairwise_mergeSort (h : OrdersBy cmp key) (l : List α) :
    (l.mergeSort fun a b => (cmp a b).isLE).Pairwise fun a b => key a ≤ key b := by
  refine (List.pairwise_mergeSort (fun a b c hab hbc => ?_) (fun a b => ?_) l).imp h.isLE_iff.1
  · rw [h.isLE_iff] at hab hbc ⊢
    exact hab.trans hbc
  · rw [Bool.or_eq_true, h.isLE_iff, h.isLE_iff]
    exact le_total _ _

end OrdersBy

theorem ordersBy_compare {α κ : Type} [LinearOrder κ] (key : α → κ) :
    OrdersBy (fun a b => compare (key a) (key b)) key where
  lt_iff := compare_lt_iff_lt
  eq_iff := compare_eq_iff_eq

end Interlock
