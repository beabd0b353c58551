import Mathlib.Algebra.BigOperators.Group.List.Basic
import Mathlib.Algebra.Ring.Int.Defs
import Mathlib.Algebra.Ring.Nat
import Spoo.Lib.PyDict

/-!
# Totals

Sums over the entries of a dictionary, and over the groups of a list.
-/

namespace PyDict

variable {κ α : Type} [DecidableEq κ]

/-- A sum over the values loses the one that is replaced. -/
theorem sum_assignEntry (f : α → Int) (k : κ) (v : α) (es : List (κ × α)) :
    ((assignEntry k v es).map fun e => f e.2).sum =
      (es.map fun e => f e.2).sum - (((es.find? fun e => e.1 = k).map fun e => f e.2).getD 0) + f v := by
  induction es with
  | nil => simp [assignEntry]
  | cons e es ih =>
    by_cases hk : e.1 = k
    · simp only [assignEntry, hk, if_true, List.map_cons, List.sum_cons, List.find?_cons, decide_true,
        Option.map_some, Option.getD_some]
      omega
    · simp only [assignEntry, hk, if_false, List.map_cons, List.sum_cons, List.find?_cons, decide_false, ih]
      omega

end PyDict

namespace Totals

/-- The groups of the keys hold each element with one of the keys once. -/
theorem sum_countP {α β : Type} [DecidableEq β] (f : α → β) (xs : List α) {keys : List β}
    (hnodup : keys.Nodup) :
    (keys.map fun k => xs.countP fun x => f x = k).sum = xs.countP fun x => f x ∈ keys := by
  induction keys with
  | nil => simp
  | cons k keys ih =>
    obtain ⟨hk, hkeys⟩ := List.nodup_cons.1 hnodup
    rw [List.map_cons, List.sum_cons, ih hkeys]
    clear ih
    induction xs with
    | nil => rfl
    | cons x xs ih =>
      simp only [List.countP_cons, List.mem_cons, decide_eq_true_eq]
      by_cases hx : f x = k
      · have hnot : f x ∉ keys := fun h => hk (hx ▸ h)
        simp only [hx, true_or, if_true]
        rw [← hx, if_neg hnot]
        simp only [List.mem_cons, ← hx] at ih
        omega
      · simp only [hx, false_or, if_false]
        simp only [List.mem_cons] at ih
        omega

end Totals
