import Mathlib.Data.Finset.Card
import Mathlib.Order.Interval.Finset.Nat
import Mathlib.Tactic.Common
import Spoo.Routes.ApiV1.Shorten
import Spoo.Routes.Redirect

/-!
# The bands of a split link (`shared/ab_variants.py`)

`pick_variant` lays the weights of the variants end to end over the rolls of `randrange(100)`. The
band of a variant begins where the weights before it end, so each variant is picked by as many rolls
as it weighs, and the rolls above the last band pick none.
-/

namespace Spoo

/-- The weights of the variants. -/
def weights (variants : List AbVariant) : List Nat := variants.map (·.weight)

@[simp] theorem weights_nil : weights [] = [] := rfl

@[simp] theorem weights_cons (variant : AbVariant) (variants : List AbVariant) :
    weights (variant :: variants) = variant.weight :: weights variants := rfl

/-- The loop counts up. -/
theorem le_of_pickVariantFrom {roll j : Nat} (variants : List AbVariant) (ceiling index : Nat)
    (h : pickVariantFrom roll ceiling index variants = some j) : index ≤ j := by
  induction variants generalizing ceiling index with
  | nil => simp [pickVariantFrom] at h
  | cons variant variants ih =>
    rw [pickVariantFrom] at h
    by_cases hroll : roll < ceiling + variant.weight
    · rw [if_pos hroll] at h
      simp only [Option.some.injEq] at h
      omega
    · rw [if_neg hroll] at h
      have := ih (ceiling + variant.weight) (index + 1) h
      omega

/-- A roll that no variant before has taken picks the variant in whose band it falls. -/
theorem pickVariantFrom_eq_some_iff (roll i : Nat) (variants : List AbVariant) (ceiling index : Nat)
    (hceiling : ceiling ≤ roll) :
    pickVariantFrom roll ceiling index variants = some (index + i) ↔
      i < variants.length ∧ ceiling + ((weights variants).take i).sum ≤ roll ∧
        roll < ceiling + ((weights variants).take (i + 1)).sum := by
  induction variants generalizing ceiling index i with
  | nil => simp [pickVariantFrom]
  | cons variant variants ih =>
    rw [pickVariantFrom]
    by_cases hroll : roll < ceiling + variant.weight
    · rw [if_pos hroll]
      cases i with
      | zero => simp [hceiling, hroll]
      | succ i =>
        simp only [weights_cons, List.take_succ_cons, List.sum_cons, Option.some.injEq]
        omega
    · rw [if_neg hroll]
      cases i with
      | zero =>
        -- Neither side holds: the loop is past this variant.
        have hpast : pickVariantFrom roll (ceiling + variant.weight) (index + 1) variants ≠ some index := by
          intro hpicked
          have := le_of_pickVariantFrom variants (ceiling + variant.weight) (index + 1) hpicked
          omega
        simp [hpast, hroll]
      | succ i =>
        have hlater := ih i (ceiling + variant.weight) (index + 1) (by omega)
        rw [show index + (i + 1) = index + 1 + i by omega, hlater]
        simp only [weights_cons, List.take_succ_cons, List.sum_cons, List.length_cons]
        omega

/-- Above all bands no variant is picked. -/
theorem pickVariantFrom_eq_none_iff (roll : Nat) (variants : List AbVariant) (ceiling index : Nat)
    (hceiling : ceiling ≤ roll) :
    pickVariantFrom roll ceiling index variants = none ↔ ceiling + (weights variants).sum ≤ roll := by
  induction variants generalizing ceiling index with
  | nil => simpa [pickVariantFrom] using hceiling
  | cons variant variants ih =>
    rw [pickVariantFrom]
    by_cases hroll : roll < ceiling + variant.weight
    · rw [if_pos hroll]
      simp only [reduceCtorEq, weights_cons, List.sum_cons, false_iff]
      omega
    · rw [if_neg hroll, ih (ceiling + variant.weight) (index + 1) (by omega)]
      simp only [weights_cons, List.sum_cons]
      omega

theorem pickVariant_eq_some_iff (roll i : Nat) (variants : List AbVariant) :
    pickVariant variants roll = some i ↔
      i < variants.length ∧ ((weights variants).take i).sum ≤ roll ∧
        roll < ((weights variants).take (i + 1)).sum := by
  simpa [pickVariant] using pickVariantFrom_eq_some_iff roll i variants 0 0 (Nat.zero_le roll)

theorem pickVariant_eq_none_iff (roll : Nat) (variants : List AbVariant) :
    pickVariant variants roll = none ↔ (weights variants).sum ≤ roll := by
  simpa [pickVariant] using pickVariantFrom_eq_none_iff roll variants 0 0 (Nat.zero_le roll)

/-- The band of a variant is as wide as its weight. -/
theorem take_weights_succ {variants : List AbVariant} {i : Nat} (hi : i < variants.length) :
    ((weights variants).take (i + 1)).sum = ((weights variants).take i).sum + variants[i].weight := by
  rw [List.sum_take_succ _ _ (by simpa [weights] using hi)]
  simp [weights]

/-- Every band ends within the weights of all. -/
theorem take_weights_le (variants : List AbVariant) (i : Nat) :
    ((weights variants).take i).sum ≤ (weights variants).sum := by
  have hsplit := List.sum_take_add_sum_drop (weights variants) i
  omega

/-- The rolls of a variant are its band. -/
theorem rolls_of_variant {variants : List AbVariant} (hsum : (weights variants).sum ≤ 100) {i : Nat}
    (hi : i < variants.length) :
    (Finset.range 100).filter (fun roll => pickVariant variants roll = some i) =
      Finset.Ico ((weights variants).take i).sum ((weights variants).take (i + 1)).sum := by
  have hend := take_weights_le variants (i + 1)
  ext roll
  simp only [Finset.mem_filter, Finset.mem_range, pickVariant_eq_some_iff, Finset.mem_Ico]
  omega

/-- The rolls of no variant are those above the last band. -/
theorem rolls_of_none (variants : List AbVariant) :
    (Finset.range 100).filter (fun roll => pickVariant variants roll = none) =
      Finset.Ico (weights variants).sum 100 := by
  ext roll
  simp only [Finset.mem_filter, Finset.mem_range, pickVariant_eq_none_iff, Finset.mem_Ico]
  omega

/-- Of the rolls of `randrange(100)`, each variant is picked by as many as its weight, no roll picks
a position that is none of a variant's, and the rolls that the weights leave pick no variant. -/
theorem rolls_partitioned (variants : List AbVariant) (hsum : (weights variants).sum ≤ 100) :
    (∀ i (hi : i < variants.length),
        ((Finset.range 100).filter fun roll => pickVariant variants roll = some i).card = variants[i].weight) ∧
      (∀ roll i, pickVariant variants roll = some i → i < variants.length) ∧
        ((Finset.range 100).filter fun roll => pickVariant variants roll = none).card =
          100 - (weights variants).sum := by
  refine ⟨?_, ?_, ?_⟩
  · intro i hi
    rw [rolls_of_variant hsum hi, Nat.card_Ico, take_weights_succ hi]
    omega
  · intro roll i hpicked
    exact ((pickVariant_eq_some_iff roll i variants).1 hpicked).1
  · rw [rolls_of_none, Nat.card_Ico]

/-- Three variants that leave a fifth of the visitors to the default destination. -/
def threeVariants : List AbVariant :=
  [⟨"https://a.example/", 1, by omega⟩, ⟨"https://b.example/", 50, by omega⟩,
    ⟨"https://c.example/", 29, by omega⟩]

theorem rolls_partitioned_three :
    (weights threeVariants).sum ≤ 100 ∧
      ((Finset.range 100).filter fun roll => pickVariant threeVariants roll = some 2).card = 29 ∧
        ((Finset.range 100).filter fun roll => pickVariant threeVariants roll = none).card = 20 := by
  have hsum : (weights threeVariants).sum ≤ 100 := by decide
  have hparts := rolls_partitioned threeVariants hsum
  exact ⟨hsum, hparts.1 2 (by decide), hparts.2.2⟩

end Spoo
