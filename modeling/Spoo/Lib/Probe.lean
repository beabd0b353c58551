import Mathlib.Data.Option.Basic
import Mathlib.Data.Set.Operations
import Mathlib.Logic.Function.Basic

/-!
# Lookups over several slots

A table has slots, some of them filled. A lookup probes slots in an order and answers from the first
filled one. Filling a free slot masks a lookup when the slot comes before the one that answers, and
this is the only way it changes an answer.
-/

namespace Probe

variable {κ ρ : Type} [DecidableEq κ]

/-- The slot is probed first, and a later one answers. -/
def Masks (table : κ → Option ρ) (slot : κ) : List κ → Prop
  | [] => False
  | probe :: probes =>
    if probe = slot then (probes.findSome? table).isSome = true
    else table probe = none ∧ Masks table slot probes

variable {table : κ → Option ρ} {slot : κ} {probes : List κ} {x y : ρ}

theorem masks_cons {probe : κ} : Masks table slot (probe :: probes) ↔
    probe = slot ∧ (probes.findSome? table).isSome = true ∨
      probe ≠ slot ∧ table probe = none ∧ Masks table slot probes := by
  rw [Masks]
  split <;> simp [*]

/-- A slot that is not probed masks nothing. -/
theorem not_masks_of_not_mem (h : slot ∉ probes) : ¬Masks table slot probes := by
  induction probes with
  | nil => exact id
  | cons probe probes ih =>
    rw [List.mem_cons, not_or] at h
    rw [masks_cons]
    rintro (⟨rfl, -⟩ | ⟨-, -, hmask⟩)
    · exact h.1 rfl
    · exact ih h.2 hmask

/-- A lookup that a filled slot does not mask answers as before. -/
theorem findSome?_update_of_not_masks (hfree : table slot = none)
    (hmask : ¬Masks table slot probes) (h : probes.findSome? table = some y) :
    probes.findSome? (Function.update table slot (some x)) = some y := by
  induction probes with
  | nil => cases h
  | cons probe probes ih =>
    rw [masks_cons, not_or] at hmask
    by_cases hprobe : probe = slot
    · subst hprobe
      rw [List.findSome?_cons, hfree] at h
      have hlater : probes.findSome? table = some y := h
      exact absurd ⟨rfl, by rw [hlater]; rfl⟩ hmask.1
    · rw [List.findSome?_cons, Function.update_of_ne hprobe]
      rw [List.findSome?_cons] at h
      cases htable : table probe with
      | some found =>
        rw [htable] at h
        exact h
      | none =>
        rw [htable] at h
        exact ih (fun hlater => hmask.2 ⟨hprobe, htable, hlater⟩) h

/-- A lookup that a filled slot masks answered something and now answers from the slot. -/
theorem findSome?_of_masks (hfree : table slot = none) (hmask : Masks table slot probes) :
    (probes.findSome? table).isSome = true ∧
      probes.findSome? (Function.update table slot (some x)) = some x := by
  induction probes with
  | nil => cases hmask
  | cons probe probes ih =>
    rcases masks_cons.1 hmask with ⟨rfl, hlater⟩ | ⟨hprobe, htable, hlater⟩
    · rw [List.findSome?_cons, List.findSome?_cons, hfree, Function.update_self]
      exact ⟨hlater, rfl⟩
    · rw [List.findSome?_cons, List.findSome?_cons, Function.update_of_ne hprobe, htable]
      exact ih hlater

/-- Filling a free slot with something new changes no answer, if and only if it masks no lookup. -/
theorem findSome?_update_iff (hfree : table slot = none) (hnew : ∀ probe, table probe ≠ some x) :
    (∀ y, probes.findSome? table = some y →
      probes.findSome? (Function.update table slot (some x)) = some y) ↔
      ¬Masks table slot probes := by
  refine ⟨fun hkept hmask => ?_, fun hmask y h => findSome?_update_of_not_masks hfree hmask h⟩
  obtain ⟨hfound, hnow⟩ := findSome?_of_masks (x := x) hfree hmask
  obtain ⟨y, hy⟩ := Option.isSome_iff_exists.1 hfound
  have hsame : x = y := Option.some.inj (hnow.symm.trans (hkept y hy))
  obtain ⟨probe, -, hprobe⟩ := List.exists_of_findSome?_eq_some hy
  exact hnew probe (hsame ▸ hprobe)

/-- Emptying a slot leaves a lookup that answers something else. -/
theorem findSome?_update_none (h : probes.findSome? table = some y) (hne : table slot ≠ some y) :
    probes.findSome? (Function.update table slot none) = some y := by
  induction probes with
  | nil => cases h
  | cons probe probes ih =>
    rw [List.findSome?_cons] at h ⊢
    by_cases hprobe : probe = slot
    · subst hprobe
      rw [Function.update_self]
      cases htable : table probe with
      | some found =>
        rw [htable] at h
        exact absurd (htable.trans h) hne
      | none =>
        rw [htable] at h
        exact ih h
    · rw [Function.update_of_ne hprobe]
      cases htable : table probe with
      | some found =>
        rw [htable] at h
        exact h
      | none =>
        rw [htable] at h
        exact ih h

/-- A table that changes at one key of a family of slots, and nowhere outside the family. -/
theorem eq_update_of_comp {α : Type} [DecidableEq α] (place : α → κ) (hplace : place.Injective)
    {table' : κ → Option ρ} (key : α) {v : Option ρ}
    (hin : table' ∘ place = Function.update (table ∘ place) key v)
    (hout : ∀ slot, slot ∉ Set.range place → table' slot = table slot) :
    table' = Function.update table (place key) v := by
  rw [← Function.update_comp_eq_of_injective table hplace key v] at hin
  funext slot
  by_cases hslot : slot ∈ Set.range place
  · obtain ⟨k, rfl⟩ := hslot
    exact congrFun hin k
  · rw [Function.update_of_ne fun heq => hslot ⟨key, heq.symm⟩]
    exact hout slot hslot

end Probe
