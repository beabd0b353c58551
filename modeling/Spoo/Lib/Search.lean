import Mathlib.Data.List.Infix

/-!
# Finding a marker in a text

`text.find(marker, start)`: the first position at which the marker stands. A text that grows needs to be
searched again only from where the marker can still begin.
-/

namespace Search

variable {α : Type} [DecidableEq α]

/-- The marker stands at a position of the text. -/
def OccursAt (marker text : List α) (i : Nat) : Prop := i ≤ text.length ∧ marker <+: text.drop i

/-- `text.find(marker)`. -/
def find (marker : List α) : List α → Option Nat
  | [] => if marker = [] then some 0 else none
  | c :: text => if marker <+: c :: text then some 0 else (find marker text).map (· + 1)

/-- `text.find(marker, start)`. -/
def findFrom (marker : List α) (start : Nat) (text : List α) : Option Nat :=
  if start ≤ text.length then (find marker (text.drop start)).map (start + ·) else none

/-- The position behind the first marker. -/
def firstEnd (marker text : List α) : Option Nat := (find marker text).map (· + marker.length)

variable {marker text more : List α} {i start : Nat}

omit [DecidableEq α] in
theorem occursAt_cons_succ {c : α} : OccursAt marker (c :: text) (i + 1) ↔ OccursAt marker text i := by
  unfold OccursAt
  rw [List.length_cons, List.drop_succ_cons, Nat.add_le_add_iff_right]

omit [DecidableEq α] in
theorem occursAt_zero : OccursAt marker text 0 ↔ marker <+: text := by
  unfold OccursAt
  rw [List.drop_zero]
  exact and_iff_right (Nat.zero_le _)

omit [DecidableEq α] in
theorem OccursAt.end_le (h : OccursAt marker text i) : i + marker.length ≤ text.length := by
  have hlength := h.2.length_le
  rw [List.length_drop] at hlength
  have hle := h.1
  omega

omit [DecidableEq α] in
theorem OccursAt.append (h : OccursAt marker text i) (more : List α) : OccursAt marker (text ++ more) i := by
  refine ⟨?_, ?_⟩
  · rw [List.length_append]
    exact h.1.trans (Nat.le_add_right _ _)
  · rw [List.drop_append_of_le_length h.1]
    exact h.2.trans (List.prefix_append _ _)

omit [DecidableEq α] in
/-- A marker that ends within the first part stands there. -/
theorem OccursAt.of_append (h : OccursAt marker (text ++ more) i) (hend : i + marker.length ≤ text.length) :
    OccursAt marker text i := by
  have hle : i ≤ text.length := by omega
  have hmarker := h.2
  rw [List.drop_append_of_le_length hle] at hmarker
  refine ⟨hle, List.prefix_of_prefix_length_le hmarker (List.prefix_append _ _) ?_⟩
  rw [List.length_drop]
  omega

theorem find_eq_none_iff : find marker text = none ↔ ∀ i, ¬OccursAt marker text i := by
  induction text with
  | nil =>
    unfold find OccursAt
    constructor
    · intro h i hi
      rw [List.drop_nil, List.prefix_nil] at hi
      rw [if_pos hi.2] at h
      cases h
    · intro h
      refine if_neg fun hempty => h 0 ⟨le_refl 0, ?_⟩
      rw [hempty]
      exact List.nil_prefix
  | cons c text ih =>
    unfold find
    constructor
    · intro h i hi
      split_ifs at h with hhead
      rw [Option.map_eq_none_iff] at h
      cases i with
      | zero => exact hhead (occursAt_zero.1 hi)
      | succ i => exact ih.1 h i (occursAt_cons_succ.1 hi)
    · intro h
      rw [if_neg fun hhead => h 0 (occursAt_zero.2 hhead), Option.map_eq_none_iff]
      exact ih.2 fun i hi => h (i + 1) (occursAt_cons_succ.2 hi)

theorem find_eq_some_iff :
    find marker text = some i ↔ OccursAt marker text i ∧ ∀ j < i, ¬OccursAt marker text j := by
  induction text generalizing i with
  | nil =>
    unfold find OccursAt
    simp only [List.length_nil, Nat.le_zero_eq, List.drop_nil, List.prefix_nil]
    constructor
    · intro h
      split_ifs at h with hempty
      cases h
      exact ⟨⟨rfl, hempty⟩, fun j hj => absurd hj (Nat.not_lt_zero j)⟩
    · rintro ⟨⟨rfl, hempty⟩, -⟩
      exact if_pos hempty
  | cons c text ih =>
    unfold find
    split_ifs with hhead
    · constructor
      · intro h
        cases h
        exact ⟨occursAt_zero.2 hhead, fun j hj => absurd hj (Nat.not_lt_zero j)⟩
      · rintro ⟨-, hfirst⟩
        cases i with
        | zero => rfl
        | succ i => exact absurd (occursAt_zero.2 hhead) (hfirst 0 (Nat.succ_pos i))
    · rw [Option.map_eq_some_iff]
      constructor
      · rintro ⟨i, hi, rfl⟩
        obtain ⟨hoccurs, hfirst⟩ := ih.1 hi
        refine ⟨occursAt_cons_succ.2 hoccurs, fun j hj hbefore => ?_⟩
        cases j with
        | zero => exact hhead (occursAt_zero.1 hbefore)
        | succ j => exact hfirst j (Nat.lt_of_succ_lt_succ hj) (occursAt_cons_succ.1 hbefore)
      · rintro ⟨hoccurs, hfirst⟩
        cases i with
        | zero => exact absurd (occursAt_zero.1 hoccurs) hhead
        | succ i =>
          refine ⟨i, ih.2 ⟨occursAt_cons_succ.1 hoccurs, fun j hj hbefore => ?_⟩, rfl⟩
          exact hfirst (j + 1) (Nat.succ_lt_succ hj) (occursAt_cons_succ.2 hbefore)

omit [DecidableEq α] in
theorem occursAt_drop (hstart : start ≤ text.length) :
    OccursAt marker (text.drop start) i ↔ OccursAt marker text (start + i) := by
  unfold OccursAt
  rw [List.length_drop, List.drop_drop]
  exact and_congr_left fun _ => by omega

/-- Where nothing is found before it, a search from a later start finds the same. -/
theorem findFrom_eq (hstart : start ≤ text.length) (h : ∀ j < start, ¬OccursAt marker text j) :
    findFrom marker start text = find marker text := by
  unfold findFrom
  rw [if_pos hstart]
  cases hfound : find marker (text.drop start) with
  | none =>
    refine (find_eq_none_iff.2 fun j hj => ?_).symm
    by_cases hbefore : j < start
    · exact h j hbefore hj
    · refine find_eq_none_iff.1 hfound (j - start) ((occursAt_drop hstart).2 ?_)
      rwa [Nat.add_sub_of_le (Nat.not_lt.1 hbefore)]
  | some i =>
    obtain ⟨hoccurs, hfirst⟩ := find_eq_some_iff.1 hfound
    refine (find_eq_some_iff.2 ⟨(occursAt_drop hstart).1 hoccurs, fun j hj hbefore => ?_⟩).symm
    by_cases hlt : j < start
    · exact h j hlt hbefore
    · refine hfirst (j - start) (by omega) ((occursAt_drop hstart).2 ?_)
      rwa [Nat.add_sub_of_le (Nat.not_lt.1 hlt)]

theorem firstEnd_le {stop : Nat} (h : firstEnd marker text = some stop) : stop ≤ text.length := by
  obtain ⟨i, hi, rfl⟩ := Option.map_eq_some_iff.1 h
  exact (find_eq_some_iff.1 hi).1.end_le

/-- What is found in the first part is found in the whole. -/
theorem find_append (h : find marker text = some i) : find marker (text ++ more) = some i := by
  obtain ⟨hoccurs, hfirst⟩ := find_eq_some_iff.1 h
  refine find_eq_some_iff.2 ⟨hoccurs.append more, fun j hj hbefore => hfirst j hj (hbefore.of_append ?_)⟩
  have hend := hoccurs.end_le
  omega

/-- A first marker that is not in the first part ends behind it. -/
theorem lt_firstEnd_of_find_eq_none {stop : Nat} (hnone : find marker text = none)
    (h : firstEnd marker (text ++ more) = some stop) : text.length < stop := by
  obtain ⟨i, hi, rfl⟩ := Option.map_eq_some_iff.1 h
  by_contra hle
  exact find_eq_none_iff.1 hnone i ((find_eq_some_iff.1 hi).1.of_append (Nat.not_lt.1 hle))

end Search
