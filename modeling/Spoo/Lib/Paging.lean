import Mathlib.Data.List.Nodup
import Mathlib.Data.List.Sort
import Mathlib.Order.Defs.Unbundled

/-!
# Pages of a sorted result

A result is sorted by a total preorder, and where two elements are tied it may come in either order, and in another one
when it is asked for again. Each page is cut from an answer of its own. An element is on the page that its rank says,
where the rank is the number of elements up to it, unless a boundary between two pages lies inside a tie.
-/

namespace Paging

variable {α : Type} (r : α → α → Prop) [DecidableRel r]

/-- The number of elements that come before this one in any order. -/
def below (xs : List α) (a : α) : Nat := xs.countP fun b => r b a ∧ ¬ r a b

/-- The number of elements up to this one, with those that are tied with it. -/
def rank (xs : List α) (a : α) : Nat := xs.countP (r · a)

/-- A tie with `a` goes across the boundary. -/
def Straddles (xs : List α) (a : α) (boundary : Nat) : Prop := below r xs a < boundary ∧ boundary < rank r xs a

instance (xs : List α) (a : α) (boundary : Nat) : Decidable (Straddles r xs a boundary) :=
  inferInstanceAs (Decidable (_ ∧ _))

/-- The result of a query, in one of its orders. -/
structure Sorts (xs ys : List α) : Prop where
  perm : ys.Perm xs
  sorted : ys.Pairwise r

omit [DecidableRel r] in
/-- In a sorted list the elements with a property come first, where what is before one of them has it too. -/
theorem lt_countP_iff {p : α → Bool} (hdown : ∀ a b, r a b → p b = true → p a = true) :
    ∀ {ys : List α}, ys.Pairwise r → ∀ {i : Nat} (hi : i < ys.length), i < ys.countP p ↔ p ys[i] = true := by
  intro ys
  induction ys with
  | nil => intro _ i hi; exact absurd hi (Nat.not_lt_zero i)
  | cons y ys ih =>
    intro hsorted i hi
    rw [List.pairwise_cons] at hsorted
    by_cases hy : p y = true
    · rw [List.countP_cons_of_pos hy]
      cases i with
      | zero => simp [hy]
      | succ i =>
        have hih := ih hsorted.2 (Nat.lt_of_succ_lt_succ hi)
        rw [List.getElem_cons_succ, ← hih, Nat.succ_lt_succ_iff]
    · -- Nothing after an element without the property has it.
      have hnone : ∀ z ∈ y :: ys, ¬ p z = true := by
        intro z hz hpz
        rcases List.mem_cons.1 hz with rfl | hz
        · exact hy hpz
        · exact hy (hdown y z (hsorted.1 z hz) hpz)
      have hzero : (y :: ys).countP p = 0 := List.countP_eq_zero.2 hnone
      rw [hzero]
      exact ⟨fun h => absurd h (Nat.not_lt_zero i), fun h => absurd h (hnone _ (List.getElem_mem hi))⟩

variable {r} {xs ys zs : List α} {a : α} {i n : Nat}

namespace Sorts

omit [DecidableRel r] in
theorem nodup (h : Sorts r xs ys) (hxs : xs.Nodup) : ys.Nodup := h.perm.nodup_iff.2 hxs

omit [DecidableRel r] in
theorem length_eq (h : Sorts r xs ys) : ys.length = xs.length := h.perm.length_eq

variable [IsTrans α r]

theorem lt_rank_iff (h : Sorts r xs ys) (hi : i < ys.length) : i < rank r xs a ↔ r ys[i] a := by
  rw [rank, ← h.perm.countP_eq]
  have hiff := lt_countP_iff r (p := fun b => decide (r b a)) (fun b c hbc hca => by
    rw [decide_eq_true_eq] at hca ⊢
    exact IsTrans.trans _ _ _ hbc hca) h.sorted hi
  rwa [decide_eq_true_eq] at hiff

theorem lt_below_iff (h : Sorts r xs ys) (hi : i < ys.length) : i < below r xs a ↔ r ys[i] a ∧ ¬ r a ys[i] := by
  rw [below, ← h.perm.countP_eq]
  have hiff := lt_countP_iff r (p := fun b => decide (r b a ∧ ¬ r a b)) (fun b c hbc hca => by
    rw [decide_eq_true_eq] at hca ⊢
    exact ⟨IsTrans.trans _ _ _ hbc hca.1, fun hab => hca.2 (IsTrans.trans _ _ _ hab hbc)⟩) h.sorted hi
  rwa [decide_eq_true_eq] at hiff

variable [Std.Refl r]

/-- Where no tie goes across a boundary, what is before it is the same in every order. -/
theorem mem_take_iff (h : Sorts r xs ys) (ha : a ∈ xs) (hstraddles : ¬ Straddles r xs a n) :
    a ∈ ys.take n ↔ rank r xs a ≤ n := by
  obtain ⟨i, hi, rfl⟩ := List.getElem_of_mem (h.perm.mem_iff.2 ha)
  have hrank : i < rank r xs ys[i] := (h.lt_rank_iff hi).2 (Std.Refl.refl _)
  have hbelow : ¬ i < below r xs ys[i] := fun hlt => ((h.lt_below_iff hi).1 hlt).2 (Std.Refl.refl _)
  constructor
  · intro hmem
    -- An equal element may stand elsewhere in the list, and ranks alike.
    obtain ⟨j, hj, heq⟩ := List.getElem_of_mem hmem
    rw [List.length_take, Nat.lt_min] at hj
    rw [List.getElem_take] at heq
    have hbefore : ¬ j < below r xs ys[i] := fun hlt =>
      ((h.lt_below_iff hj.2).1 hlt).2 (heq ▸ Std.Refl.refl _)
    by_contra hafter
    exact hstraddles ⟨by omega, by omega⟩
  · intro hle
    exact List.mem_take_iff_getElem.2 ⟨i, by omega, rfl⟩

theorem take_perm (hys : Sorts r xs ys) (hzs : Sorts r xs zs) (hxs : xs.Nodup)
    (hstraddles : ∀ a ∈ xs, ¬ Straddles r xs a n) : (ys.take n).Perm (zs.take n) := by
  refine (List.perm_ext_iff_of_nodup ((hys.nodup hxs).sublist (List.take_sublist ..))
    ((hzs.nodup hxs).sublist (List.take_sublist ..))).2 fun a => ?_
  constructor
  · intro hmem
    have ha : a ∈ xs := hys.perm.mem_iff.1 (List.mem_of_mem_take hmem)
    exact (hzs.mem_take_iff ha (hstraddles a ha)).2 ((hys.mem_take_iff ha (hstraddles a ha)).1 hmem)
  · intro hmem
    have ha : a ∈ xs := hzs.perm.mem_iff.1 (List.mem_of_mem_take hmem)
    exact (hys.mem_take_iff ha (hstraddles a ha)).2 ((hzs.mem_take_iff ha (hstraddles a ha)).1 hmem)

end Sorts

/-! ## Walks over the pages -/

/-- A page of an answer, of which there is one from 0 on for each of the pages. -/
def page (n k : Nat) (ys : List α) : List α := (ys.drop (k * n)).take n

/-- The first pages, each cut from an answer of its own. -/
def pages (n : Nat) (answers : Nat → List α) (count : Nat) : List α :=
  (List.range count).flatMap fun k => page n k (answers k)

theorem pages_succ (n : Nat) (answers : Nat → List α) (count : Nat) :
    pages n answers (count + 1) = pages n answers count ++ page n count (answers count) := by
  rw [pages, List.range_succ, List.flatMap_append, List.flatMap_singleton, pages]

theorem take_succ_mul (n k : Nat) (ys : List α) :
    ys.take ((k + 1) * n) = ys.take (k * n) ++ page n k ys := by
  rw [page, Nat.succ_mul, List.take_add]

theorem mem_page_of_lt {ys : List α} {i k : Nat} (hi : i < ys.length) (hfrom : k * n ≤ i) (hto : i < (k + 1) * n) :
    ys[i] ∈ page n k ys := by
  rw [Nat.succ_mul] at hto
  refine List.mem_take_iff_getElem.2 ⟨i - k * n, ?_, ?_⟩
  · rw [List.length_drop]
    omega
  · rw [List.getElem_drop]
    congr 1
    omega

section

variable [Std.Refl r] [IsTrans α r]

open scoped List in
/-- Where no tie goes across a boundary, the pages of different answers fit together. -/
theorem pages_perm {answers : Nat → List α} (hanswers : ∀ k, Sorts r xs (answers k)) (hxs : xs.Nodup)
    (hstraddles : ∀ a ∈ xs, ∀ k, ¬ Straddles r xs a (k * n)) (count : Nat) :
    (pages n answers count).Perm ((answers 0).take (count * n)) := by
  induction count with
  | zero => simp [pages]
  | succ k ih =>
    have hfits {ys zs : List α} (hys : Sorts r xs ys) (hzs : Sorts r xs zs) (k : Nat) :
        (ys.take (k * n)).Perm (zs.take (k * n)) := hys.take_perm hzs hxs fun a ha => hstraddles a ha k
    calc pages n answers (k + 1)
        = pages n answers k ++ page n k (answers k) := pages_succ ..
      _ ~ (answers 0).take (k * n) ++ page n k (answers k) := ih.append_right _
      _ ~ (answers k).take (k * n) ++ page n k (answers k) :=
          (hfits (hanswers 0) (hanswers k) k).append_right _
      _ = (answers k).take ((k + 1) * n) := (take_succ_mul ..).symm
      _ ~ (answers 0).take ((k + 1) * n) := hfits (hanswers k) (hanswers 0) (k + 1)

omit [Std.Refl r] in
/-- Two elements that are tied across a boundary, which may change places. -/
theorem Sorts.exists_swap (h : Sorts r xs ys) {boundary : Nat} (hstraddles : Straddles r xs a boundary) :
    ∃ before u v after, ys = before ++ u :: v :: after ∧ before.length + 1 = boundary ∧
      Sorts r xs (before ++ v :: u :: after) := by
  obtain ⟨hbelow, hrank⟩ := hstraddles
  have hlength : rank r xs a ≤ ys.length := h.length_eq ▸ List.countP_le_length
  have hu : ¬ boundary - 1 < below r xs a ∧ boundary - 1 < ys.length ∧ boundary - 1 + 1 = boundary := by omega
  have hv : boundary < ys.length := by omega
  have hua : r ys[boundary - 1] a := (h.lt_rank_iff hu.2.1).1 (by omega)
  have hau : r a ys[boundary - 1] := by
    by_contra hnot
    -- An element before the tie has less below it than the boundary.
    exact absurd ((h.lt_below_iff hu.2.1).2 ⟨hua, hnot⟩) (by omega)
  have hva : r ys[boundary] a := (h.lt_rank_iff hv).1 hrank
  have hsplit : ys = ys.take (boundary - 1) ++ ys[boundary - 1] :: ys[boundary] :: ys.drop (boundary + 1) := by
    have hdrop : ys.drop (boundary - 1) = ys[boundary - 1] :: ys[boundary] :: ys.drop (boundary + 1) := by
      rw [List.drop_eq_getElem_cons hu.2.1]
      simp only [hu.2.2]
      rw [List.drop_eq_getElem_cons hv]
    rw [← hdrop, List.take_append_drop]
  refine ⟨_, _, _, _, hsplit, ?_, ?_, ?_⟩
  · rw [List.length_take]
    omega
  · refine List.Perm.trans ?_ (hsplit ▸ h.perm)
    exact (List.Perm.swap ..).append_left _
  · have hsorted := h.sorted
    rw [hsplit] at hsorted
    simp only [List.pairwise_append, List.pairwise_cons, List.mem_cons, forall_eq_or_imp] at hsorted ⊢
    have hvu : r ys[boundary] ys[boundary - 1] := IsTrans.trans _ _ _ hva hau
    obtain ⟨hbefore, ⟨⟨-, hu'⟩, hv', hafter⟩, hall⟩ := hsorted
    exact ⟨hbefore, ⟨⟨hvu, hv'⟩, hu', hafter⟩, fun b hb => ⟨(hall b hb).2.1, (hall b hb).1, (hall b hb).2.2⟩⟩

end

theorem pages_sublist {answers : Nat → List α} {m count : Nat} (h : m ≤ count) :
    (pages n answers m).Sublist (pages n answers count) := by
  induction h with
  | refl => exact List.Sublist.refl _
  | step _ ih =>
    rw [pages_succ]
    exact ih.trans (List.sublist_append_left ..)

/-- Behind the end of every answer, the pages are empty. -/
theorem pages_add {answers : Nat → List α} {m : Nat} (h : ∀ k, (answers k).length ≤ m * n) (d : Nat) :
    pages n answers (m + d) = pages n answers m := by
  induction d with
  | zero => rfl
  | succ d ih =>
    have hpast : (answers (m + d)).length ≤ (m + d) * n := (h _).trans (Nat.mul_le_mul_right n (Nat.le_add_right m d))
    rw [Nat.add_succ, pages_succ, ih, page, List.drop_eq_nil_of_le hpast, List.take_nil, List.append_nil]

variable [Std.Total r] [IsTrans α r]

/-- The pages hold each element once, in whatever order each answer comes, just if no tie goes across a boundary. -/
theorem forall_pages_perm_iff (hxs : xs.Nodup) (hn : 0 < n) {count : Nat} (hcount : xs.length ≤ count * n) :
    (∀ answers : Nat → List α, (∀ k, Sorts r xs (answers k)) → (pages n answers count).Perm xs) ↔
      ∀ a ∈ xs, ∀ k, ¬ Straddles r xs a (k * n) := by
  constructor
  · intro hall a ha k hstraddles
    have hsorts : Sorts r xs (xs.insertionSort r) := ⟨List.perm_insertionSort r xs, List.pairwise_insertionSort r xs⟩
    obtain ⟨before, u, v, after, hys, hlength, hswap⟩ := hsorts.exists_swap hstraddles
    have hk : k ≠ 0 := by
      rintro rfl
      omega
    obtain ⟨k, rfl⟩ := Nat.exists_eq_add_one_of_ne_zero hk
    have hnodup := (hall (fun j => if j ≤ k then xs.insertionSort r else before ++ v :: u :: after) fun j => by
      split
      · exact hsorts
      · exact hswap).nodup_iff.2 hxs
    have hpages : k + 1 < count := by
      have hrank : rank r xs a ≤ xs.length := List.countP_le_length
      have hlt : (k + 1) * n < count * n := by
        have := hstraddles.2
        omega
      exact Nat.lt_of_mul_lt_mul_right hlt
    -- The first of the two is on the page before the boundary, and on the one behind it.
    replace hnodup := hnodup.sublist (pages_sublist (Nat.succ_le_of_lt hpages))
    rw [pages_succ, pages_succ, if_pos (le_refl k), if_neg (Nat.not_succ_le_self k)] at hnodup
    refine (List.nodup_append.1 hnodup).2.2 u (List.mem_append_right _ ?_) u ?_ rfl
    · have hlt : before.length < (xs.insertionSort r).length := by simp [hys]
      have hmem := mem_page_of_lt (n := n) (k := k) hlt (by rw [Nat.succ_mul] at hlength; omega) (by omega)
      simpa [hys] using hmem
    · have hlt : before.length + 1 < (before ++ v :: u :: after).length := by simp
      have hmem := mem_page_of_lt (n := n) (k := k + 1) hlt (by omega) (by rw [Nat.succ_mul (k + 1)]; omega)
      simpa using hmem
  · intro hstraddles answers hanswers
    have hperm := pages_perm hanswers hxs hstraddles count
    have hall : (answers 0).take (count * n) = answers 0 :=
      List.take_of_length_le ((hanswers 0).length_eq.trans_le hcount)
    rw [hall] at hperm
    exact hperm.trans (hanswers 0).perm

end Paging
