import Mathlib.Data.List.Basic
import Mathlib.Data.List.DropRight

/-!
# Python lists and strings

Slices `[xs[i : i + n] for i in range(0, len(xs), n)]`, the way a long list is cut into batches,
keys that join a scope and a name with a separator, and what trimming a text and collapsing its white
space leave of it.
Below that are `str.isdigit`, and `int` on a string of digits, with the characters of Unicode 14. The superscripts and
the circled numbers are digits, and `int` refuses them.
-/

namespace PyList

variable {α β : Type}

/-- `[xs[i : i + n] for i in range(0, len(xs), n)]`. -/
def chunks (n : Nat) (xs : List α) : List (List α) :=
  (List.range ((xs.length + n - 1) / n)).map fun i => (xs.drop (i * n)).take n

theorem chunks_map (f : α → β) (n : Nat) (xs : List α) :
    chunks n (xs.map f) = (chunks n xs).map (List.map f) := by
  simp [chunks, List.map_drop, List.map_take, Function.comp_def]

/-- The batches hold the elements of the list and no others. -/
theorem mem_flatten_chunks {n : Nat} (hn : 0 < n) {xs : List α} {x : α} :
    x ∈ (chunks n xs).flatten ↔ x ∈ xs := by
  rw [List.mem_flatten]
  constructor
  · rintro ⟨chunk, hchunk, hx⟩
    obtain ⟨i, -, rfl⟩ := List.mem_map.1 hchunk
    exact List.mem_of_mem_drop (List.mem_of_mem_take hx)
  · intro hx
    obtain ⟨j, hj, rfl⟩ := List.mem_iff_getElem.1 hx
    refine ⟨(xs.drop (j / n * n)).take n, List.mem_map.2 ⟨j / n, ?_, rfl⟩, ?_⟩
    · rw [List.mem_range, Nat.div_lt_iff_lt_mul hn]
      have hle : (xs.length + n - 1) % n < n := Nat.mod_lt _ hn
      have hdiv := Nat.div_add_mod (xs.length + n - 1) n
      rw [Nat.mul_comm] at hdiv
      omega
    · have hmod : j % n < n := Nat.mod_lt _ hn
      have hdiv : j / n * n + j % n = j := by rw [Nat.mul_comm]; exact Nat.div_add_mod j n
      rw [List.mem_iff_getElem]
      refine ⟨j % n, by simp; omega, ?_⟩
      simp [hdiv]

/-- `[f(x) for x in xs]`, where no call raises. -/
theorem filterMap_eq_of_mapM {f : α → Option β} {xs : List α} :
    ∀ {ys : List β}, xs.mapM f = some ys → xs.filterMap f = ys := by
  induction xs with
  | nil =>
    intro ys h
    cases h
    rfl
  | cons x xs ih =>
    intro ys h
    simp only [List.mapM_cons, Option.bind_eq_bind, Option.bind_eq_some_iff] at h
    obtain ⟨y, hy, ys, hys, h⟩ := h
    cases h
    rw [List.filterMap_cons_some hy, ih hys]

/-- `[f(x) for x in xs]` raises where a call does. -/
theorem mapM_isSome {f : α → Option β} {xs : List α} :
    (xs.mapM f).isSome = true ↔ ∀ x ∈ xs, (f x).isSome = true := by
  induction xs with
  | nil => simp
  | cons x xs ih =>
    rw [List.forall_mem_cons, ← ih, List.mapM_cons]
    cases f x with
    | none => simp
    | some y => cases List.mapM f xs <;> simp

/-- What a comprehension keeps is a part of what it would be without its condition. -/
theorem filterMap_sublist_map {f : α → Option β} {g : α → β} (h : ∀ x y, f x = some y → y = g x) {xs : List α} :
    (xs.filterMap f).Sublist (xs.map g) := by
  induction xs with
  | nil => exact .slnil
  | cons x xs ih =>
    rw [List.map_cons]
    cases hx : f x with
    | none =>
      rw [List.filterMap_cons_none hx]
      exact ih.cons _
    | some y =>
      rw [List.filterMap_cons_some hx, h x y hx]
      exact ih.cons_cons _

theorem filterMap_eq_of_forall₂ {γ : Type} {f : α → Option γ} {g : β → Option γ} {xs : List α} {ys : List β}
    (h : List.Forall₂ (fun x y => f x = g y) xs ys) : xs.filterMap f = ys.filterMap g := by
  induction h with
  | nil => rfl
  | cons hxy _ ih => rw [List.filterMap_cons, List.filterMap_cons, hxy, ih]

/-- The first hit over two places. -/
theorem findSome?_pair (f : α → Option β) (a b : α) : [a, b].findSome? f = (f a).or (f b) := by
  simp only [List.findSome?_cons, List.findSome?_nil]
  cases f a with
  | some _ => rfl
  | none => cases f b <;> rfl

/-- Two comprehensions over one list agree when their conditions do on what is in it. -/
theorem filter_eq_filter_iff {p q : α → Bool} {xs : List α} :
    xs.filter p = xs.filter q ↔ ∀ x ∈ xs, (p x = true ↔ q x = true) := by
  constructor
  · intro h x hx
    have hmem : x ∈ xs.filter p ↔ x ∈ xs.filter q := by rw [h]
    simpa only [List.mem_filter, hx, true_and] using hmem
  · exact fun h => List.filter_congr fun x hx => Bool.eq_iff_iff.2 (h x hx)

/-- Where the separator is not in the last part, a joined key gives its parts back. -/
theorem append_cons_inj_of_notMem {a : α} {xs xs' ys ys' : List α} (hys : a ∉ ys) (hys' : a ∉ ys')
    (h : xs ++ a :: ys = xs' ++ a :: ys') : xs = xs' ∧ ys = ys' := by
  have hcancel {zs zs' ws : List α} (hzs' : a ∉ zs') (h : a :: zs' = ws ++ a :: zs) :
      ws = [] ∧ zs' = zs := by
    cases ws with
    | nil => exact ⟨rfl, (List.cons.inj h).2⟩
    | cons b ws =>
      have htail : zs' = ws ++ a :: zs := (List.cons.inj h).2
      exact absurd (htail ▸ List.mem_append_right ws List.mem_cons_self) hzs'
  rcases List.append_eq_append_iff.1 h with ⟨ws, rfl, hws⟩ | ⟨ws, rfl, hws⟩
  · obtain ⟨rfl, rfl⟩ := hcancel hys hws
    exact ⟨(List.append_nil xs).symm, rfl⟩
  · obtain ⟨rfl, rfl⟩ := hcancel hys' hws
    exact ⟨List.append_nil xs', rfl⟩

/-! ## `str.strip` -/

/-- What is left of a list when the marked elements at both ends go. -/
def strip (p : α → Bool) (xs : List α) : List α := (xs.dropWhile p).rdropWhile p

theorem rdropWhile_append {p : α → Bool} {xs ys : List α} :
    (xs ++ ys).rdropWhile p = if ∀ y ∈ ys, p y = true then xs.rdropWhile p else xs ++ ys.rdropWhile p := by
  simp only [List.rdropWhile, List.reverse_append, List.dropWhile_append, List.isEmpty_iff,
    List.dropWhile_eq_nil_iff, List.mem_reverse]
  split
  · rfl
  · rw [List.reverse_append, List.reverse_reverse]

theorem strip_append_of_forall {p : α → Bool} {xs ys : List α} (hys : ∀ y ∈ ys, p y = true) :
    strip p (xs ++ ys) = strip p xs := by
  unfold strip
  rw [List.dropWhile_append]
  split
  · rename_i hempty
    rw [List.isEmpty_iff.1 hempty, List.dropWhile_eq_nil_iff.2 hys]
  · rw [rdropWhile_append, if_pos hys]

theorem strip_eq_nil_iff {p : α → Bool} {xs : List α} : strip p xs = [] ↔ ∀ x ∈ xs, p x = true := by
  unfold strip
  rw [List.rdropWhile_eq_nil_iff]
  constructor
  · intro h
    by_contra hxs
    have hne : xs.dropWhile p ≠ [] := fun hnil => hxs (List.dropWhile_eq_nil_iff.1 hnil)
    have hhead := h _ (List.head_mem hne)
    rw [List.head_dropWhile_not p hne] at hhead
    cases hhead
  · exact fun h x hx => h x ((List.dropWhile_suffix p).subset hx)

/-- A piece of a stripped text has no space at its front. -/
theorem dropWhile_take_strip (p : α → Bool) (xs : List α) (n : Nat) :
    ((strip p xs).take n).dropWhile p = (strip p xs).take n := by
  cases hpiece : (strip p xs).take n with
  | nil => rfl
  | cons x piece =>
    have hfront : x :: piece <+: xs.dropWhile p :=
      hpiece ▸ (List.take_prefix _ _).trans (List.rdropWhile_prefix p _)
    obtain ⟨rest, hrest⟩ := hfront
    have hx : p x = false := by
      have hhead := List.head?_dropWhile_not p xs
      rw [← hrest, List.cons_append, List.head?_cons] at hhead
      exact hhead
    rw [List.dropWhile_cons, if_neg (by rw [hx]; exact Bool.false_ne_true)]

/-- What comes behind a text is stripped with it just when there is nothing in it but spaces. -/
theorem strip_append_eq_iff {p : α → Bool} {xs ys : List α} :
    strip p (xs ++ ys) = strip p xs ↔ ∀ y ∈ ys, p y = true := by
  refine ⟨fun h => ?_, strip_append_of_forall⟩
  by_cases hxs : ∀ x ∈ xs, p x = true
  · intro y hy
    rw [strip_eq_nil_iff.2 hxs, strip_eq_nil_iff] at h
    exact h y (List.mem_append_right xs hy)
  · by_contra hys
    have hfront : (xs.dropWhile p).isEmpty = false := by
      rw [Bool.eq_false_iff, ne_eq, List.isEmpty_iff, List.dropWhile_eq_nil_iff]
      exact hxs
    have hback : ys.rdropWhile p ≠ [] := fun hnil => hys (List.rdropWhile_eq_nil_iff.1 hnil)
    unfold strip at h
    rw [List.dropWhile_append, hfront, if_neg Bool.false_ne_true, rdropWhile_append, if_neg hys] at h
    have hlength := congrArg List.length h
    have hle := (List.rdropWhile_prefix p (l := xs.dropWhile p)).length_le
    have hpos := List.length_pos_iff.2 hback
    rw [List.length_append] at hlength
    omega

/-! ## `re.sub(r"\s+", " ", text)` -/

/-- A run of marked elements becomes the one element `s`. The flag tells that a run is going on. -/
def collapse (p : α → Bool) (s : α) : Bool → List α → List α
  | _, [] => []
  | inRun, x :: xs =>
    if p x then if inRun then collapse p s true xs else s :: collapse p s true xs
    else x :: collapse p s false xs

/-- Whether a run is going on behind a list. -/
def endsIn (p : α → Bool) (inRun : Bool) (xs : List α) : Bool := xs.foldl (fun _ x => p x) inRun

section

variable {p : α → Bool} {s : α}

@[simp] theorem collapse_nil (b : Bool) : collapse p s b [] = [] := rfl

@[simp] theorem endsIn_nil (b : Bool) : endsIn p b [] = b := rfl

@[simp] theorem endsIn_cons (b : Bool) (x : α) (xs : List α) : endsIn p b (x :: xs) = endsIn p (p x) xs := rfl

@[simp] theorem endsIn_append (b : Bool) (xs ys : List α) :
    endsIn p b (xs ++ ys) = endsIn p (endsIn p b xs) ys := by
  simp [endsIn]

theorem collapse_cons_of_not {x : α} (h : p x = false) (b : Bool) (xs : List α) :
    collapse p s b (x :: xs) = x :: collapse p s false xs := by
  simp [collapse, h]

theorem collapse_false_cons {x : α} (h : p x = true) (xs : List α) :
    collapse p s false (x :: xs) = s :: collapse p s true xs := by
  simp [collapse, h]

theorem collapse_true_cons {x : α} (h : p x = true) (xs : List α) :
    collapse p s true (x :: xs) = collapse p s true xs := by
  simp [collapse, h]

theorem collapse_append (b : Bool) (xs ys : List α) :
    collapse p s b (xs ++ ys) = collapse p s b xs ++ collapse p s (endsIn p b xs) ys := by
  induction xs generalizing b with
  | nil => rfl
  | cons x xs ih =>
    cases hx : p x with
    | false => simp [collapse_cons_of_not hx, ih, hx]
    | true => cases b <;> simp [collapse_false_cons hx, collapse_true_cons hx, ih, hx]

/-- A list without marked elements stays as it is. -/
theorem collapse_of_not (b : Bool) {xs : List α} (h : ∀ x ∈ xs, p x = false) : collapse p s b xs = xs := by
  induction xs generalizing b with
  | nil => rfl
  | cons x xs ih =>
    rw [collapse_cons_of_not (h x List.mem_cons_self), ih false fun y hy => h y (List.mem_cons_of_mem x hy)]

/-- The elements that are not marked stay. -/
theorem mem_collapse_of_not {x : α} (hs : p s = true) (hx : p x = false) (b : Bool) (xs : List α) :
    x ∈ collapse p s b xs ↔ x ∈ xs := by
  have hne : x ≠ s := by
    rintro rfl
    rw [hs] at hx
    cases hx
  induction xs generalizing b with
  | nil => rfl
  | cons y xs ih =>
    cases hy : p y with
    | false => simp [collapse_cons_of_not hy, ih]
    | true =>
      have hxy : x ≠ y := by
        rintro rfl
        rw [hy] at hx
        cases hx
      cases b <;> simp [collapse_false_cons hy, collapse_true_cons hy, ih, hne, hxy]

/-- Every marked element that is left is the one that stands for a run. -/
theorem eq_of_mem_collapse {x : α} (b : Bool) {xs : List α} (h : x ∈ collapse p s b xs) (hx : p x = true) :
    x = s := by
  induction xs generalizing b with
  | nil => cases h
  | cons y xs ih =>
    cases hy : p y with
    | false =>
      rw [collapse_cons_of_not hy] at h
      rcases List.mem_cons.1 h with rfl | hmem
      · rw [hy] at hx
        cases hx
      · exact ih false hmem
    | true =>
      cases b with
      | false =>
        rw [collapse_false_cons hy] at h
        rcases List.mem_cons.1 h with rfl | hmem
        · rfl
        · exact ih true hmem
      | true =>
        rw [collapse_true_cons hy] at h
        exact ih true h

/-- Behind what is left, a run is going on when it is behind the list. -/
theorem endsIn_collapse (hs : p s = true) (b : Bool) (xs : List α) :
    endsIn p b (collapse p s b xs) = endsIn p b xs := by
  induction xs generalizing b with
  | nil => rfl
  | cons x xs ih =>
    cases hx : p x with
    | false => simp [collapse_cons_of_not hx, ih, hx]
    | true => cases b <;> simp [collapse_false_cons hx, collapse_true_cons hx, ih, hx, hs]

/-- No two runs are left side by side. -/
theorem collapse_ne_double (hs : p s = true) (b : Bool) (xs as cs : List α) :
    collapse p s b xs ≠ as ++ s :: s :: cs := by
  have hrun : ∀ xs cs, collapse p s true xs ≠ s :: cs := by
    intro xs
    induction xs with
    | nil => simp
    | cons x xs ih =>
      intro cs
      cases hx : p x with
      | false =>
        rw [collapse_cons_of_not hx]
        rintro heq
        rw [(List.cons.inj heq).1, hs] at hx
        cases hx
      | true =>
        rw [collapse_true_cons hx]
        exact ih cs
  induction xs generalizing b as with
  | nil => simp
  | cons x xs ih =>
    intro heq
    cases hx : p x with
    | false =>
      rw [collapse_cons_of_not hx] at heq
      cases as with
      | nil =>
        rw [(List.cons.inj heq).1, hs] at hx
        cases hx
      | cons a as => exact ih false as (List.cons.inj heq).2
    | true =>
      cases b with
      | false =>
        rw [collapse_false_cons hx] at heq
        cases as with
        | nil => exact hrun xs cs (List.cons.inj heq).2
        | cons a as => exact ih true as (List.cons.inj heq).2
      | true =>
        rw [collapse_true_cons hx] at heq
        exact ih true as heq

/-- A list whose marked elements all are `s`, and no two of them side by side, stays as it is. -/
theorem collapse_eq_self {b : Bool} {xs : List α} (hmarked : ∀ x ∈ xs, p x = true → x = s)
    (hdouble : ∀ as cs, xs ≠ as ++ s :: s :: cs) (hb : b = true → ∀ cs, xs ≠ s :: cs) :
    collapse p s b xs = xs := by
  induction xs generalizing b with
  | nil => rfl
  | cons x xs ih =>
    have hmarked' : ∀ y ∈ xs, p y = true → y = s := fun y hy => hmarked y (List.mem_cons_of_mem x hy)
    have hdouble' : ∀ as cs, xs ≠ as ++ s :: s :: cs := by
      intro as cs heq
      exact hdouble (x :: as) cs (by rw [heq, List.cons_append])
    cases hx : p x with
    | false => rw [collapse_cons_of_not hx, ih hmarked' hdouble' (by simp)]
    | true =>
      obtain rfl := hmarked x List.mem_cons_self hx
      cases b with
      | false =>
        rw [collapse_false_cons hx, ih hmarked' hdouble']
        rintro - cs rfl
        exact hdouble [] cs rfl
      | true => exact absurd rfl (hb rfl xs)

theorem length_collapse_le (p : α → Bool) (s : α) (b : Bool) (xs : List α) :
    (collapse p s b xs).length ≤ xs.length := by
  induction xs generalizing b with
  | nil => exact Nat.le_refl 0
  | cons x xs ih =>
    rw [List.length_cons]
    cases hx : p x with
    | false =>
      have := ih false
      rw [collapse_cons_of_not hx, List.length_cons]
      omega
    | true =>
      have := ih true
      cases b with
      | false =>
        rw [collapse_false_cons hx, List.length_cons]
        omega
      | true =>
        rw [collapse_true_cons hx]
        omega

/-- A second time nothing is left to collapse. -/
theorem collapse_collapse (hs : p s = true) (b : Bool) (xs : List α) :
    collapse p s false (collapse p s b xs) = collapse p s b xs :=
  collapse_eq_self (fun _ hx => eq_of_mem_collapse b hx) (fun as cs => collapse_ne_double hs b xs as cs) (by simp)

/-- What is left is taken apart with the list. -/
theorem exists_of_collapse_eq_append {b : Bool} {xs as cs : List α} (h : collapse p s b xs = as ++ cs) :
    ∃ ys zs, xs = ys ++ zs ∧ collapse p s b ys = as ∧ collapse p s (endsIn p b ys) zs = cs := by
  induction xs generalizing b as with
  | nil =>
    obtain ⟨rfl, rfl⟩ := List.append_eq_nil_iff.1 h.symm
    exact ⟨[], [], rfl, rfl, rfl⟩
  | cons x xs ih =>
    cases as with
    | nil => exact ⟨[], x :: xs, rfl, rfl, h⟩
    | cons a as =>
      cases hx : p x with
      | false =>
        rw [collapse_cons_of_not hx] at h
        obtain ⟨rfl, htail⟩ := List.cons.inj h
        obtain ⟨ys, zs, rfl, hys, hzs⟩ := ih htail
        exact ⟨x :: ys, zs, rfl, by rw [collapse_cons_of_not hx, hys], by rw [endsIn_cons, hx, hzs]⟩
      | true =>
        cases b with
        | false =>
          rw [collapse_false_cons hx] at h
          obtain ⟨rfl, htail⟩ := List.cons.inj h
          obtain ⟨ys, zs, rfl, hys, hzs⟩ := ih htail
          exact ⟨x :: ys, zs, rfl, by rw [collapse_false_cons hx, hys], by rw [endsIn_cons, hx, hzs]⟩
        | true =>
          rw [collapse_true_cons hx] at h
          obtain ⟨ys, zs, rfl, hys, hzs⟩ := ih h
          exact ⟨x :: ys, zs, rfl, by rw [collapse_true_cons hx, hys], by rw [endsIn_cons, hx, hzs]⟩

/-- Where no run is left, nothing has gone but a run in front. -/
theorem exists_of_collapse_eq {b : Bool} {xs gs : List α} (hs : p s = true) (hgs : ∀ g ∈ gs, p g = false)
    (h : collapse p s b xs = gs) :
    ∃ ys, xs = ys ++ gs ∧ (∀ y ∈ ys, p y = true) ∧ (b = false → ys = []) := by
  induction xs generalizing b gs with
  | nil => exact ⟨[], h, by simp, fun _ => rfl⟩
  | cons x xs ih =>
    cases hx : p x with
    | false =>
      rw [collapse_cons_of_not hx] at h
      subst h
      obtain ⟨ys, htail, -, hys⟩ := ih (fun g hg => hgs g (List.mem_cons_of_mem x hg)) rfl
      rw [hys rfl, List.nil_append] at htail
      exact ⟨[], by rw [List.nil_append, ← htail], by simp, fun _ => rfl⟩
    | true =>
      cases b with
      | false =>
        rw [collapse_false_cons hx] at h
        have hmem := hgs s (h ▸ List.mem_cons_self)
        rw [hs] at hmem
        cases hmem
      | true =>
        rw [collapse_true_cons hx] at h
        obtain ⟨ys, rfl, hys, -⟩ := ih hgs h
        refine ⟨x :: ys, rfl, ?_, by simp⟩
        intro y hy
        rcases List.mem_cons.1 hy with rfl | hmem
        · exact hx
        · exact hys y hmem

/-! ## Trimmed lists -/

/-- No marked element stands at either end. -/
structure Trimmed (p : α → Bool) (xs : List α) : Prop where
  head : ∀ x ∈ xs.head?, p x = false
  last : endsIn p false xs = false

theorem endsIn_eq_false_iff (xs : List α) : endsIn p false xs = false ↔ ∀ x ∈ xs.getLast?, p x = false := by
  rcases List.eq_nil_or_concat xs with rfl | ⟨ys, x, rfl⟩
  · simp
  · simp

theorem strip_eq_self (h : Trimmed p xs) : strip p xs = xs := by
  have hfront : xs.dropWhile p = xs := by
    cases xs with
    | nil => rfl
    | cons x xs => simp [h.head x (by simp)]
  have hback := (endsIn_eq_false_iff xs).1 h.last
  rw [strip, hfront]
  rcases List.eq_nil_or_concat xs with rfl | ⟨ys, x, rfl⟩
  · rfl
  · rw [List.concat_eq_append] at hback ⊢
    rw [List.rdropWhile_concat_neg]
    simp [hback x (by simp)]

/-- A list is what is stripped off it in front and behind, and what is left. -/
theorem exists_append_strip (p : α → Bool) (xs : List α) :
    ∃ ys zs, xs = ys ++ (strip p xs ++ zs) ∧ (∀ y ∈ ys, p y = true) ∧ ∀ z ∈ zs, p z = true := by
  refine ⟨xs.takeWhile p, (xs.dropWhile p).rtakeWhile p, ?_, ?_, ?_⟩
  · rw [strip, List.rdropWhile_append_rtakeWhile, List.takeWhile_append_dropWhile]
  · intro y hy
    exact List.mem_takeWhile_imp hy
  · intro z hz
    exact List.mem_rtakeWhile_imp hz

theorem trimmed_strip (p : α → Bool) (xs : List α) : Trimmed p (strip p xs) := by
  constructor
  · have hfront := dropWhile_take_strip p xs (strip p xs).length
    rw [List.take_length] at hfront
    have hhead := List.head?_dropWhile_not p (strip p xs)
    rw [hfront] at hhead
    intro x hx
    rw [Option.mem_def.1 hx] at hhead
    simpa using hhead
  · rw [endsIn_eq_false_iff]
    intro x hx
    have hback : (strip p xs).rdropWhile p = strip p xs := List.rdropWhile_idempotent p _
    have hne : strip p xs ≠ [] := by
      intro hnil
      simp [hnil] at hx
    have hlast := List.rdropWhile_eq_self_iff.1 hback hne
    rw [List.getLast?_eq_some_getLast hne] at hx
    obtain rfl := Option.some.inj (Option.mem_def.1 hx)
    simpa using hlast

/-- Stripping leaves two runs side by side just when there is more than runs on either side of them. -/
theorem strip_double_iff (hs : p s = true) (xs : List α) :
    (∃ as cs, strip p xs = as ++ s :: s :: cs) ↔
      ∃ as cs, xs = as ++ s :: s :: cs ∧ (∃ a ∈ as, p a = false) ∧ ∃ c ∈ cs, p c = false := by
  constructor
  · rintro ⟨as, cs, heq⟩
    obtain ⟨ys, zs, hxs, -, -⟩ := exists_append_strip p xs
    have htrimmed := trimmed_strip p xs
    rw [heq] at hxs htrimmed
    refine ⟨ys ++ as, cs ++ zs, by simp [hxs], ?_, ?_⟩
    · cases as with
      | nil =>
        have hhead := htrimmed.head s (by simp)
        rw [hs] at hhead
        cases hhead
      | cons a as => exact ⟨a, by simp, htrimmed.head a (by simp)⟩
    · have hlast := htrimmed.last
      rcases List.eq_nil_or_concat cs with rfl | ⟨ds, c, rfl⟩
      · simp [hs] at hlast
      · exact ⟨c, by simp, by simpa using hlast⟩
  · rintro ⟨as, cs, rfl, ⟨a, ha, hpa⟩, c, hc, hpc⟩
    have hfront : (as.dropWhile p).isEmpty = false := by
      rw [Bool.eq_false_iff, ne_eq, List.isEmpty_iff, List.dropWhile_eq_nil_iff]
      intro hall
      rw [hall a ha] at hpa
      cases hpa
    have hback : ¬∀ y ∈ cs, p y = true := by
      intro hall
      rw [hall c hc] at hpc
      cases hpc
    have hsplit : as.dropWhile p ++ s :: s :: cs = (as.dropWhile p ++ [s, s]) ++ cs := by simp
    refine ⟨as.dropWhile p, cs.rdropWhile p, ?_⟩
    rw [strip, List.dropWhile_append, hfront, if_neg Bool.false_ne_true, hsplit, rdropWhile_append, if_neg hback]
    simp

/-! ## Elements replaced by lists -/

/-- A function that leaves the marked element `s` as it is and makes none of the others. -/
structure KeepsMarks (p : α → Bool) (s : α) (f : α → List α) : Prop where
  mark : f s = [s]
  ne_nil : ∀ x, p x = false → f x ≠ []
  not : ∀ x, p x = false → ∀ y ∈ f x, p y = false

theorem endsIn_of_not (b : Bool) {xs : List α} (hne : xs ≠ []) (h : ∀ x ∈ xs, p x = false) :
    endsIn p b xs = false := by
  rcases List.eq_nil_or_concat xs with rfl | ⟨ys, x, rfl⟩
  · exact absurd rfl hne
  · simpa using h x (by simp)

theorem Trimmed.collapse (hs : p s = true) {xs : List α} (h : Trimmed p xs) :
    Trimmed p (collapse p s false xs) := by
  constructor
  · cases xs with
    | nil => simp
    | cons x xs => simp [collapse_cons_of_not (h.head x (by simp)), h.head x (by simp)]
  · rw [endsIn_collapse hs]
    exact h.last

namespace KeepsMarks

variable {f : α → List α} {xs : List α}

theorem endsIn_flatMap (hf : KeepsMarks p s f) (b : Bool) (hmarked : ∀ x ∈ xs, p x = true → x = s) :
    endsIn p b (xs.flatMap f) = endsIn p b xs := by
  induction xs generalizing b with
  | nil => rfl
  | cons x xs ih =>
    have hmarked' : ∀ y ∈ xs, p y = true → y = s := fun y hy => hmarked y (List.mem_cons_of_mem x hy)
    rw [List.flatMap_cons, endsIn_append, endsIn_cons, ih _ hmarked']
    cases hx : p x with
    | false => rw [endsIn_of_not b (hf.ne_nil x hx) (hf.not x hx)]
    | true =>
      obtain rfl := hmarked x List.mem_cons_self hx
      rw [hf.mark, endsIn_cons, hx, endsIn_nil]

theorem collapse_flatMap (hf : KeepsMarks p s f) (b : Bool) (hmarked : ∀ x ∈ xs, p x = true → x = s) :
    collapse p s b (xs.flatMap f) = (collapse p s b xs).flatMap f := by
  induction xs generalizing b with
  | nil => rfl
  | cons x xs ih =>
    have hmarked' : ∀ y ∈ xs, p y = true → y = s := fun y hy => hmarked y (List.mem_cons_of_mem x hy)
    rw [List.flatMap_cons]
    cases hx : p x with
    | false =>
      rw [collapse_append, collapse_of_not b (hf.not x hx), endsIn_of_not b (hf.ne_nil x hx) (hf.not x hx),
        ih false hmarked', collapse_cons_of_not hx, List.flatMap_cons]
    | true =>
      obtain rfl := hmarked x List.mem_cons_self hx
      cases b <;> simp [hf.mark, collapse_false_cons hx, collapse_true_cons hx, ih _ hmarked']

theorem trimmed_flatMap (hf : KeepsMarks p s f) (hmarked : ∀ x ∈ xs, p x = true → x = s) (h : Trimmed p xs) :
    Trimmed p (xs.flatMap f) := by
  constructor
  · cases xs with
    | nil => simp
    | cons x xs =>
      have hx := h.head x (by simp)
      cases hfx : f x with
      | nil => exact absurd hfx (hf.ne_nil x hx)
      | cons y ys => simp [hfx, hf.not x hx y (by simp [hfx])]
  · rw [hf.endsIn_flatMap false hmarked]
    exact h.last

end KeepsMarks

end

end PyList

namespace Py

/-- The zeros of the decimal digits, each with its nine successors. -/
def decimalZeros : List Nat :=
  [0x30, 0x660, 0x6F0, 0x7C0, 0x966, 0x9E6, 0xA66, 0xAE6, 0xB66, 0xBE6, 0xC66, 0xCE6, 0xD66, 0xDE6,
    0xE50, 0xED0, 0xF20, 0x1040, 0x1090, 0x17E0, 0x1810, 0x1946, 0x19D0, 0x1A80, 0x1A90, 0x1B50,
    0x1BB0, 0x1C40, 0x1C50, 0xA620, 0xA8D0, 0xA900, 0xA9D0, 0xA9F0, 0xAA50, 0xABF0, 0xFF10, 0x104A0,
    0x10D30, 0x11066, 0x110F0, 0x11136, 0x111D0, 0x112F0, 0x11450, 0x114D0, 0x11650, 0x116C0, 0x11730,
    0x118E0, 0x11950, 0x11C50, 0x11D50, 0x11DA0, 0x16A60, 0x16AC0, 0x16B50, 0x1D7CE, 0x1D7D8, 0x1D7E2,
    0x1D7EC, 0x1D7F6, 0x1E140, 0x1E2F0, 0x1E950, 0x1FBF0]

/-- The digits that are not decimal, first and last of each range. -/
def otherDigits : List (Nat × Nat) :=
  [(0xB2, 0xB3), (0xB9, 0xB9), (0x1369, 0x1371), (0x19DA, 0x19DA), (0x2070, 0x2070), (0x2074, 0x2079),
    (0x2080, 0x2089), (0x2460, 0x2468), (0x2474, 0x247C), (0x2488, 0x2490), (0x24EA, 0x24EA),
    (0x24F5, 0x24FD), (0x24FF, 0x24FF), (0x2776, 0x277E), (0x2780, 0x2788), (0x278A, 0x2792),
    (0x10A40, 0x10A43), (0x10E60, 0x10E68), (0x11052, 0x1105A), (0x1F100, 0x1F10A)]

/-- The value of a decimal digit. -/
def decimalValue (c : Char) : Option Nat :=
  (decimalZeros.find? fun first => first ≤ c.toNat ∧ c.toNat ≤ first + 9).map (c.toNat - ·)

/-- `str.isdigit` of one character. -/
def isDigitChar (c : Char) : Bool :=
  (decimalValue c).isSome || otherDigits.any fun range => range.1 ≤ c.toNat ∧ c.toNat ≤ range.2

/-- `value.isdigit()`. -/
def isdigit (value : String) : Bool := value ≠ "" && value.toList.all isDigitChar

/-- `int(value)` on a string of digits: `none` is a `ValueError`. -/
def int? (value : String) : Option Nat :=
  value.toList.foldl (fun acc c => acc.bind fun n => (decimalValue c).map (10 * n + ·)) (some 0)

/-- A string of decimal digits is a number. -/
theorem int?_isSome (value : String) (h : ∀ c ∈ value.toList, (decimalValue c).isSome = true) :
    (int? value).isSome = true := by
  have hloop (digits : List Char) : (∀ c ∈ digits, (decimalValue c).isSome = true) → ∀ n : Nat,
      (digits.foldl (fun acc c => acc.bind fun n => (decimalValue c).map (10 * n + ·)) (some n)).isSome = true := by
    induction digits with
    | nil => exact fun _ n => rfl
    | cons c digits ih =>
      intro hdigits n
      obtain ⟨digit, hdigit⟩ := Option.isSome_iff_exists.1 (hdigits c List.mem_cons_self)
      rw [List.foldl_cons, Option.bind_some, hdigit, Option.map_some]
      exact ih (fun c hc => hdigits c (List.mem_cons_of_mem _ hc)) _
  exact hloop _ h 0

theorem decimalValue_of_isDigit {c : Char} (h : c.isDigit = true) :
    decimalValue c = some (c.toNat - '0'.toNat) := by
  have hrange : 0x30 ≤ c.toNat ∧ c.toNat ≤ 0x30 + 9 := by
    simp only [Char.isDigit, Bool.and_eq_true, decide_eq_true_eq] at h
    exact ⟨h.1, h.2⟩
  simp only [decimalValue, decimalZeros, List.find?_cons, hrange, and_self, decide_true, Option.map_some]
  rfl

/-- `str` of a number is read back. -/
theorem int?_toString (n : Nat) : int? (toString n) = some n := by
  have hloop (digits : List Char) (hdigits : ∀ c ∈ digits, c.isDigit = true) : ∀ value : Nat,
      digits.foldl (fun acc c => acc.bind fun n => (decimalValue c).map (10 * n + ·)) (some value) =
        some (Nat.ofDigitChars 10 digits value) := by
    induction digits with
    | nil => exact fun value => rfl
    | cons c digits ih =>
      intro value
      have hrest := ih fun c hc => hdigits c (List.mem_cons_of_mem _ hc)
      simp only [List.foldl_cons, Option.bind_some,
        decimalValue_of_isDigit (hdigits c List.mem_cons_self), Option.map_some, hrest]
      rfl
  have hstr : (toString n).toList = Nat.toDigits 10 n := String.toList_ofList
  rw [int?, hstr, hloop _ (fun c hc => Nat.isDigit_of_mem_toDigits (by decide) (by decide) hc),
    Nat.ofDigitChars_ten_toDigits]

theorem isdigit_toString (n : Nat) : isdigit (toString n) = true := by
  have hstr : (toString n).toList = Nat.toDigits 10 n := String.toList_ofList
  have hne : toString n ≠ "" := by
    intro hempty
    rw [hempty] at hstr
    exact Nat.toDigits_ne_nil hstr.symm
  simp only [isdigit, hne, ne_eq, not_false_eq_true, decide_true, Bool.true_and, hstr, List.all_eq_true]
  intro c hc
  simp [isDigitChar, decimalValue_of_isDigit (Nat.isDigit_of_mem_toDigits (by decide) (by decide) hc)]

end Py
