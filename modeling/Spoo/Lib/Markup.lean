import Mathlib.Data.List.Basic

/-!
# Texts with escapes and fences

A text whose characters a reader takes literally behind an escape and between two fences, a fence being
three ticks in a row. What is not taken literally is live. Characters may be of any type: what escapes and
what is a tick are parameters.
-/

namespace Markup

variable {α : Type}

/-! ## Escapes -/

section

variable (slash : α → Bool)

/-- What is not behind an escape, the first argument being whether an escape is pending. -/
def live : Bool → List α → List α
  | _, [] => []
  | true, _ :: xs => live false xs
  | false, x :: xs => x :: live (slash x) xs

/-- An escape is pending at the end. -/
def escaping : Bool → List α → Bool
  | b, [] => b
  | true, _ :: xs => escaping false xs
  | false, x :: xs => escaping (slash x) xs

variable {slash}

theorem live_append (b : Bool) (xs ys : List α) :
    live slash b (xs ++ ys) = live slash b xs ++ live slash (escaping slash b xs) ys := by
  induction xs generalizing b with
  | nil => cases b <;> rfl
  | cons x xs ih => cases b <;> simp [live, escaping, ih]

theorem escaping_append (b : Bool) (xs ys : List α) :
    escaping slash b (xs ++ ys) = escaping slash (escaping slash b xs) ys := by
  induction xs generalizing b with
  | nil => cases b <;> rfl
  | cons x xs ih => cases b <;> simp [escaping, ih]

theorem escaping_of_unmarked {xs : List α} (h : ∀ x ∈ xs, slash x = false) :
    escaping slash false xs = false := by
  induction xs with
  | nil => rfl
  | cons x xs ih =>
    rw [escaping, h x List.mem_cons_self]
    exact ih fun y hy => h y (List.mem_cons_of_mem _ hy)

/-- An unmarked character ends whatever is pending. -/
theorem escaping_concat (b : Bool) (xs : List α) {x : α} (hx : slash x = false) :
    escaping slash b (xs ++ [x]) = false := by
  rw [escaping_append]
  cases escaping slash b xs with
  | true => rfl
  | false => exact hx

theorem mem_live_of_take {b : Bool} {xs : List α} {n : Nat} {x : α} (h : x ∈ live slash b (xs.take n)) :
    x ∈ live slash b xs := by
  rw [← List.take_append_drop n xs, live_append]
  exact List.mem_append_left _ h

theorem mem_of_mem_live {x : α} (b : Bool) {xs : List α} (h : x ∈ live slash b xs) : x ∈ xs := by
  induction xs generalizing b with
  | nil => cases b <;> cases h
  | cons y xs ih =>
    cases b with
    | true => exact List.mem_cons_of_mem _ (ih false h)
    | false =>
      rcases List.mem_cons.1 h with rfl | h
      · exact List.mem_cons_self
      · exact List.mem_cons_of_mem _ (ih _ h)

end

/-- A mark before every special character. -/
def escape (special : α → Bool) (mark : α) (xs : List α) : List α :=
  xs.flatMap fun x => if special x then [mark, x] else [x]

section

variable {slash special : α → Bool} {mark : α}

@[simp] theorem escape_nil : escape special mark [] = [] := rfl

theorem escape_cons (x : α) (xs : List α) :
    escape special mark (x :: xs) = (if special x then [mark, x] else [x]) ++ escape special mark xs := rfl

/-- Of an escaped text the marks are live and what needs none. -/
theorem live_escape (hmark : slash mark = true) (hspecial : ∀ x, slash x = true → special x = true)
    (xs : List α) :
    live slash false (escape special mark xs) = xs.map fun x => if special x then mark else x := by
  induction xs with
  | nil => rfl
  | cons x xs ih =>
    rw [escape_cons, List.map_cons, ← ih]
    cases hx : special x with
    | true => simp [live, hmark]
    | false =>
      have hplain : slash x = false := Bool.eq_false_iff.2 fun h => by simp [hspecial x h] at hx
      simp [live, hplain]

theorem escaping_escape (hmark : slash mark = true) (hspecial : ∀ x, slash x = true → special x = true)
    (xs : List α) : escaping slash false (escape special mark xs) = false := by
  induction xs with
  | nil => rfl
  | cons x xs ih =>
    rw [escape_cons]
    cases hx : special x with
    | true => simpa [escaping, hmark] using ih
    | false =>
      have hplain : slash x = false := Bool.eq_false_iff.2 fun h => by simp [hspecial x h] at hx
      simpa [escaping, hplain] using ih

end

/-! ## Fences -/

section

variable (tick : α → Bool)

/-- The text begins with a fence. -/
def opens : List α → Bool
  | a :: b :: c :: _ => tick a && tick b && tick c
  | _ => false

/-- There is a fence in the text. -/
def hasFence : List α → Bool
  | [] => false
  | x :: xs => opens tick (x :: xs) || hasFence xs

/-- One more character of the first piece. -/
def glue (x : α) : List (List α) → List (List α)
  | [] => [[x]]
  | piece :: rest => (x :: piece) :: rest

/-- The text between the fences, from the left. -/
def pieces : List α → List (List α)
  | a :: b :: c :: xs => if tick a && tick b && tick c then [] :: pieces xs else glue a (pieces (b :: c :: xs))
  | xs => [xs]

/-- Every other piece, from the first on: what is outside the fences. -/
def outside : List (List α) → List (List α)
  | piece :: _ :: rest => piece :: outside rest
  | rest => rest

/-- Every fence that opens is followed by one that closes. -/
def Closed (xs : List α) : Prop := (pieces tick xs).length % 2 = 1

instance (xs : List α) : Decidable (Closed tick xs) := inferInstanceAs (Decidable (_ = _))

/-- No two ticks in a row, and none at the start where the first argument says so. -/
def apart : Bool → List α → Bool
  | _, [] => true
  | b, x :: xs => !(b && tick x) && apart (tick x) xs

/-- `text.replace(fence, …)`, with something else for each of three ticks. -/
def breakFences (other : α → α) : List α → List α
  | a :: b :: c :: xs =>
    if tick a && tick b && tick c then other a :: other b :: other c :: breakFences other xs
    else a :: breakFences other (b :: c :: xs)
  | xs => xs

-- The equations are worked out here, and not by each of the proofs below at once.
attribute [local grind] opens hasFence pieces breakFences apart

variable {tick}

theorem opens_cons_of_not {x : α} (h : tick x = false) (xs : List α) : opens tick (x :: xs) = false := by
  rcases xs with _ | ⟨y, _ | ⟨z, xs⟩⟩ <;> simp [opens, h]

theorem hasFence_of_forall {xs : List α} (h : ∀ x ∈ xs, tick x = false) : hasFence tick xs = false := by
  induction xs with
  | nil => rfl
  | cons x xs ih =>
    rw [hasFence, ih fun y hy => h y (List.mem_cons_of_mem _ hy), opens_cons_of_not (h x List.mem_cons_self)]
    rfl

/-- A fence does not reach over a character that is no tick. -/
theorem opens_append_cons {xs ys : List α} {x : α} (hx : tick x = false) :
    opens tick (xs ++ x :: ys) = opens tick xs := by
  rcases xs with _ | ⟨a, _ | ⟨b, _ | ⟨c, xs⟩⟩⟩
  · rcases ys with _ | ⟨y, _ | ⟨z, ys⟩⟩ <;> simp [opens, hx]
  · rcases ys with _ | ⟨y, ys⟩ <;> simp [opens, hx]
  · simp [opens, hx]
  · rfl

theorem hasFence_append_cons {xs ys : List α} {x : α} (hx : tick x = false) :
    hasFence tick (xs ++ x :: ys) = (hasFence tick xs || hasFence tick ys) := by
  induction xs with
  | nil => simp [hasFence, opens_cons_of_not hx]
  | cons a xs ih =>
    have hopens := @opens_append_cons α tick (a :: xs) ys x hx
    rw [List.cons_append] at hopens ⊢
    rw [hasFence, hopens, ih, hasFence, Bool.or_assoc]

/-- A text without ticks before another. -/
theorem hasFence_append_of_forall {xs ys : List α} (h : ∀ x ∈ xs, tick x = false) :
    hasFence tick (xs ++ ys) = hasFence tick ys := by
  induction xs with
  | nil => rfl
  | cons x xs ih =>
    rw [List.cons_append, hasFence, opens_cons_of_not (h x List.mem_cons_self), Bool.false_or]
    exact ih fun y hy => h y (List.mem_cons_of_mem _ hy)

theorem pieces_cons (a : α) (xs : List α) (h : opens tick (a :: xs) = false) :
    pieces tick (a :: xs) = glue a (pieces tick xs) := by
  rcases xs with _ | ⟨b, _ | ⟨c, xs⟩⟩
  · rfl
  · rfl
  · rw [pieces, if_neg]
    simpa [opens] using h

theorem pieces_of_not_hasFence {xs : List α} (h : hasFence tick xs = false) : pieces tick xs = [xs] := by
  induction xs with
  | nil => rfl
  | cons x xs ih =>
    rw [hasFence, Bool.or_eq_false_iff] at h
    rw [pieces_cons x xs h.1, ih h.2]
    rfl

theorem closed_of_not_hasFence {xs : List α} (h : hasFence tick xs = false) : Closed tick xs := by
  rw [Closed, pieces_of_not_hasFence h]
  rfl

/-- The first piece ends where the first fence begins. -/
theorem pieces_append_fence {xs ys : List α} {a b c : α} (ha : tick a = true) (hb : tick b = true)
    (hc : tick c = true) (h : hasFence tick xs = false) (hlast : ∀ x ∈ xs.getLast?, tick x = false) :
    pieces tick (xs ++ a :: b :: c :: ys) = xs :: pieces tick ys := by
  induction xs with
  | nil => simp [pieces, ha, hb, hc]
  | cons x xs ih =>
    rw [hasFence, Bool.or_eq_false_iff] at h
    rw [List.cons_append]
    have hopens : opens tick (x :: (xs ++ a :: b :: c :: ys)) = false := by
      rcases xs with _ | ⟨y, _ | ⟨z, xs⟩⟩
      · simp [opens, hlast x rfl]
      · simp [opens, hlast y rfl]
      · exact h.1
    rw [pieces_cons x _ hopens, ih h.2 ?_]
    · rfl
    · intro y hy
      cases xs with
      | nil => cases hy
      | cons z xs => exact hlast y (by rwa [List.getLast?_cons_cons])

/-- A text between two fences. -/
theorem pieces_fenced {xs : List α} {a b c a' b' c' : α} (ha : tick a = true) (hb : tick b = true)
    (hc : tick c = true) (ha' : tick a' = true) (hb' : tick b' = true) (hc' : tick c' = true)
    (h : hasFence tick xs = false) (hlast : ∀ x ∈ xs.getLast?, tick x = false) :
    pieces tick (a :: b :: c :: (xs ++ [a', b', c'])) = [[], xs, []] := by
  rw [pieces, if_pos (by simp [ha, hb, hc]), pieces_append_fence ha' hb' hc' h hlast]
  rfl

theorem opens_cons_breakFences {other : α → α} (hother : ∀ x, tick (other x) = false) (a : α) (xs : List α)
    (h : opens tick (a :: breakFences tick other xs) = true) : opens tick (a :: xs) = true := by
  rcases xs with _ | ⟨b, _ | ⟨c, xs⟩⟩
  · exact h
  · exact h
  -- The two characters behind `a` are what they were, or no ticks.
  · rcases xs with _ | ⟨d, xs⟩
    · exact h
    · rw [breakFences] at h
      split at h
      · simp [opens, hother] at h
      · rcases xs with _ | ⟨e, xs⟩
        · exact h
        · rw [breakFences] at h
          split at h
          · simp [opens, hother] at h
          · exact h

theorem hasFence_breakFences {other : α → α} (hother : ∀ x, tick (other x) = false) (xs : List α) :
    hasFence tick (breakFences tick other xs) = false := by
  fun_induction breakFences tick other xs with
  | case1 a b c xs _ ih =>
    simp only [hasFence, ih, opens_cons_of_not (hother _), Bool.or_false]
  | case2 a b c xs hnot ih =>
    rw [hasFence, ih, Bool.or_false]
    cases hopens : opens tick (a :: breakFences tick other (b :: c :: xs)) with
    | false => rfl
    | true => exact absurd (opens_cons_breakFences hother a _ hopens) (by simpa [opens] using hnot)
  | case3 xs hshort =>
    rcases xs with _ | ⟨a, _ | ⟨b, _ | ⟨c, xs⟩⟩⟩
    · rfl
    · rfl
    · rfl
    · exact absurd rfl (hshort a b c xs)

/-! ## Ticks that stand apart -/

theorem apart_of_apart {b : Bool} {xs : List α} (h : apart tick true xs = true) : apart tick b xs = true := by
  cases xs with
  | nil => rfl
  | cons x xs =>
    simp only [apart, Bool.true_and, Bool.and_eq_true, Bool.not_eq_true'] at h
    obtain ⟨hx, hxs⟩ := h
    rw [hx] at hxs
    simp [apart, hx, hxs]

theorem apart_append {b : Bool} {xs ys : List α} (hxs : apart tick b xs = true)
    (hys : apart tick true ys = true) : apart tick b (xs ++ ys) = true := by
  induction xs generalizing b with
  | nil => exact apart_of_apart hys
  | cons x xs ih =>
    simp only [List.cons_append, apart, Bool.and_eq_true] at hxs ⊢
    exact ⟨hxs.1, ih hxs.2⟩

theorem apart_of_append {b : Bool} {xs ys : List α} (h : apart tick b (xs ++ ys) = true) :
    apart tick b xs = true := by
  induction xs generalizing b with
  | nil => rfl
  | cons x xs ih =>
    simp only [List.cons_append, apart, Bool.and_eq_true] at h ⊢
    exact ⟨h.1, ih h.2⟩

theorem apart_of_forall {xs : List α} (b : Bool) (h : ∀ x ∈ xs, tick x = false) : apart tick b xs = true := by
  induction xs generalizing b with
  | nil => rfl
  | cons x xs ih =>
    simp [apart, h x List.mem_cons_self, ih false fun y hy => h y (List.mem_cons_of_mem _ hy)]

theorem hasFence_of_apart {b : Bool} {xs : List α} (h : apart tick b xs = true) : hasFence tick xs = false := by
  induction xs generalizing b with
  | nil => rfl
  | cons x xs ih =>
    simp only [apart, Bool.and_eq_true] at h
    rw [hasFence, ih h.2, Bool.or_false]
    rcases xs with _ | ⟨y, xs⟩
    · rfl
    · have hnot := h.2
      simp only [apart, Bool.and_eq_true, Bool.not_eq_true', Bool.and_eq_false_iff] at hnot
      rcases hnot.1 with hx | hy
      · exact opens_cons_of_not hx (y :: xs)
      · cases xs <;> simp [opens, hy]

theorem apart_escape {special : α → Bool} {mark : α} (hmark : tick mark = false)
    (hspecial : ∀ x, tick x = true → special x = true) (b : Bool) (xs : List α) :
    apart tick b (escape special mark xs) = true := by
  induction xs generalizing b with
  | nil => rfl
  | cons x xs ih =>
    rw [escape_cons]
    cases hx : special x with
    | true => simp [apart, hmark, ih]
    | false =>
      have hplain : tick x = false := Bool.eq_false_iff.2 fun h => by simp [hspecial x h] at hx
      simp [apart, hplain, ih]

end

/-! ## Texts that read as they should -/

section

variable (slash tick bad : α → Bool)

/-- The fences are closed, and nothing bad is live outside them. -/
structure WellFormed (xs : List α) : Prop where
  closed : Closed tick xs
  escaped : ∀ piece ∈ outside (pieces tick xs), ∀ x ∈ live slash false piece, bad x = false

/-- A text without fences in which nothing bad is live, whatever stands before and behind it. -/
structure Plain (xs : List α) : Prop where
  apart : apart tick true xs = true
  ends : escaping slash false xs = false
  escaped : ∀ x ∈ live slash false xs, bad x = false

variable {slash tick bad}

theorem Plain.wellFormed {xs : List α} (h : Plain slash tick bad xs) : WellFormed slash tick bad xs := by
  have hnot := hasFence_of_apart h.apart
  refine ⟨closed_of_not_hasFence hnot, ?_⟩
  intro piece hpiece
  rw [pieces_of_not_hasFence hnot] at hpiece
  obtain rfl := List.mem_singleton.1 hpiece
  exact h.escaped

theorem wellFormed_fenced {xs : List α} {a b c a' b' c' : α} (ha : tick a = true) (hb : tick b = true)
    (hc : tick c = true) (ha' : tick a' = true) (hb' : tick b' = true) (hc' : tick c' = true)
    (h : hasFence tick xs = false) (hlast : ∀ x ∈ xs.getLast?, tick x = false) :
    WellFormed slash tick bad (a :: b :: c :: (xs ++ [a', b', c'])) := by
  have hpieces := pieces_fenced ha hb hc ha' hb' hc' h hlast
  refine ⟨by simp [Closed, hpieces], ?_⟩
  intro piece hpiece x hx
  rw [hpieces] at hpiece
  have hnil : piece = [] := by simpa [outside] using hpiece
  rw [hnil] at hx
  cases hx

theorem Plain.nil : Plain slash tick bad [] := ⟨rfl, rfl, by simp [live]⟩

theorem Plain.append {xs ys : List α} (hxs : Plain slash tick bad xs) (hys : Plain slash tick bad ys) :
    Plain slash tick bad (xs ++ ys) := by
  refine ⟨apart_append hxs.apart hys.apart, ?_, ?_⟩
  · rw [escaping_append, hxs.ends]
    exact hys.ends
  · intro x hx
    rw [live_append, hxs.ends, List.mem_append] at hx
    rcases hx with hx | hx
    · exact hxs.escaped x hx
    · exact hys.escaped x hx

theorem Plain.of_unmarked {xs : List α} (h : ∀ x ∈ xs, slash x = false ∧ tick x = false ∧ bad x = false) :
    Plain slash tick bad xs := by
  refine ⟨apart_of_forall true fun x hx => (h x hx).2.1, escaping_of_unmarked fun x hx => (h x hx).1, ?_⟩
  intro x hx
  exact (h x (mem_of_mem_live false hx)).2.2

theorem Plain.escape {special : α → Bool} {mark : α} (hmark : slash mark = true) (htick : tick mark = false)
    (hbad : bad mark = false) (hslash : ∀ x, slash x = true → special x = true)
    (hticks : ∀ x, tick x = true → special x = true) {xs : List α}
    (h : ∀ x ∈ xs, special x = false → bad x = false) : Plain slash tick bad (escape special mark xs) := by
  refine ⟨apart_escape htick hticks true xs, escaping_escape hmark hslash xs, ?_⟩
  intro x hx
  rw [live_escape hmark hslash, List.mem_map] at hx
  obtain ⟨y, hy, rfl⟩ := hx
  cases hspecial : special y with
  | true => simpa using hbad
  | false => simpa using h y hy hspecial

/-- What is left of a text that is cut, with an unmarked character for what is gone. -/
theorem Plain.take_concat {xs : List α} (h : Plain slash tick bad xs) (n : Nat) {x : α}
    (hslash : slash x = false) (htick : tick x = false) (hbad : bad x = false) :
    Plain slash tick bad (xs.take n ++ [x]) := by
  refine ⟨?_, escaping_concat false _ hslash, ?_⟩
  · have hwhole : Markup.apart tick true (xs.take n ++ xs.drop n) = true := by
      rw [List.take_append_drop]
      exact h.apart
    exact apart_append (apart_of_append hwhole) (apart_of_forall true (by simp [htick]))
  · intro y hy
    rw [live_append, List.mem_append] at hy
    rcases hy with hy | hy
    · exact h.escaped y (mem_live_of_take hy)
    · obtain rfl := List.mem_singleton.1 (mem_of_mem_live _ hy)
      exact hbad

end

end Markup
