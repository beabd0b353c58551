import Mathlib.Data.List.Basic

/-!
# Computations that may fail

Rules for `Except`: what a bind, a loop of checks and a fallible fold have done when they
succeed.
-/

namespace Fallible

variable {ε α β : Type}

theorem bind_eq_ok {x : Except ε α} {f : α → Except ε β} {b : β} :
    (x >>= f) = .ok b ↔ ∃ a, x = .ok a ∧ f a = .ok b := by
  cases x with
  | error e => simp [bind, Except.bind]
  | ok a => simp [bind, Except.bind]

theorem map_eq_ok {x : Except ε α} {f : α → β} {b : β} :
    x.map f = .ok b ↔ ∃ a, x = .ok a ∧ f a = b := by
  cases x with
  | error e => simp [Except.map]
  | ok a => simp [Except.map]

theorem mapError_eq_ok {ε' : Type} {x : Except ε α} {f : ε → ε'} {a : α} :
    x.mapError f = .ok a ↔ x = .ok a := by
  cases x with
  | error e => simp [Except.mapError]
  | ok a => simp [Except.mapError]

/-- A loop of checks succeeds when every check does. -/
theorem forM_eq_ok {check : α → Except ε Unit} :
    ∀ {xs : List α}, xs.forM check = .ok () → ∀ x ∈ xs, check x = .ok ()
  | [], _, x, hx => by cases hx
  | y :: ys, h, x, hx => by
    have hloop : (check y >>= fun _ => ys.forM check) = .ok () := h
    obtain ⟨_, hy, hys⟩ := bind_eq_ok.1 hloop
    rcases List.mem_cons.1 hx with rfl | hx
    · exact hy
    · exact forM_eq_ok hys x hx

theorem foldlM_append_eq_ok {before after : List β} {f : α → β → Except ε α} {a c : α} :
    (before ++ after).foldlM f a = .ok c ↔
      ∃ b, before.foldlM f a = .ok b ∧ after.foldlM f b = .ok c := by
  rw [List.foldlM_append]
  exact bind_eq_ok

/-- A pipeline that fails does so at one stage, after the stages before it went through. -/
theorem foldlM_eq_error_iff {stages : List β} {f : α → β → Except ε α} {a : α} {e : ε} :
    stages.foldlM f a = .error e ↔ ∃ before stage after b, stages = before ++ stage :: after ∧
      before.foldlM f a = .ok b ∧ f b stage = .error e := by
  constructor
  · intro h
    induction stages generalizing a with
    | nil => cases h
    | cons stage stages ih =>
      rw [List.foldlM_cons] at h
      cases hfirst : f a stage with
      | error e' =>
        rw [hfirst] at h
        cases h
        exact ⟨[], stage, stages, a, rfl, rfl, hfirst⟩
      | ok b =>
        rw [hfirst] at h
        obtain ⟨before, failing, after, c, rfl, hbefore, hfailing⟩ := ih h
        refine ⟨stage :: before, failing, after, c, rfl, ?_, hfailing⟩
        rw [List.foldlM_cons, hfirst]
        exact hbefore
  · rintro ⟨before, stage, after, b, rfl, hbefore, hfailing⟩
    rw [List.foldlM_append, hbefore]
    show (stage :: after).foldlM f b = .error e
    rw [List.foldlM_cons, hfailing]
    rfl

/-- The invariant rule for a pipeline of fallible stages. -/
theorem foldlM_invariant {P : α → Prop} {stages : List β} {f : α → β → Except ε α}
    (hstage : ∀ stage ∈ stages, ∀ a b, P a → f a stage = .ok b → P b) :
    ∀ {a b : α}, P a → stages.foldlM f a = .ok b → P b := by
  induction stages with
  | nil =>
    intro a b ha h
    cases h
    exact ha
  | cons stage stages ih =>
    intro a b ha h
    rw [List.foldlM_cons, bind_eq_ok] at h
    obtain ⟨mid, hmid, hrest⟩ := h
    have hnext : P mid := hstage stage List.mem_cons_self a mid ha hmid
    exact ih (fun s hs => hstage s (List.mem_cons_of_mem _ hs)) hnext hrest

/-- One stage of a pipeline whose other stages keep what `g` reads: it finds that as it was at the
start, and leaves it as it is in the end. -/
theorem foldlM_around {γ : Type} {g : α → γ} {before after : List β} {stage : β}
    {f : α → β → Except ε α} {a c : α}
    (hkeep : ∀ other ∈ before ++ after, ∀ x y, f x other = .ok y → g y = g x)
    (h : (before ++ stage :: after).foldlM f a = .ok c) :
    ∃ b b', f b stage = .ok b' ∧ g b = g a ∧ g c = g b' := by
  obtain ⟨b, hbefore, h⟩ := foldlM_append_eq_ok.1 h
  rw [List.foldlM_cons, bind_eq_ok] at h
  obtain ⟨b', hstage, hafter⟩ := h
  have keeps {stages : List β} (hstages : ∀ other ∈ stages, other ∈ before ++ after) {x y : α}
      (hrun : stages.foldlM f x = .ok y) : g y = g x :=
    foldlM_invariant (P := fun z => g z = g x)
      (fun other hmem z z' hz hz' => (hkeep other (hstages other hmem) z z' hz').trans hz) rfl hrun
  exact ⟨b, b', hstage, keeps (fun _ => List.mem_append_left _) hbefore,
    keeps (fun _ => List.mem_append_right _) hafter⟩

/-- A pipeline run on what is seen of its input has what is seen of its result, when every stage has. -/
theorem foldlM_map {stages : List β} {f g : α → β → Except ε α} {seen : α → α}
    (hstage : ∀ stage ∈ stages, ∀ a, (f a stage).map seen = g (seen a) stage) :
    ∀ a, (stages.foldlM f a).map seen = stages.foldlM g (seen a) := by
  induction stages with
  | nil => exact fun a => rfl
  | cons stage stages ih =>
    intro a
    rw [List.foldlM_cons, List.foldlM_cons, ← hstage stage List.mem_cons_self a]
    cases f a stage with
    | error e => rfl
    | ok b => exact ih (fun later hlater => hstage later (List.mem_cons_of_mem _ hlater)) b

/-! ## Computations that differ in their checks -/

/-- Wherever both computations return, they return the same. -/
def Agree (x y : Except ε α) : Prop := ∀ a b, x = .ok a → y = .ok b → a = b

theorem Agree.refl (x : Except ε α) : Agree x x := by
  intro a b ha hb
  exact Except.ok.inj (ha.symm.trans hb)

/-- Checks return nothing to differ in. -/
theorem agree_checks (x y : Except ε Unit) : Agree x y := fun _ _ _ _ => rfl

theorem Agree.bind {x y : Except ε α} {f g : α → Except ε β} (h : Agree x y)
    (hf : ∀ a, Agree (f a) (g a)) : Agree (x >>= f) (y >>= g) := by
  intro b b' hb hb'
  obtain ⟨a, hx, hb⟩ := bind_eq_ok.1 hb
  obtain ⟨a', hy, hb'⟩ := bind_eq_ok.1 hb'
  have heq : a = a' := h a a' hx hy
  subst heq
  exact hf a b b' hb hb'

theorem Agree.foldlM {stages : List β} {f g : α → β → Except ε α}
    (hstage : ∀ stage ∈ stages, ∀ a, Agree (f a stage) (g a stage)) :
    ∀ a, Agree (stages.foldlM f a) (stages.foldlM g a) := by
  induction stages with
  | nil => intro a; exact .refl _
  | cons stage stages ih =>
    intro a
    rw [List.foldlM_cons, List.foldlM_cons]
    refine .bind (hstage stage List.mem_cons_self a) fun b => ?_
    exact ih (fun later hlater => hstage later (List.mem_cons_of_mem _ hlater)) b

end Fallible
