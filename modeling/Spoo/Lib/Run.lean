import Mathlib.Data.List.Basic

/-!
# Runs of a deterministic step function

A system is a step function `step : σ → ι → σ`, a run is the list of its inputs, and the
states of the run are `List.scanl step s inputs` (the first one included). `Guarded` says
that every input of a run is taken in a state that meets a condition; the rules below turn a
fact about one step into a fact about every state of a run.
-/

namespace Run

variable {σ τ ι : Type}

/-- Every input of the run is taken in a state that meets `guard`. -/
def Guarded (step : σ → ι → σ) (guard : σ → ι → Prop) : σ → List ι → Prop
  | _, [] => True
  | s, i :: inputs => guard s i ∧ Guarded step guard (step s i) inputs

instance (step : σ → ι → σ) (guard : σ → ι → Prop) [∀ s i, Decidable (guard s i)] :
    ∀ s inputs, Decidable (Guarded step guard s inputs)
  | _, [] => inferInstanceAs (Decidable True)
  | s, i :: inputs =>
    have := instDecidableGuarded step guard (step s i) inputs
    inferInstanceAs (Decidable (guard s i ∧ Guarded step guard (step s i) inputs))

variable {step : σ → ι → σ} {guard : σ → ι → Prop} {P : σ → Prop}

theorem Guarded.and {guard' : σ → ι → Prop} :
    ∀ {inputs : List ι} {s : σ}, Guarded step guard s inputs → Guarded step guard' s inputs →
      Guarded step (fun s i => guard s i ∧ guard' s i) s inputs
  | [], _, _, _ => trivial
  | _ :: _, _, h, h' => ⟨⟨h.1, h'.1⟩, Guarded.and h.2 h'.2⟩

/-- Two conditions that say the same in every state the run can reach guard the same runs. -/
theorem guarded_congr {guard' : σ → ι → Prop} (hstep : ∀ s i, P s → P (step s i))
    (hiff : ∀ s i, P s → (guard s i ↔ guard' s i)) :
    ∀ {inputs : List ι} {s : σ}, P s →
      (Guarded step guard s inputs ↔ Guarded step guard' s inputs)
  | [], _, _ => Iff.rfl
  | i :: _, s, hs =>
    and_congr (hiff s i hs) (guarded_congr hstep hiff (hstep s i hs))

/-- A condition that follows from another one in every state the run can reach guards what the other
guards. -/
theorem Guarded.mono {guard' : σ → ι → Prop} (hstep : ∀ s i, P s → P (step s i))
    (himp : ∀ s i, P s → guard s i → guard' s i) :
    ∀ {inputs : List ι} {s : σ}, P s → Guarded step guard s inputs → Guarded step guard' s inputs
  | [], _, _, _ => trivial
  | i :: _, s, hs, h => ⟨himp s i hs h.1, Guarded.mono hstep himp (hstep s i hs) h.2⟩

/-- A condition on the inputs alone guards the run as soon as every input meets it. -/
theorem guarded_of_forall {cond : ι → Prop} :
    ∀ {inputs : List ι} {s : σ}, (∀ i ∈ inputs, cond i) →
      Guarded step (fun _ i => cond i) s inputs
  | [], _, _ => trivial
  | i :: inputs, _, h =>
    ⟨h i (by simp), guarded_of_forall fun j hj => h j (by simp [hj])⟩

/-- The invariant rule: what every guarded step preserves holds in every state of a guarded
run. -/
theorem forall_mem_scanl (hstep : ∀ s i, P s → guard s i → P (step s i)) :
    ∀ {inputs : List ι} {s : σ}, P s → Guarded step guard s inputs →
      ∀ t ∈ List.scanl step s inputs, P t := by
  intro inputs
  induction inputs with
  | nil =>
    intro s hs _ t ht
    rw [List.scanl_nil, List.mem_singleton] at ht
    exact ht ▸ hs
  | cons i inputs ih =>
    intro s hs hg t ht
    rw [List.scanl_cons, List.mem_cons] at ht
    rcases ht with rfl | ht
    · exact hs
    · exact ih (hstep s i hs hg.1) hg.2 t ht

/-- The invariant rule where every step preserves. -/
theorem forall_mem_scanl_of_step (hstep : ∀ s i, P s → P (step s i)) {inputs : List ι} {s : σ}
    (hs : P s) : ∀ t ∈ List.scanl step s inputs, P t := by
  have htrivial : Guarded step (fun _ _ => True) s inputs := guarded_of_forall fun _ _ => trivial
  exact forall_mem_scanl (fun s i h _ => hstep s i h) hs htrivial

/-- The invariant rule for the last state. -/
theorem foldl_invariant (hstep : ∀ s i, P s → guard s i → P (step s i)) :
    ∀ {inputs : List ι} {s : σ}, P s → Guarded step guard s inputs →
      P (inputs.foldl step s) := by
  intro inputs
  induction inputs with
  | nil => intro s hs _; exact hs
  | cons i inputs ih => intro s hs hg; exact ih (hstep s i hs hg.1) hg.2

/-- If a step keeps `P` exactly when its guard holds, a run stays in `P` exactly when all its
guards hold. -/
theorem forall_mem_scanl_iff (hstep : ∀ s i, P s → (P (step s i) ↔ guard s i)) :
    ∀ {inputs : List ι} {s : σ}, P s →
      ((∀ t ∈ List.scanl step s inputs, P t) ↔ Guarded step guard s inputs) := by
  intro inputs s hs
  refine ⟨?_, forall_mem_scanl (fun s i hp hg => (hstep s i hp).2 hg) hs⟩
  induction inputs generalizing s with
  | nil => intro _; trivial
  | cons i inputs ih =>
    intro hall
    simp only [List.scanl_cons, List.mem_cons] at hall
    have hnext : P (step s i) := by
      refine hall _ (Or.inr ?_)
      cases inputs <;> simp
    exact ⟨(hstep s i hs).1 hnext, ih hnext fun t ht => hall t (Or.inr ht)⟩

/-- The same, where an invariant goes along that a run keeps as long as it stays in `P`. -/
theorem forall_mem_scanl_iff_of_invariant (Inv : σ → Prop)
    (hguard : ∀ s i, Inv s → P s → P (step s i) → guard s i)
    (hstep : ∀ s i, Inv s → P s → guard s i → Inv (step s i) ∧ P (step s i)) :
    ∀ {inputs : List ι} {s : σ}, Inv s → P s →
      ((∀ t ∈ List.scanl step s inputs, P t) ↔ Guarded step guard s inputs) := by
  intro inputs s hinv hs
  constructor
  · induction inputs generalizing s with
    | nil => intro _; trivial
    | cons i inputs ih =>
      intro hall
      rw [List.scanl_cons, List.forall_mem_cons] at hall
      have hnext : P (step s i) := hall.2 _ (by cases inputs <;> simp)
      have hg : guard s i := hguard s i hinv hs hnext
      exact ⟨hg, ih (hstep s i hinv hs hg).1 hnext hall.2⟩
  · intro hg t ht
    exact (forall_mem_scanl (P := fun s => Inv s ∧ P s) (fun s i h hg => hstep s i h.1 h.2 hg)
      ⟨hinv, hs⟩ hg t ht).2

/-- What is never regained and holds at the end has held all along. -/
theorem of_foldl (hback : ∀ s i, P (step s i) → P s) :
    ∀ {inputs : List ι} {s : σ}, P (inputs.foldl step s) → P s := by
  intro inputs
  induction inputs with
  | nil => intro s h; exact h
  | cons i inputs ih => intro s h; exact hback s i (ih h)

/-- If a step keeps `P` exactly when its guard holds, and no step regains it, a run ends in `P` exactly
when all its guards hold. -/
theorem foldl_iff (hstep : ∀ s i, P s → (P (step s i) ↔ guard s i))
    (hback : ∀ s i, P (step s i) → P s) :
    ∀ {inputs : List ι} {s : σ}, P s → (P (inputs.foldl step s) ↔ Guarded step guard s inputs) := by
  intro inputs s hs
  constructor
  · induction inputs generalizing s with
    | nil => intro _; trivial
    | cons i inputs ih =>
      intro hend
      have hnext : P (step s i) := of_foldl hback hend
      exact ⟨(hstep s i hs).1 hnext, ih hnext hend⟩
  · exact foldl_invariant (fun s i hp hg => (hstep s i hp).2 hg) hs

/-- Two systems fed the same inputs stay related when every guarded step keeps them so. -/
theorem foldl_simulates {step' : τ → ι → τ} {R : σ → τ → Prop}
    (hstep : ∀ s t i, R s t → guard s i → R (step s i) (step' t i)) :
    ∀ {inputs : List ι} {s : σ} {t : τ}, R s t → Guarded step guard s inputs →
      R (inputs.foldl step s) (inputs.foldl step' t) := by
  intro inputs
  induction inputs with
  | nil => intro s t hr _; exact hr
  | cons i inputs ih => intro s t hr hg; exact ih (hstep s t i hr hg.1) hg.2

end Run
