import Mathlib.Logic.Function.Basic
import Spoo.Lib.Interleave

/-!
# Programs of labelled atomic steps

A program is a tree of atomic steps on a shared state. Each step has a label that says what kind
of step it is, and what comes after it may depend on the state it found. Run alone a program is
a function on the state; in a pool the programs move one step at a time under a schedule.
-/

/-- A program with labels `ℓ` on a shared state `σ` that returns an `α`. -/
inductive Program (ℓ σ α : Type) : Type where
  | ret (a : α)
  | act (label : ℓ) (write : σ → σ) (next : σ → Program ℓ σ α)

namespace Program

variable {ℓ σ α β ν : Type}

/-- Go on with `f` once `p` has returned. -/
def bind : Program ℓ σ α → (α → Program ℓ σ β) → Program ℓ σ β
  | ret a, f => f a
  | act label write next, f => act label write fun s => (next s).bind f

instance : Monad (Program ℓ σ) where
  pure := ret
  bind := bind

/-- One atomic step. -/
def call (label : ℓ) (f : σ → α × σ) : Program ℓ σ α :=
  act label (fun s => (f s).2) fun s => ret (f s).1

/-- One atomic step that only reads. -/
def ask (label : ℓ) (f : σ → α) : Program ℓ σ α := call label fun s => (f s, s)

/-- A list of labelled actions on a part `get` of the state, from the variables `v`. -/
def calls {τ : Type} (get : σ → τ) (put : σ → τ → σ) :
    List (ℓ × Interleave.Action ν τ) → ν → Program ℓ σ ν
  | [], v => ret v
  | action :: rest, v =>
    act action.1 (fun s => put s (action.2 v (get s)).2) fun s =>
      calls get put rest (action.2 v (get s)).1

/-- Run the program alone. -/
def run : Program ℓ σ α → σ → α × σ
  | ret a, s => (a, s)
  | act _ write next, s => (next s).run (write s)

/-- The label of the next step. -/
def label? : Program ℓ σ α → Option ℓ
  | ret _ => none
  | act label _ _ => some label

@[simp] theorem pure_eq (a : α) : (pure a : Program ℓ σ α) = ret a := rfl

@[simp] theorem ret_bind (a : α) (f : α → Program ℓ σ β) : ret a >>= f = f a := rfl

@[simp] theorem call_bind (label : ℓ) (g : σ → α × σ) (f : α → Program ℓ σ β) :
    call label g >>= f = act label (fun s => (g s).2) fun s => f (g s).1 := rfl

@[simp] theorem ask_bind (label : ℓ) (g : σ → α) (f : α → Program ℓ σ β) :
    ask label g >>= f = act label (fun s => s) fun s => f (g s) := rfl

@[simp] theorem run_ret (a : α) (s : σ) : (ret a : Program ℓ σ α).run s = (a, s) := rfl

@[simp] theorem run_act (label : ℓ) (write : σ → σ) (next : σ → Program ℓ σ α) (s : σ) :
    (act label write next).run s = (next s).run (write s) := rfl

@[simp] theorem run_call (label : ℓ) (f : σ → α × σ) (s : σ) : (call label f).run s = f s := rfl

/-- Alone, one program runs after the other. -/
@[simp] theorem run_bind (p : Program ℓ σ α) (f : α → Program ℓ σ β) (s : σ) :
    (p >>= f).run s = (f (p.run s).1).run (p.run s).2 := by
  induction p generalizing s with
  | ret a => rfl
  | act label write next ih => exact ih s (write s)

/-! ## What a program may come to -/

/-- Every step of the program meets the condition, whatever states it finds. -/
def Every (cond : ℓ → (σ → σ) → Prop) : Program ℓ σ α → Prop
  | ret _ => True
  | act label write next => cond label write ∧ ∀ s, Every cond (next s)

/-- In some states the program takes a step that is a `target`, with no `barrier` before it. -/
def MayTake (target barrier : ℓ → Prop) : Program ℓ σ α → Prop
  | ret _ => False
  | act label _ next => target label ∨ ¬barrier label ∧ ∃ s, MayTake target barrier (next s)

/-- The condition holds of the program wherever it stands. -/
def Throughout (cond : Program ℓ σ α → Prop) : Program ℓ σ α → Prop
  | ret a => cond (ret a)
  | act label write next =>
    cond (act label write next) ∧ ∀ s, Throughout cond (next s)

section

variable {cond : ℓ → (σ → σ) → Prop} {target barrier : ℓ → Prop} {p : Program ℓ σ α}
  {f : α → Program ℓ σ β}

theorem Every.bind (hp : p.Every cond) (hf : ∀ a, (f a).Every cond) : (p >>= f).Every cond := by
  induction p with
  | ret a => exact hf a
  | act label write next ih => exact ⟨hp.1, fun s => ih s (hp.2 s)⟩

theorem every_call {label : ℓ} {g : σ → α × σ} (h : cond label fun s => (g s).2) :
    (call label g).Every cond := ⟨h, fun _ => trivial⟩

theorem every_ask_bind {label : ℓ} {g : σ → α} (hlabel : cond label fun s => s)
    (hf : ∀ s, (f (g s)).Every cond) : (ask label g >>= f).Every cond := ⟨hlabel, hf⟩

theorem Every.mono {cond' : ℓ → (σ → σ) → Prop} (hcond : ∀ label write, cond label write →
    cond' label write) (hp : p.Every cond) : p.Every cond' := by
  induction p with
  | ret a => trivial
  | act label write next ih => exact ⟨hcond label write hp.1, fun s => ih s (hp.2 s)⟩

/-- The invariant rule: what every step keeps, a run keeps. -/
theorem Every.run {P : σ → Prop} (hp : p.Every fun _ write => ∀ s, P s → P (write s)) :
    ∀ s, P s → P (p.run s).2 := by
  induction p with
  | ret a => exact fun _ hs => hs
  | act label write next ih => exact fun s hs => ih s (hp.2 s) (write s) (hp.1 s hs)

/-- A list of calls meets a condition when each of them does, from any variables. -/
theorem every_calls {τ : Type} {get : σ → τ} {put : σ → τ → σ} :
    ∀ {actions : List (ℓ × Interleave.Action ν τ)},
      (∀ action ∈ actions, ∀ v, cond action.1 fun s => put s (action.2 v (get s)).2) →
      ∀ v, (calls get put actions v).Every cond
  | [], _, _ => trivial
  | action :: _, h, v =>
    ⟨h action List.mem_cons_self v,
      fun _ => every_calls (fun a ha => h a (List.mem_cons_of_mem _ ha)) _⟩

theorem mayTake_bind (h : (p >>= f).MayTake target barrier) :
    p.MayTake target barrier ∨ ∃ a, (f a).MayTake target barrier := by
  induction p with
  | ret a => exact .inr ⟨a, h⟩
  | act label write next ih =>
    rcases h with htarget | ⟨hfree, s, h⟩
    · exact .inl (.inl htarget)
    · rcases ih s h with hp | hf
      · exact .inl (.inr ⟨hfree, s, hp⟩)
      · exact .inr hf

theorem Throughout.bind {here : Program ℓ σ α → Prop} {there : Program ℓ σ β → Prop}
    (hp : p.Throughout here) (hlift : ∀ q, here q → there (q >>= f))
    (hf : ∀ a, (f a).Throughout there) : (p >>= f).Throughout there := by
  induction p with
  | ret a => exact hf a
  | act label write next ih => exact ⟨hlift _ hp.1, fun s => ih s (hp.2 s)⟩

/-- A condition on the next step holds throughout when every step meets it. -/
theorem Every.throughout {here : Program ℓ σ α → Prop} (hp : p.Every cond)
    (hret : ∀ a, here (ret a))
    (hact : ∀ label write next, cond label write → here (act label write next)) :
    p.Throughout here := by
  induction p with
  | ret a => exact hret a
  | act label write next ih => exact ⟨hact label write next hp.1, fun s => ih s (hp.2 s)⟩

end

/-! ## Pools -/

variable {ι : Type} [DecidableEq ι]

/-- Programs over one shared state. -/
structure Pool (ι ℓ σ α : Type) where
  threads : ι → Program ℓ σ α
  shared : σ

namespace Pool

/-- Thread `i` takes its next step. One that has returned stays as it is. -/
def step (pool : Pool ι ℓ σ α) (i : ι) : Pool ι ℓ σ α :=
  match pool.threads i with
  | ret _ => pool
  | act _ write next =>
    { threads := Function.update pool.threads i (next pool.shared)
      shared := write pool.shared }

/-- A thread has returned, or it takes its next step and the others stand still. -/
theorem step_cases (pool : Pool ι ℓ σ α) (i : ι) :
    pool.step i = pool ∨ ∃ label write next, pool.threads i = act label write next ∧
      (pool.step i).shared = write pool.shared ∧
      (pool.step i).threads i = next pool.shared ∧
      ∀ j, j ≠ i → (pool.step i).threads j = pool.threads j := by
  cases h : pool.threads i with
  | ret a => exact .inl (by unfold step; rw [h])
  | act label write next =>
    refine .inr ⟨label, write, next, rfl, ?_⟩
    unfold step
    rw [h]
    exact ⟨rfl, Function.update_self .., fun j hj => Function.update_of_ne hj ..⟩

end Pool

end Program
