import Mathlib.Data.List.Nodup
import Mathlib.Data.List.Perm.Subperm
import Mathlib.Logic.Function.Basic
import Spoo.Lib.Run

/-!
# Agents over one shared state

An agent is a state machine, and each move of it is one atomic access to the shared state. A move
comes with what the outside answers it (the clock, a response), so that a run is a list of events:
who moves, and on which answer. An agent that is never again on the move has crashed.
-/

namespace Agents

/-- Agents with states `α` and what they share. -/
structure Pool (ι α σ : Type) where
  agents : ι → α
  shared : σ

/-- One move: who moves, the answer, the state of the agent and the shared one. -/
abbrev Move (ι ε α σ : Type) : Type := ι → ε → α → σ → α × σ

/-- The move, with a history that is written along: `record` sees the move and what it leads to. -/
def recorded {ι ε α σ η : Type} (record : ι → ε → α → σ → α × σ → η → η) (move : Move ι ε α σ) :
    Move ι ε α (σ × η) :=
  fun who answer agent s =>
    let moved := move who answer agent s.1
    (moved.1, moved.2, record who answer agent s.1 moved s.2)

namespace Pool

variable {ι α σ ε : Type} [DecidableEq ι] (move : Move ι ε α σ)

/-- An agent moves, and the others stand still. -/
def step (pool : Pool ι α σ) (event : ι × ε) : Pool ι α σ where
  agents := Function.update pool.agents event.1
    (move event.1 event.2 (pool.agents event.1) pool.shared).1
  shared := (move event.1 event.2 (pool.agents event.1) pool.shared).2

variable {move} {pool : Pool ι α σ} {event : ι × ε}

theorem shared_step : (pool.step move event).shared =
    (move event.1 event.2 (pool.agents event.1) pool.shared).2 := rfl

@[simp] theorem agents_step_same : (pool.step move event).agents event.1 =
    (move event.1 event.2 (pool.agents event.1) pool.shared).1 := Function.update_self ..

theorem agents_step_of_ne {j : ι} (h : j ≠ event.1) :
    (pool.step move event).agents j = pool.agents j := Function.update_of_ne h ..

/-- What holds of the agent that moves after its move, and of the others before it, holds of all after
it. -/
theorem forall_agents_step {Q : ι → α → Prop}
    (hown : Q event.1 (move event.1 event.2 (pool.agents event.1) pool.shared).1)
    (hothers : ∀ j, j ≠ event.1 → Q j (pool.agents j)) (i : ι) :
    Q i ((pool.step move event).agents i) := by
  by_cases hi : i = event.1
  · subst hi
    rw [agents_step_same]
    exact hown
  · rw [agents_step_of_ne hi]
    exact hothers i hi

/-- An assertion about the shared state, and one about each agent and the shared state. -/
structure Sound (I : σ → Prop) (L : ι → α → σ → Prop) (pool : Pool ι α σ) : Prop where
  shared : I pool.shared
  agents : ∀ i, L i (pool.agents i) pool.shared

variable {I : σ → Prop} {L : ι → α → σ → Prop}

/-- What a move has to show: the shared assertion is kept, so is the agent's own, and those of the
others do not mind. -/
structure Keeps (I : σ → Prop) (L : ι → α → σ → Prop) (i : ι) (s : σ) (moved : α × σ) : Prop where
  shared : I moved.2
  own : L i moved.1 moved.2
  others : ∀ j a, j ≠ i → L j a s → L j a moved.2

/-- What a move has to show of the agents as they are. -/
theorem sound_step (hshared : I (move event.1 event.2 (pool.agents event.1) pool.shared).2)
    (hown : L event.1 (move event.1 event.2 (pool.agents event.1) pool.shared).1
      (move event.1 event.2 (pool.agents event.1) pool.shared).2)
    (hothers : ∀ j, j ≠ event.1 →
      L j (pool.agents j) (move event.1 event.2 (pool.agents event.1) pool.shared).2) :
    (pool.step move event).Sound I L where
  shared := hshared
  agents := forall_agents_step (Q := fun j a => L j a _) hown hothers

theorem Sound.step (h : pool.Sound I L) (hkeeps : Keeps I L event.1 pool.shared
    (move event.1 event.2 (pool.agents event.1) pool.shared)) : (pool.step move event).Sound I L :=
  sound_step hkeeps.shared hkeeps.own fun j hj => hkeeps.others j _ hj (h.agents j)

/-- A relation between any two agents. -/
def Pairwise (R : α → α → Prop) (pool : Pool ι α σ) : Prop :=
  ∀ i j, i ≠ j → R (pool.agents i) (pool.agents j)

/-- It is kept when the agent that moves stays in it with all others. -/
theorem Pairwise.step {R : α → α → Prop} (hsymm : ∀ a b, R a b → R b a) (h : pool.Pairwise R)
    (hmoved : ∀ j, j ≠ event.1 →
      R (move event.1 event.2 (pool.agents event.1) pool.shared).1 (pool.agents j)) :
    (pool.step move event).Pairwise R := by
  intro i j hij
  by_cases hi : i = event.1
  · subst hi
    rw [agents_step_same, agents_step_of_ne (Ne.symm hij)]
    exact hmoved j (Ne.symm hij)
  · rw [agents_step_of_ne hi]
    by_cases hj : j = event.1
    · subst hj
      rw [agents_step_same]
      exact hsymm _ _ (hmoved i hi)
    · rw [agents_step_of_ne hj]
      exact h i j hij

/-- The rule for runs: the assertions hold in every state of a run whose moves keep them. -/
theorem Sound.forall_mem_scanl {guard : Pool ι α σ → ι × ε → Prop}
    (hkeeps : ∀ (pool : Pool ι α σ) (event : ι × ε), pool.Sound I L → guard pool event →
      Keeps I L event.1 pool.shared (move event.1 event.2 (pool.agents event.1) pool.shared))
    {events : List (ι × ε)} (h : pool.Sound I L) (hguard : Run.Guarded (Pool.step move) guard pool events) :
    ∀ t ∈ List.scanl (Pool.step move) pool events, t.Sound I L :=
  Run.forall_mem_scanl (fun pool event hsound hmay => hsound.step (hkeeps pool event hsound hmay)) h
    hguard

/-- The rule where every move keeps them. -/
theorem Sound.forall_mem_scanl_of_step
    (hkeeps : ∀ (pool : Pool ι α σ) (event : ι × ε), pool.Sound I L →
      Keeps I L event.1 pool.shared (move event.1 event.2 (pool.agents event.1) pool.shared))
    {events : List (ι × ε)} (h : pool.Sound I L) :
    ∀ t ∈ List.scanl (Pool.step move) pool events, t.Sound I L :=
  Run.forall_mem_scanl_of_step (fun pool event hsound => hsound.step (hkeeps pool event hsound)) h

/-! ### Tokens -/

/-- What the agents hold, and what was spent of it: no token is held twice, or held and spent, or spent
twice. -/
structure Tokens {κ : Type} (held : α → List κ) (spent : σ → List κ) (pool : Pool ι α σ) : Prop where
  once : (spent pool.shared).Nodup
  nodup : ∀ i, (held (pool.agents i) ++ spent pool.shared).Nodup
  disjoint : pool.Pairwise fun a b => List.Disjoint (held a) (held b)

/-- An agent may get new tokens, spend some that it has, and drop some. -/
theorem Tokens.step {κ : Type} {held : α → List κ} {spent : σ → List κ} (h : pool.Tokens held spent)
    {fresh : List κ} (hnodup : fresh.Nodup)
    (hfresh : ∀ key ∈ fresh, (∀ i, key ∉ held (pool.agents i)) ∧ key ∉ spent pool.shared)
    (hmoved : (held (move event.1 event.2 (pool.agents event.1) pool.shared).1 ++
        spent (move event.1 event.2 (pool.agents event.1) pool.shared).2).Subperm
      (fresh ++ (held (pool.agents event.1) ++ spent pool.shared))) :
    (pool.step move event).Tokens held spent := by
  have hmover : (held (move event.1 event.2 (pool.agents event.1) pool.shared).1 ++
      spent (move event.1 event.2 (pool.agents event.1) pool.shared).2).Nodup := by
    obtain ⟨left, hperm, hsublist⟩ := hmoved
    refine hperm.nodup_iff.1 ((hnodup.append (h.nodup event.1) fun key hnew hold => ?_).sublist hsublist)
    rcases List.mem_append.1 hold with hheld | hspent
    · exact (hfresh key hnew).1 event.1 hheld
    · exact (hfresh key hnew).2 hspent
  -- What the others hold is neither new nor was it held or spent.
  have hothers (j : ι) (hj : j ≠ event.1) (key : κ) (hkey : key ∈ held (pool.agents j)) :
      key ∉ held (move event.1 event.2 (pool.agents event.1) pool.shared).1 ++
        spent (move event.1 event.2 (pool.agents event.1) pool.shared).2 := by
    intro hmem
    have hsource := hmoved.subset hmem
    rw [List.mem_append, List.mem_append] at hsource
    rcases hsource with hnew | hown | hspent
    · exact (hfresh key hnew).1 j hkey
    · exact h.disjoint j event.1 hj hkey hown
    · exact (List.nodup_append.1 (h.nodup j)).2.2 key hkey key hspent rfl
  have hspent := (List.nodup_append.1 hmover).2.1
  refine ⟨hspent, ?_, ?_⟩
  · refine forall_agents_step (Q := fun _ agent => (held agent ++ _).Nodup) hmover fun j hj => ?_
    refine (List.nodup_append.1 (h.nodup j)).1.append hspent fun key hheld hmem => ?_
    exact hothers j hj key hheld (List.mem_append_right _ hmem)
  · refine h.disjoint.step (R := fun a b => List.Disjoint (held a) (held b))
      (fun _ _ hab key hb ha => hab ha hb) fun j hj key hown hheld => ?_
    exact hothers j hj key hheld (List.mem_append_left _ hown)

end Pool

/-! ### Unseen writes -/

/-- What the others have written, by key, since an agent last looked. -/
abbrev Unseen (ι κ : Type) : Type := ι → κ → Bool

variable {ι κ α σ : Type} [DecidableEq ι]

/-- The others have not seen what an agent writes, and it has seen all that they wrote if it looks. -/
def Unseen.after (unseen : Unseen ι κ) (who : ι) (looks : Bool) (writes : κ → Bool) : Unseen ι κ :=
  fun i key => if i = who then !looks && unseen i key else writes key || unseen i key

/-- What an agent relies on holds for every key of which it has seen all writes. -/
def Relies (R : κ → α → σ → Prop) (unseen : Unseen ι κ) (i : ι) (a : α) (s : σ) : Prop :=
  ∀ key, unseen i key = false → R key a s

variable {R : κ → α → σ → Prop} {unseen : Unseen ι κ} {who : ι} {a : α} {s : σ} {looks : Bool}
  {writes : κ → Bool}

/-- An agent that moves relies on what it has just looked at, or goes on relying on what it has seen. -/
theorem Relies.after {moved : α × σ} (h : Relies R unseen who a s)
    (hlooks : looks = true → ∀ key, R key moved.1 moved.2)
    (hkeeps : ∀ key, R key a s → R key moved.1 moved.2) :
    Relies R (unseen.after who looks writes) who moved.1 moved.2 := by
  intro key hseen
  simp only [Unseen.after, if_true, Bool.and_eq_false_iff, Bool.not_eq_false'] at hseen
  rcases hseen with hlook | hseen
  · exact hlooks hlook key
  · exact hkeeps key (h key hseen)

/-- The others rely on what no write of the agent is about. -/
theorem Relies.after_of_ne {j : ι} {b : α} {s' : σ} (hne : j ≠ who) (h : Relies R unseen j b s)
    (hkeeps : ∀ key, writes key = false → R key b s → R key b s') :
    Relies R (unseen.after who looks writes) j b s' := by
  intro key hseen
  simp only [Unseen.after, if_neg hne, Bool.or_eq_false_iff] at hseen
  exact hkeeps key hseen.1 (h key hseen.2)

end Agents
