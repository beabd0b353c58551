import Mathlib.Logic.Function.Basic
import Spoo.Lib.Run

/-!
# Interleaved processes

Processes over one shared state. A process is a list of atomic actions it still has to take,
each on its own variables and the shared state; a schedule says which process moves next.
Sequential execution is the schedule of one process alone.
-/

namespace Interleave

/-- An atomic action of a process with variables `ν` on a shared state `σ`. -/
abbrev Action (ν σ : Type) : Type := ν → σ → ν × σ

/-- Take the actions one after the other. -/
def runActions {ν σ : Type} (actions : List (Action ν σ)) (v : ν) (s : σ) : ν × σ :=
  actions.foldl (fun vs action => action vs.1 vs.2) (v, s)

@[simp] theorem runActions_nil {ν σ : Type} (v : ν) (s : σ) : runActions [] v s = (v, s) := rfl

@[simp] theorem runActions_cons {ν σ : Type} (action : Action ν σ)
    (actions : List (Action ν σ)) (v : ν) (s : σ) :
    runActions (action :: actions) v s =
      runActions actions (action v s).1 (action v s).2 := rfl

/-- What every action keeps, on any variables, a sequence of actions keeps. -/
theorem runActions_invariant {ν σ : Type} {P : σ → Prop} :
    ∀ {actions : List (Action ν σ)}, (∀ action ∈ actions, ∀ v s, P s → P (action v s).2) →
      ∀ (v : ν) (s : σ), P s → P (runActions actions v s).2
  | [], _, _, _, hs => hs
  | action :: _, hact, v, s, hs =>
    runActions_invariant (fun a ha => hact a (List.mem_cons_of_mem _ ha)) _ _
      (hact action List.mem_cons_self v s hs)

/-! ## What remaining actions can do -/

section

variable {ν σ α : Type}

/-- No action changes the part `f` of the shared state. -/
def Frames (f : σ → α) (actions : List (Action ν σ)) : Prop :=
  ∀ action ∈ actions, ∀ v s, f (action v s).2 = f s

/-- The actions, taken in order from the variables `v`, keep `P` as long as nobody else breaks
it in between. -/
def Keeps (P : σ → Prop) : List (Action ν σ) → ν → Prop
  | [], _ => True
  | action :: rest, v => ∀ s, P s → P (action v s).2 ∧ Keeps P rest (action v s).1

variable {f : σ → α} {P : α → Prop} {action : Action ν σ} {rest : List (Action ν σ)}

theorem Frames.head (h : Frames f (action :: rest)) (v : ν) (s : σ) :
    f (action v s).2 = f s := h action List.mem_cons_self v s

theorem Frames.tail (h : Frames f (action :: rest)) : Frames f rest :=
  fun a ha => h a (List.mem_cons_of_mem _ ha)

theorem Frames.drop {actions : List (Action ν σ)} (h : Frames f actions) (n : Nat) :
    Frames f (actions.drop n) := fun a ha => h a (List.mem_of_mem_drop ha)

theorem Frames.keeps : ∀ {actions : List (Action ν σ)}, Frames f actions → ∀ v,
    Keeps (fun s => P (f s)) actions v
  | [], _, _ => trivial
  | action :: _, h, v => fun s hs =>
    ⟨show P (f (action v s).2) by rw [h.head]; exact hs, Frames.keeps h.tail (action v s).1⟩

/-- One action that keeps `P`, and after it only ones that do not touch the part it is
about. -/
theorem keeps_cons_of_frames (hrest : Frames f rest) {v : ν}
    (haction : ∀ s, P (f s) → P (f (action v s).2)) :
    Keeps (fun s => P (f s)) (action :: rest) v := fun s hs =>
  ⟨haction s hs, hrest.keeps (action v s).1⟩

end

/-- A process: its variables and the actions it still has to take. -/
structure Process (ν σ : Type) where
  vars : ν
  todo : List (Action ν σ)

/-- Take the next action. A process with nothing to do stays as it is. -/
def Process.step {ν σ : Type} (p : Process ν σ) (s : σ) : Process ν σ × σ :=
  match p.todo with
  | [] => (p, s)
  | action :: rest => (⟨(action p.vars s).1, rest⟩, (action p.vars s).2)

theorem Process.step_cons {ν σ : Type} (action : Action ν σ) (rest : List (Action ν σ)) (v : ν)
    (s : σ) : (⟨v, action :: rest⟩ : Process ν σ).step s =
      (⟨(action v s).1, rest⟩, (action v s).2) := rfl

/-- A process goes on with its actions. -/
theorem Process.todo_step_suffix {ν σ : Type} (p : Process ν σ) (s : σ) :
    (p.step s).1.todo <:+ p.todo := by
  unfold step
  split
  · exact List.suffix_rfl
  · rename_i action rest htodo
    rw [htodo]
    exact List.suffix_cons action rest

/-- A process with nothing left to do. -/
def Process.Finished {ν σ : Type} (p : Process ν σ) : Prop := p.todo = []

theorem Process.Finished.step_eq {ν σ : Type} {p : Process ν σ} (h : p.Finished) (s : σ) :
    p.step s = (p, s) := by
  unfold step
  split
  · rfl
  · rename_i htodo
    rw [Finished, htodo] at h
    cases h

/-- When the part `f` of the state is `a`, the process will leave `P` behind: its next action
makes it true and the later ones do not touch the part, or it holds and the process keeps it. -/
def Process.Settles {ν σ α : Type} (f : σ → α) (a : α) (P : α → Prop) (p : Process ν σ) :
    Prop :=
  (∃ action rest, p.todo = action :: rest ∧ Frames f rest ∧
    ∀ s, f s = a → P (f (action p.vars s).2)) ∨
  P a ∧ Keeps (fun s => P (f s)) p.todo p.vars

variable {ι : Type} [DecidableEq ι] {ν : ι → Type} {σ : Type}

/-- Processes over one shared state. -/
structure System (ν : ι → Type) (σ : Type) where
  procs : ∀ i, Process (ν i) σ
  shared : σ

namespace System

/-- Process `i` takes its next action. -/
def step (sys : System ν σ) (i : ι) : System ν σ where
  procs := Function.update sys.procs i ((sys.procs i).step sys.shared).1
  shared := ((sys.procs i).step sys.shared).2

/-- The processes move in the order of the schedule. -/
def run (sys : System ν σ) (schedule : List ι) : System ν σ := schedule.foldl step sys

/-- Every process has finished. -/
def Finished (sys : System ν σ) : Prop := ∀ i, (sys.procs i).Finished

@[simp] theorem run_cons (sys : System ν σ) (i : ι) (schedule : List ι) :
    sys.run (i :: schedule) = (sys.step i).run schedule := rfl

theorem run_append (sys : System ν σ) (before after : List ι) :
    sys.run (before ++ after) = (sys.run before).run after := List.foldl_append

@[simp] theorem procs_step_same (sys : System ν σ) (i : ι) :
    (sys.step i).procs i = ((sys.procs i).step sys.shared).1 := by
  simp [step]

theorem procs_step_of_ne (sys : System ν σ) {i j : ι} (h : j ≠ i) :
    (sys.step i).procs j = sys.procs j := by
  simp [step, h]

/-- What a process still has to do depends on its own moves only. -/
theorem todo_run (schedule : List ι) (sys : System ν σ) (i : ι) :
    ((sys.run schedule).procs i).todo = (sys.procs i).todo.drop (schedule.count i) := by
  induction schedule generalizing sys with
  | nil => rfl
  | cons j schedule ih =>
    rw [run_cons, ih]
    by_cases hj : j = i
    · subst hj
      rw [procs_step_same, List.count_cons_self]
      unfold Process.step
      split
      · rename_i htodo
        rw [htodo, List.drop_nil, List.drop_nil]
      · rename_i htodo
        rw [htodo, List.drop_succ_cons]
    · rw [procs_step_of_ne sys (Ne.symm hj), List.count_cons_of_ne hj]

section

variable {α : Type} {f : σ → α} {i : ι}

private theorem frames_step {sys : System ν σ} {j : ι} (k : ι)
    (h : Frames f (sys.procs j).todo) : Frames f ((sys.step k).procs j).todo := by
  by_cases hk : j = k
  · subst hk
    rw [procs_step_same]
    unfold Process.step
    split
    · exact h
    · rename_i htodo
      rw [htodo] at h
      exact h.tail
  · rw [procs_step_of_ne sys hk]
    exact h

private theorem shared_step_of_frames {sys : System ν σ} {j : ι}
    (h : Frames f (sys.procs j).todo) : f (sys.step j).shared = f sys.shared := by
  unfold step Process.step
  split
  · rfl
  · rename_i htodo
    rw [htodo] at h
    exact h.head _ _

/-- While the other processes do not touch a part of the state, a process that keeps an
assertion about it keeps it under every schedule. -/
theorem run_keeps {P : α → Prop} (schedule : List ι) {sys : System ν σ}
    (hothers : ∀ j, j ≠ i → Frames f (sys.procs j).todo)
    (hkeeps : Keeps (fun s => P (f s)) (sys.procs i).todo (sys.procs i).vars)
    (hs : P (f sys.shared)) : P (f (sys.run schedule).shared) := by
  induction schedule generalizing sys with
  | nil => exact hs
  | cons j schedule ih =>
    rw [run_cons]
    by_cases hj : j = i
    · subst hj
      have hnext : P (f (sys.step j).shared) ∧ Keeps (fun s => P (f s))
          ((sys.step j).procs j).todo ((sys.step j).procs j).vars := by
        rw [procs_step_same]
        unfold step Process.step
        split
        · exact ⟨hs, hkeeps⟩
        · rename_i htodo
          rw [htodo] at hkeeps
          exact hkeeps sys.shared hs
      exact ih (fun k hk => frames_step j (hothers k hk)) hnext.2 hnext.1
    · refine ih (fun k hk => frames_step j (hothers k hk)) ?_ ?_
      · rw [procs_step_of_ne sys (Ne.symm hj)]
        exact hkeeps
      · rw [shared_step_of_frames (hothers j hj)]
        exact hs

/-- While the other processes do not touch a part of the state, the next action of a process
finds that part as it is now, and what it makes of it is what is there when all are done. -/
theorem run_takes {P : α → Prop} (schedule : List ι) {sys : System ν σ}
    {action : Action (ν i) σ} {rest : List (Action (ν i) σ)}
    (hothers : ∀ j, j ≠ i → Frames f (sys.procs j).todo)
    (htodo : (sys.procs i).todo = action :: rest) (hrest : Frames f rest)
    (haction : ∀ s, f s = f sys.shared → P (f (action (sys.procs i).vars s).2))
    (hfinished : (sys.run schedule).Finished) : P (f (sys.run schedule).shared) := by
  induction schedule generalizing sys with
  | nil =>
    have hdone : (sys.procs i).todo = [] := hfinished i
    rw [htodo] at hdone
    cases hdone
  | cons j schedule ih =>
    rw [run_cons] at hfinished ⊢
    by_cases hj : j = i
    · subst hj
      have hproc : (sys.step j).procs j = ⟨(action (sys.procs j).vars sys.shared).1, rest⟩ := by
        rw [procs_step_same, Process.step, htodo]
      have hshared : (sys.step j).shared = (action (sys.procs j).vars sys.shared).2 := by
        rw [step, Process.step, htodo]
      refine run_keeps (i := j) schedule (fun k hk => frames_step j (hothers k hk)) ?_ ?_
      · rw [hproc]
        exact hrest.keeps _
      · rw [hshared]
        exact haction sys.shared rfl
    · have hproc : (sys.step j).procs i = sys.procs i := procs_step_of_ne sys (Ne.symm hj)
      refine ih (fun k hk => frames_step j (hothers k hk)) (hproc ▸ htodo) (fun s hs => ?_)
        hfinished
      rw [hproc]
      exact haction s (hs.trans (shared_step_of_frames (hothers j hj)))

theorem run_settles {P : α → Prop} (schedule : List ι) {sys : System ν σ}
    (hothers : ∀ j, j ≠ i → Frames f (sys.procs j).todo)
    (hsettles : (sys.procs i).Settles f (f sys.shared) P)
    (hfinished : (sys.run schedule).Finished) : P (f (sys.run schedule).shared) := by
  rcases hsettles with ⟨action, rest, htodo, hrest, haction⟩ | ⟨hs, hkeeps⟩
  · exact run_takes schedule hothers htodo hrest haction hfinished
  · exact run_keeps schedule hothers hkeeps hs

end

/-- While the other processes only read, a process runs as if it were alone. -/
theorem run_of_reads (schedule : List ι) {sys : System ν σ} {i : ι}
    (hreads : ∀ j, j ≠ i → Frames id ((sys.procs j).todo.take (schedule.count j))) :
    (((sys.run schedule).procs i).vars, (sys.run schedule).shared) =
      runActions ((sys.procs i).todo.take (schedule.count i)) (sys.procs i).vars sys.shared := by
  induction schedule generalizing sys with
  | nil => rfl
  | cons j schedule ih =>
    rw [run_cons]
    by_cases hj : j = i
    · subst hj
      have hothers : ∀ k, k ≠ j →
          Frames id (((sys.step j).procs k).todo.take (schedule.count k)) := by
        intro k hk
        have h := hreads k hk
        rw [List.count_cons_of_ne hk.symm] at h
        rw [procs_step_of_ne sys hk]
        exact h
      rw [ih hothers, procs_step_same, List.count_cons_self]
      unfold step Process.step
      split
      · rename_i htodo
        rw [htodo, List.take_nil, List.take_nil]
      · rename_i htodo
        rw [htodo, List.take_succ_cons, runActions_cons]
    · have hread := hreads j hj
      rw [List.count_cons_self] at hread
      have hshared : (sys.step j).shared = sys.shared := by
        unfold step Process.step
        split
        · rfl
        · rename_i htodo
          rw [htodo, List.take_succ_cons] at hread
          exact hread.head _ _
      have hothers : ∀ k, k ≠ i →
          Frames id (((sys.step j).procs k).todo.take (schedule.count k)) := by
        intro k hk
        by_cases hkj : k = j
        · subst hkj
          rw [procs_step_same]
          unfold Process.step
          split
          · rename_i htodo
            rw [htodo, List.take_nil]
            exact fun _ h => absurd h List.not_mem_nil
          · rename_i htodo
            rw [htodo, List.take_succ_cons] at hread
            exact hread.tail
        · have h := hreads k hk
          rw [List.count_cons_of_ne (Ne.symm hkj)] at h
          rw [procs_step_of_ne sys hkj]
          exact h
      rw [ih hothers, procs_step_of_ne sys (Ne.symm hj), List.count_cons_of_ne hj, hshared]

/-- An assertion about each process alone and one about the shared state, which a guarded move of a
process keeps. The others' moves do not touch what is asserted about a process, so that the two hold
in every state of a guarded run. -/
theorem forall_mem_scanl {L : ∀ i, Process (ν i) σ → Prop} {P : σ → Prop}
    {guard : System ν σ → ι → Prop}
    (hmove : ∀ sys i, L i (sys.procs i) → P sys.shared → guard sys i →
      L i ((sys.procs i).step sys.shared).1 ∧ P ((sys.procs i).step sys.shared).2)
    {schedule : List ι} {sys : System ν σ} (hlocal : ∀ i, L i (sys.procs i)) (hshared : P sys.shared)
    (hguard : Run.Guarded step guard sys schedule) :
    ∀ t ∈ List.scanl step sys schedule, P t.shared := by
  have hstep : ∀ (sys : System ν σ) i, ((∀ j, L j (sys.procs j)) ∧ P sys.shared) → guard sys i →
      (∀ j, L j ((sys.step i).procs j)) ∧ P (sys.step i).shared := by
    rintro sys i ⟨hlocal, hshared⟩ hmay
    obtain ⟨hmoved, hkept⟩ := hmove sys i (hlocal i) hshared hmay
    refine ⟨fun j => ?_, hkept⟩
    by_cases hj : j = i
    · subst hj
      rw [procs_step_same]
      exact hmoved
    · rw [procs_step_of_ne sys hj]
      exact hlocal j
  intro t ht
  exact (Run.forall_mem_scanl hstep ⟨hlocal, hshared⟩ hguard t ht).2

end System

end Interleave
