import Spoo.Lib.Interleave

/-!
# Copies that processes owe

The shared state keeps copies under keys, and the processes change what they are copies of. A
process that makes a copy wrong owes a new one: it clears the copy later, or writes it again. As
long as every wrong copy is owed, all copies are right once the processes have finished.
-/

namespace Interleave

/-! ## Debts -/

section

variable {σ κ α : Type}

/-- A move from `s` to `s'` of a process that owes the copies `owed` before it and `owed'` after it:
a copy that it leaves wrong is owed, unless the copy was wrong before and not owed by this process. -/
def Renews (copy : σ → κ → Option α) (right : σ → κ → α → Prop) (others owed owed' : κ → Prop)
    (s s' : σ) : Prop :=
  ∀ key a, copy s' key = some a → right s' key a ∨ owed' key ∨ others key ∨
    copy s key = some a ∧ ¬right s key a ∧ ¬owed key

variable {copy : σ → κ → Option α} {right : σ → κ → α → Prop} {others owed owed' : κ → Prop}
  {s s' : σ}

/-- A move that writes no copy, keeps the right ones right and pays only for those that are not
there or right. -/
theorem Renews.of_kept (hcopy : ∀ key a, copy s' key = some a → copy s key = some a)
    (hright : ∀ key a, copy s' key = some a → right s key a →
      right s' key a ∨ owed' key ∨ others key)
    (howed : ∀ key a, copy s' key = some a → owed key →
      right s' key a ∨ owed' key ∨ others key) :
    Renews copy right others owed owed' s s' := by
  intro key a ha
  by_cases hkey : right s key a
  · exact (hright key a ha hkey).imp id fun h => h.imp id .inl
  · by_cases hdebt : owed key
    · exact (howed key a ha hdebt).imp id fun h => h.imp id .inl
    · exact .inr (.inr (.inr ⟨hcopy key a ha, hkey, hdebt⟩))

end

namespace System

section

variable {ι : Type} [DecidableEq ι] {ν : ι → Type} {σ κ α : Type}
  (copy : σ → κ → Option α) (right : σ → κ → α → Prop)
  (owes : ∀ i, Process (ν i) σ → κ → Prop)

/-- Another process than `i` owes the copy under the key. -/
def OwedByOthers (sys : System ν σ) (i : ι) (key : κ) : Prop :=
  ∃ j, j ≠ i ∧ owes j (sys.procs j) key

/-- Every copy is right, or some process owes it. -/
def Renewed (sys : System ν σ) : Prop :=
  ∀ key a, copy sys.shared key = some a → right sys.shared key a ∨ ∃ i, owes i (sys.procs i) key

variable {copy right owes} {sys : System ν σ}

theorem Renewed.step {i : ι} (h : sys.Renewed copy right owes)
    (hmove : Renews copy right (sys.OwedByOthers owes i) (owes i (sys.procs i))
      (owes i ((sys.procs i).step sys.shared).1) sys.shared ((sys.procs i).step sys.shared).2) :
    (sys.step i).Renewed copy right owes := by
  intro key a ha
  have others (j : ι) (hj : j ≠ i) (howes : owes j (sys.procs j) key) :
      ∃ k, owes k ((sys.step i).procs k) key := by
    refine ⟨j, ?_⟩
    rw [procs_step_of_ne sys hj]
    exact howes
  rcases hmove key a ha with hright | howes | ⟨j, hj, howes⟩ | ⟨hold, hwrong, hfree⟩
  · exact .inl hright
  · refine .inr ⟨i, ?_⟩
    rw [procs_step_same]
    exact howes
  · exact .inr (others j hj howes)
  · obtain ⟨j, howes⟩ := (h key a hold).resolve_left hwrong
    have hj : j ≠ i := by
      rintro rfl
      exact hfree howes
    exact .inr (others j hj howes)

/-- The rule for runs: as long as every move renews what it owes, given how far the process has
come, every wrong copy is owed. -/
theorem Renewed.run {L : ∀ i, Process (ν i) σ → Prop} {careful : System ν σ → ι → Prop}
    (hlocal : ∀ i p s, L i p → L i (p.step s).1)
    (hmove : ∀ sys i, L i (sys.procs i) → careful sys i →
      Renews copy right (sys.OwedByOthers owes i) (owes i (sys.procs i))
        (owes i ((sys.procs i).step sys.shared).1) sys.shared ((sys.procs i).step sys.shared).2)
    {schedule : List ι} (hstart : ∀ i, L i (sys.procs i)) (h : sys.Renewed copy right owes)
    (hguard : Run.Guarded System.step careful sys schedule) :
    (sys.run schedule).Renewed copy right owes := by
  have hstep : ∀ (sys : System ν σ) i,
      ((∀ j, L j (sys.procs j)) ∧ sys.Renewed copy right owes) → careful sys i →
        (∀ j, L j ((sys.step i).procs j)) ∧ (sys.step i).Renewed copy right owes := by
    rintro sys i ⟨hunder, hrenewed⟩ hmay
    refine ⟨fun j => ?_, hrenewed.step (hmove sys i (hunder i) hmay)⟩
    by_cases hj : j = i
    · subst hj
      rw [procs_step_same]
      exact hlocal j _ _ (hunder j)
    · rw [procs_step_of_ne sys hj]
      exact hunder j
  exact (Run.foldl_invariant hstep ⟨hstart, h⟩ hguard).2

omit [DecidableEq ι] in
/-- Once all processes have finished and owe nothing, every copy is right. -/
theorem Renewed.right_of_free (h : sys.Renewed copy right owes)
    (hfree : ∀ i key, ¬owes i (sys.procs i) key) {key : κ} {a : α}
    (ha : copy sys.shared key = some a) : right sys.shared key a :=
  (h key a ha).resolve_right fun ⟨i, howes⟩ => hfree i key howes

end

end System

/-! ## Clearing -/

section

variable {ν σ κ α : Type} (copy : σ → κ → Option α) (key : κ)

/-- The actions, taken in order from the variables `v`, clear the copy under the key, whatever
the others do in between. -/
def Clears : List (Action ν σ) → ν → Prop
  | [], _ => False
  | action :: rest, v => ∀ s, copy (action v s).2 key = none ∨ Clears rest (action v s).1

/-- The process has still to clear the copy under the key. -/
def Process.Clears (p : Process ν σ) : Prop := Interleave.Clears copy key p.todo p.vars

variable {copy key} {action : Action ν σ} {rest : List (Action ν σ)} {v : ν}

theorem clears_head (h : ∀ s, copy (action v s).2 key = none) :
    Clears copy key (action :: rest) v := fun s => .inl (h s)

theorem clears_tail (h : ∀ s, Clears copy key rest (action v s).1) :
    Clears copy key (action :: rest) v := fun s => .inr (h s)

/-- A move clears the copy or leaves that to the later ones. -/
theorem Process.Clears.step {p : Process ν σ} (h : p.Clears copy key) (s : σ) :
    copy (p.step s).2 key = none ∨ (p.step s).1.Clears copy key := by
  unfold Clears at h
  unfold Process.step
  split
  · rename_i htodo
    rw [htodo] at h
    exact h.elim
  · rename_i htodo
    rw [htodo] at h
    exact h s

theorem Process.Finished.not_clears {p : Process ν σ} (h : p.Finished) :
    ¬p.Clears copy key := by
  unfold Clears
  rw [show p.todo = [] from h]
  exact id

end

namespace System

variable {ι : Type} [DecidableEq ι] {ν : ι → Type} {σ κ α : Type}
  (copy : σ → κ → Option α) (right : σ → κ → α → Prop)

/-- Some process has still to clear the copy under the key. -/
def Awaits (sys : System ν σ) (key : κ) : Prop := ∃ i, (sys.procs i).Clears copy key

/-- There is a copy under the key, and no process is going to clear it. -/
def Exposed (sys : System ν σ) (key : κ) : Prop :=
  (copy sys.shared key).isSome ∧ ¬sys.Awaits copy key

/-- Every copy is right, or some process has still to clear it. -/
def Settled (sys : System ν σ) : Prop :=
  ∀ key a, copy sys.shared key = some a → right sys.shared key a ∨ sys.Awaits copy key

variable {copy right} {sys : System ν σ} {i : ι} {key : κ}

theorem Awaits.step (h : sys.Awaits copy key) (i : ι) :
    copy (sys.step i).shared key = none ∨ (sys.step i).Awaits copy key := by
  obtain ⟨j, hclears⟩ := h
  by_cases hj : j = i
  · subst hj
    refine (hclears.step sys.shared).imp id fun hnext => ⟨j, ?_⟩
    rw [procs_step_same]
    exact hnext
  · refine .inr ⟨j, ?_⟩
    rw [procs_step_of_ne sys hj]
    exact hclears

/-- A copy that is not exposed before a move needs no care: it is gone afterwards, or some process
has still to clear it. -/
theorem not_exposed_step (h : ¬sys.Exposed copy key)
    (hkept : ∀ a, copy (sys.step i).shared key = some a → copy sys.shared key = some a) :
    copy (sys.step i).shared key = none ∨ (sys.step i).Awaits copy key := by
  by_cases hawaits : sys.Awaits copy key
  · exact hawaits.step i
  · refine .inl (Option.eq_none_iff_forall_ne_some.2 fun a ha => h ⟨?_, hawaits⟩)
    rw [hkept a ha]
    rfl

omit [DecidableEq ι] in
/-- Once all processes have finished, every copy is right. -/
theorem Settled.right_of_finished (h : sys.Settled copy right) (hfinished : sys.Finished)
    {a : α} (ha : copy sys.shared key = some a) : right sys.shared key a := by
  refine (h key a ha).resolve_right ?_
  rintro ⟨i, hclears⟩
  exact (hfinished i).not_clears hclears

end System

/-! ## Careful moves -/

section

variable {ν σ κ α : Type}

/-- What `safe` may be taken for after the move of a process: nothing is left under the key, or some
process has still to clear it. -/
structure SafeAfter (copy : σ → κ → Option α) (exposed awaited safe : κ → Prop)
    (p : Process ν σ) (s : σ) : Prop where
  clears : ∀ key, (p.step s).1.Clears copy key → safe key
  awaited : ∀ key, awaited key → safe key
  hidden : ∀ key, ¬exposed key →
    (∀ a, copy (p.step s).2 key = some a → copy s key = some a) → safe key

/-- A move from `s` to `s'` writes no wrong copy and makes none wrong, but under keys that are
`safe`. -/
structure Leaves (copy : σ → κ → Option α) (right : σ → κ → α → Prop) (safe : κ → Prop)
    (s s' : σ) : Prop where
  written : ∀ key a, copy s' key = some a → copy s key = some a ∨ right s' key a ∨ safe key
  kept : ∀ key a, right s key a → right s' key a ∨ safe key

variable {copy : σ → κ → Option α} {right : σ → κ → α → Prop} {safe : κ → Prop} {s s' : σ}

section

variable {exposed awaited : κ → Prop} {action : Action ν σ} {rest : List (Action ν σ)} {v : ν}
  {key : κ}

/-- The key is safe after an action if the later ones clear it. -/
theorem SafeAfter.of_clears (h : SafeAfter copy exposed awaited safe ⟨v, action :: rest⟩ s)
    (hclears : Clears copy key rest (action v s).1) : safe key := h.clears key hclears

/-- Or if it was not exposed and the action writes no copy. -/
theorem SafeAfter.of_hidden (h : SafeAfter copy exposed awaited safe ⟨v, action :: rest⟩ s)
    (hhidden : ¬exposed key)
    (hkept : ∀ a, copy (action v s).2 key = some a → copy s key = some a) : safe key :=
  h.hidden key hhidden hkept

/-- An action that writes no copy needs care only where the copy is exposed. -/
theorem SafeAfter.of_exposed (h : SafeAfter copy exposed awaited safe ⟨v, action :: rest⟩ s)
    (hkept : ∀ a, copy (action v s).2 key = some a → copy s key = some a)
    (hcleared : exposed key → Clears copy key rest (action v s).1) : safe key := by
  by_cases hshown : exposed key
  · exact h.of_clears (hcleared hshown)
  · exact h.of_hidden hshown hkept

end

theorem Leaves.of_eq (h : s' = s) : Leaves copy right safe s s' := by
  subst h
  exact ⟨fun _ _ => .inl, fun _ _ => .inl⟩

/-- A move that only clears copies. -/
theorem Leaves.of_clears (hcopy : ∀ key a, copy s' key = some a → copy s key = some a)
    (hright : ∀ key a, right s key a → right s' key a) : Leaves copy right safe s s' :=
  ⟨fun key a ha => .inl (hcopy key a ha), fun key a ha => .inl (hright key a ha)⟩

end

namespace System

variable {ι : Type} [DecidableEq ι] {ν : ι → Type} {σ κ α : Type}
  {copy : σ → κ → Option α} {right : σ → κ → α → Prop} {sys : System ν σ}

/-- A process that clears what it owes renews what a careful move leaves. -/
theorem renews_of_leaves {i : ι} (h : Leaves copy right (fun key =>
      copy (sys.step i).shared key = none ∨ (sys.step i).Awaits copy key)
    sys.shared ((sys.procs i).step sys.shared).2) :
    Renews copy right (sys.OwedByOthers (fun _ p key => p.Clears copy key) i)
      ((sys.procs i).Clears copy) (((sys.procs i).step sys.shared).1.Clears copy) sys.shared
      ((sys.procs i).step sys.shared).2 := by
  intro key a ha
  have awaits (hsafe : copy (sys.step i).shared key = none ∨ (sys.step i).Awaits copy key) :
      ((sys.procs i).step sys.shared).1.Clears copy key ∨
        sys.OwedByOthers (fun _ p key => p.Clears copy key) i key := by
    obtain ⟨j, hclears⟩ := hsafe.resolve_left fun hnone => nomatch ha.symm.trans hnone
    by_cases hj : j = i
    · subst hj
      rw [procs_step_same] at hclears
      exact .inl hclears
    · rw [procs_step_of_ne sys hj] at hclears
      exact .inr ⟨j, hj, hclears⟩
  rcases h.written key a ha with hold | hnew | hsafe
  · by_cases hright : right sys.shared key a
    · exact (h.kept key a hright).imp id fun hsafe => (awaits hsafe).imp id .inl
    · by_cases hclears : (sys.procs i).Clears copy key
      · rcases hclears.step sys.shared with hnone | hlater
        · exact nomatch ha.symm.trans hnone
        · exact .inr (.inl hlater)
      · exact .inr (.inr (.inr ⟨hold, hright, hclears⟩))
  · exact .inl hnew
  · exact .inr ((awaits hsafe).imp id .inl)

/-- The rule for runs: as long as each process is careful about its next move, given how far it has
come, every wrong copy waits for a process that clears it. -/
theorem Settled.run {L : ∀ i, Process (ν i) σ → Prop}
    {careful : (κ → Prop) → (κ → Prop) → σ → ∀ i, Process (ν i) σ → Prop}
    (hlocal : ∀ i p s, L i p → L i (p.step s).1)
    (hmove : ∀ i p s exposed awaited safe, L i p → careful exposed awaited s i p →
      SafeAfter copy exposed awaited safe p s → Leaves copy right safe s (p.step s).2)
    {schedule : List ι} (hstart : ∀ i, L i (sys.procs i)) (h : sys.Settled copy right)
    (hguard : Run.Guarded System.step (fun sys i =>
      careful (sys.Exposed copy) (sys.Awaits copy) sys.shared i (sys.procs i)) sys schedule) :
    (sys.run schedule).Settled copy right := by
  have hrenewed : sys.Renewed copy right fun _ p key => p.Clears copy key := h
  refine Renewed.run hlocal (fun sys i hunder hmay => renews_of_leaves ?_) hstart hrenewed hguard
  refine hmove i _ _ _ _ _ hunder hmay ⟨fun key hclears => .inr ⟨i, ?_⟩,
    fun key hawaits => hawaits.step i, fun key hhidden hkept => not_exposed_step hhidden hkept⟩
  rw [procs_step_same]
  exact hclears

end System

end Interleave
