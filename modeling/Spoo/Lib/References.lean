import Spoo.Lib.Agents

/-!
# References into a registry

Agents share a state in which some references are in use and some are registered. Some agents look
references up and add them later. Others withdraw one: it is taken out of use first, and out of the
registry afterwards. What is in use stays registered as long as nobody adds a reference that has been
taken out of the registry since it was looked up, or is about to be.
-/

namespace References

open Agents

/-- What is in use and what is registered in a shared state, what an agent adds with its next move, what
it has taken out of use and takes out of the registry with its next move, whether that move looks
references up, and what it has looked up to add it. -/
structure Registry (α σ R : Type) where
  uses : σ → R → Prop
  registered : σ → R → Prop
  adds : α → σ → List R
  withdraws : α → R → Bool
  looks : α → Bool
  vouches : α → List R

namespace Registry

variable {ι α σ ε R : Type} [DecidableEq ι] (reg : Registry α σ R)

/-- What the others have taken out of the registry since an agent looked. -/
def removals (who : ι) (_ : ε) (a : α) (_ : σ) (_ : α × σ) (unseen : Unseen ι R) : Unseen ι R :=
  unseen.after who (reg.looks a) (reg.withdraws a)

/-- What an agent vouches for is registered. -/
def Vouched (r : R) (a : α) (s : σ) : Prop := r ∈ reg.vouches a → reg.registered s r

/-- What is in use is registered, nothing that is being withdrawn is in use, and what is vouched for is
registered unless it has been taken out since. -/
def Intact : Pool ι α (σ × Unseen ι R) → Prop :=
  Pool.Sound (fun s => ∀ r, reg.uses s.1 r → reg.registered s.1 r) fun i a s =>
    (∀ r, reg.withdraws a r = true → ¬ reg.uses s.1 r) ∧ Relies reg.Vouched s.2 i a s.1

/-- What a move may do. -/
structure Moved (a : α) (s : σ) (moved : α × σ) : Prop where
  uses : ∀ r, reg.uses moved.2 r → reg.uses s r ∨ r ∈ reg.adds a s
  registered : ∀ r, reg.registered s r → reg.withdraws a r = true ∨ reg.registered moved.2 r
  withdraws : ∀ r, reg.withdraws moved.1 r = true → ¬ reg.uses moved.2 r
  looked : reg.looks a = true → ∀ r ∈ reg.vouches moved.1, reg.registered moved.2 r
  vouches : reg.looks a = false → ∀ r ∈ reg.vouches moved.1, r ∈ reg.vouches a ∧ reg.withdraws a r = false

/-- What the agent adds is registered if it has been taken out since it was looked up, and nobody is
withdrawing it. -/
def AddsStanding (pool : Pool ι α (σ × Unseen ι R)) (event : ι × ε) : Prop :=
  ∀ r ∈ reg.adds (pool.agents event.1) pool.shared.1,
    (pool.shared.2 event.1 r = true → reg.registered pool.shared.1 r) ∧
      ∀ j, reg.withdraws (pool.agents j) r = false

variable {reg} {move : Move ι ε α σ}

theorem intact_step {pool : Pool ι α (σ × Unseen ι R)} {event : ι × ε} (h : reg.Intact pool)
    (hstanding : reg.AddsStanding pool event)
    (hadds : ∀ r ∈ reg.adds (pool.agents event.1) pool.shared.1, r ∈ reg.vouches (pool.agents event.1))
    (hmoved : reg.Moved (pool.agents event.1) pool.shared.1
      (move event.1 event.2 (pool.agents event.1) pool.shared.1)) :
    reg.Intact (pool.step (recorded reg.removals move) event) := by
  -- What is added was found, and has not been taken out since.
  have hadded (r : R) (hr : r ∈ reg.adds (pool.agents event.1) pool.shared.1) :
      reg.registered pool.shared.1 r ∧ ∀ j, reg.withdraws (pool.agents j) r = false := by
    refine ⟨?_, (hstanding r hr).2⟩
    cases hunseen : pool.shared.2 event.1 r with
    | true => exact (hstanding r hr).1 hunseen
    | false => exact (h.agents event.1).2 r hunseen (hadds r hr)
  refine Pool.sound_step ?_ ⟨hmoved.withdraws, ?_⟩ fun j hj => ⟨fun r hwithdraws huses => ?_, ?_⟩
  · intro r huses
    have hbefore : reg.registered pool.shared.1 r ∧ reg.withdraws (pool.agents event.1) r = false := by
      rcases hmoved.uses r huses with hold | hadds
      · refine ⟨h.shared r hold, Bool.eq_false_iff.2 fun hwithdraws => ?_⟩
        exact (h.agents event.1).1 r hwithdraws hold
      · exact ⟨(hadded r hadds).1, (hadded r hadds).2 event.1⟩
    exact (hmoved.registered r hbefore.1).resolve_left (Bool.eq_false_iff.1 hbefore.2)
  · refine (h.agents event.1).2.after hmoved.looked fun r hvouched hr => ?_
    cases hlooks : reg.looks (pool.agents event.1) with
    | true => exact hmoved.looked hlooks r hr
    | false =>
      obtain ⟨hbefore, hstays⟩ := hmoved.vouches hlooks r hr
      exact (hmoved.registered r (hvouched hbefore)).resolve_left (Bool.eq_false_iff.1 hstays)
  · rcases hmoved.uses r huses with hold | hadds
    · exact (h.agents j).1 r hwithdraws hold
    · exact Bool.eq_false_iff.1 ((hadded r hadds).2 j) hwithdraws
  · refine (h.agents j).2.after_of_ne hj fun r hstays hvouched hr => ?_
    exact (hmoved.registered r (hvouched hr)).resolve_left (Bool.eq_false_iff.1 hstays)

/-- The rule for runs, with what else they keep. -/
theorem forall_intact {J : Pool ι α (σ × Unseen ι R) → Prop}
    (hkeeps : ∀ pool event, J pool → J (pool.step (recorded reg.removals move) event))
    (hadds : ∀ pool who, J pool →
      ∀ r ∈ reg.adds (pool.agents who) pool.shared.1, r ∈ reg.vouches (pool.agents who))
    (hmoved : ∀ who answer a s, reg.Moved a s (move who answer a s))
    {pool : Pool ι α (σ × Unseen ι R)} (hstart : J pool) (h : reg.Intact pool) {events : List (ι × ε)}
    (hstanding : Run.Guarded (Pool.step (recorded reg.removals move)) reg.AddsStanding pool events) :
    ∀ t ∈ List.scanl (Pool.step (recorded reg.removals move)) pool events, reg.Intact t := by
  have hstep (t : Pool ι α (σ × Unseen ι R)) (event : ι × ε) (ht : J t ∧ reg.Intact t)
      (hadded : reg.AddsStanding t event) : J (t.step (recorded reg.removals move) event) ∧
        reg.Intact (t.step (recorded reg.removals move) event) :=
    ⟨hkeeps t event ht.1, intact_step ht.2 hadded (hadds t event.1 ht.1) (hmoved ..)⟩
  exact fun t ht => (Run.forall_mem_scanl hstep ⟨hstart, h⟩ hstanding t ht).2

end Registry

end References
