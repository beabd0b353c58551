import Spoo.Infrastructure.DualCache
import Spoo.Lib.Histories

/-!
# What the dual cache answers, and who loads

An answer from a copy is one that the query would have yielded, as JSON keeps it, not longer before the copy was read
than the copy is kept and a load has ever taken. An answer that was loaded is what the query yielded when it ran. And as
long as no load lasts longer than its lock, no two load at once.
-/

namespace Spoo

open Agents Freshness DualCache

variable {ι α β : Type} {cfg : DualConfig α β} {s s' : DualWorld α β} {phase : DualPhase α β}
  {choice : DualChoice α}

/-- How old an answer of a source may be. -/
def DualWorld.window (cfg : DualConfig α β) (s : DualWorld α β) : DualSource → Int
  | .live => cfg.primaryTtl * 1000 + s.lag
  | .stale => cfg.staleTtl * 1000 + s.lag
  | .loaded => 0

/-- What a request gets where the query has yielded a value: the value where it was loaded, and elsewhere what is left
of it in a copy. -/
def DualConfig.gives (cfg : DualConfig α β) (source : DualSource) (data : α) : Option α :=
  if source = .loaded then some data else (cfg.serialize data).map cfg.loads

/-- The query yielded the answer not too long before it was read, and at that very time where it was loaded. -/
def DualAnswer.Fresh (cfg : DualConfig α β) (s : DualWorld α β) (a : DualAnswer α) : Prop :=
  ∃ data, cfg.gives a.source data = some a.value ∧
    HeldBetween (a.readAt - s.window cfg a.source) a.readAt data s.history

/-- A copy of what was read before. -/
def DualWorld.Keeps (cfg : DualConfig α β) (s : DualWorld α β) (ttl : Int) (copy : β × Int) : Prop :=
  copy.2 ≤ s.clock + ttl ∧
    ∃ data, cfg.serialize data = some copy.1 ∧ Copied ttl s.lag s.history (data, copy.2)

namespace DualWorld

/-- The answers and the copies. -/
structure Ok (cfg : DualConfig α β) (s : DualWorld α β) : Prop where
  answers : ∀ a ∈ s.answers, a.Fresh cfg s ∧ a.readAt ≤ s.clock
  live : ∀ copy ∈ s.live, s.Keeps cfg (cfg.primaryTtl * 1000) copy
  stale : ∀ copy ∈ s.stale, s.Keeps cfg (cfg.staleTtl * 1000) copy
  lag : 0 ≤ s.lag
  past : ∀ change ∈ s.history.head?, change.1 ≤ s.clock

/-- What was read of the query stays true of it. -/
structure Goes (s s' : DualWorld α β) : Prop where
  clock : s.clock ≤ s'.clock
  lag : s.lag ≤ s'.lag
  held : ∀ since value, since ≤ s.clock → HeldSince since value s.history → HeldSince since value s'.history
  between : ∀ since time value, since ≤ time → time ≤ s.clock → HeldBetween since time value s.history →
    HeldBetween since time value s'.history
  past : (∀ change ∈ s.history.head?, change.1 ≤ s.clock) → ∀ change ∈ s'.history.head?, change.1 ≤ s'.clock

/-- The history stands still. -/
theorem goes_of_history (hclock : s.clock ≤ s'.clock) (hlag : s.lag ≤ s'.lag) (hhistory : s'.history = s.history) :
    s.Goes s' where
  clock := hclock
  lag := hlag
  held _ _ _ h := hhistory ▸ h
  between _ _ _ _ _ h := hhistory ▸ h
  past h change hchange := (h change (hhistory ▸ hchange)).trans hclock

theorem Goes.refl (s : DualWorld α β) : s.Goes s := goes_of_history (le_refl _) (le_refl _) rfl

/-- What is queried changes. -/
theorem goes_change (s : DualWorld α β) (value : α) : s.Goes { s with history := (s.clock, value) :: s.history } where
  clock := le_refl _
  lag := le_refl _
  held _ _ hsince hold := hold.change hsince value
  between _ _ _ hsince htime hold := hold.change hsince htime value
  past := by
    intro _ change hchange
    obtain rfl := Option.some.inj hchange
    exact le_refl _

theorem Keeps.goes {ttl : Int} {copy : β × Int} (h : s.Keeps cfg ttl copy) (hlag : 0 ≤ s.lag) (hgoes : s.Goes s') :
    s'.Keeps cfg ttl copy := by
  obtain ⟨hkept, data, hdata, hcopied⟩ := h
  have hsince : copy.2 - ttl - s.lag ≤ s.clock := by omega
  have hclock := hgoes.clock
  exact ⟨by omega, data, hdata, Copied.mono (hgoes.held _ _ hsince hcopied) hgoes.lag⟩

theorem window_nonneg (hlag : 0 ≤ s.lag) (source : DualSource) : 0 ≤ s.window cfg source := by
  unfold DualWorld.window
  cases source <;> dsimp only <;> omega

theorem window_mono (hgoes : s.Goes s') (source : DualSource) : s.window cfg source ≤ s'.window cfg source := by
  have hlags := hgoes.lag
  unfold DualWorld.window
  cases source <;> dsimp only <;> omega

/-- What was held within the window of a source till a time stays so. -/
theorem held_goes (hgoes : s.Goes s') (hlag : 0 ≤ s.lag) {source : DualSource} {readAt : Int} {data : α}
    (hread : readAt ≤ s.clock) (h : HeldBetween (readAt - s.window cfg source) readAt data s.history) :
    HeldBetween (readAt - s'.window cfg source) readAt data s'.history := by
  have hwindow : 0 ≤ s.window cfg source := window_nonneg hlag source
  have hwindows : s.window cfg source ≤ s'.window cfg source := window_mono hgoes source
  exact (hgoes.between _ _ _ (by omega) hread h).mono (by omega)

theorem Ok.fresh_goes (h : s.Ok cfg) (hgoes : s.Goes s') {a : DualAnswer α} (ha : a ∈ s.answers) :
    a.Fresh cfg s' ∧ a.readAt ≤ s'.clock := by
  obtain ⟨⟨data, hdata, hheld⟩, hread⟩ := h.answers a ha
  exact ⟨⟨data, hdata, held_goes hgoes h.lag hread hheld⟩, hread.trans hgoes.clock⟩

/-- What stands still but for the clock, the lock, the lag and the history. -/
theorem Ok.goes (h : s.Ok cfg) (hgoes : s.Goes s') (hanswers : s'.answers = s.answers) (hlive : s'.live = s.live)
    (hstale : s'.stale = s.stale) : s'.Ok cfg where
  answers _ ha := h.fresh_goes hgoes (hanswers ▸ ha)
  live copy hcopy := (h.live copy (hlive ▸ hcopy)).goes h.lag hgoes
  stale copy hcopy := (h.stale copy (hstale ▸ hcopy)).goes h.lag hgoes
  lag := h.lag.trans hgoes.lag
  past := hgoes.past h.past

theorem Ok.answer (h : s.Ok cfg) {readAt : Int} {source : DualSource} {value data : α} (hread : readAt ≤ s.clock)
    (hdata : cfg.gives source data = some value)
    (hheld : HeldBetween (readAt - s.window cfg source) readAt data s.history) :
    (DualCache.answer readAt source value s).Ok cfg where
  answers a ha := by
    rcases List.mem_cons.1 ha with rfl | hold
    · exact ⟨⟨data, hdata, hheld⟩, hread⟩
    · exact h.answers a hold
  live := h.live
  stale := h.stale
  lag := h.lag
  past := h.past

theorem Ok.wait (h : s.Ok cfg) (delay : Nat) : (s.wait delay).Ok cfg ∧ s.Goes (s.wait delay) := by
  have hclock : s.clock ≤ (s.wait delay).clock := by
    unfold DualWorld.wait
    dsimp only
    omega
  have hgoes : s.Goes (s.wait delay) := goes_of_history hclock (le_refl _) rfl
  exact ⟨h.goes hgoes rfl rfl rfl, hgoes⟩

/-- What is read of a copy that has not run out. -/
theorem Ok.heldBetween_of_copy (h : s.Ok cfg) {ttl : Int} {copy : β × Int} (hkeeps : s.Keeps cfg ttl copy)
    (hlive : s.clock < copy.2) :
    ∃ data, cfg.serialize data = some copy.1 ∧ HeldBetween (s.clock - (ttl + s.lag)) s.clock data s.history := by
  obtain ⟨-, data, hdata, hcopied⟩ := hkeeps
  refine ⟨data, hdata, HeldSince.heldBetween ?_ h.past⟩
  exact (hcopied.heldSince hlive).mono (by omega)

end DualWorld

/-- The query has yielded the value at the time, and it is what is written to the copies. -/
def DualWorld.Read (cfg : DualConfig α β) (s : DualWorld α β) (data : α) (serialized : β) (readAt : Int) : Prop :=
  cfg.serialize data = some serialized ∧ HeldBetween readAt readAt data s.history ∧ readAt ≤ s.clock

/-- What a call has read. -/
def DualPhase.Assured (cfg : DualConfig α β) (phase : DualPhase α β) (s : DualWorld α β) : Prop :=
  match phase with
  | .locking (some (text, readAt)) => readAt ≤ s.clock ∧ ∃ data, cfg.serialize data = some text ∧
    HeldBetween (readAt - s.window cfg .stale) readAt data s.history
  | .settingLive _ _ data serialized readAt => s.Read cfg data serialized readAt
  | .settingStale _ _ data serialized readAt => s.Read cfg data serialized readAt
  | .unlocking _ data readAt => HeldBetween readAt readAt data s.history ∧ readAt ≤ s.clock
  | _ => True

theorem DualPhase.Assured.goes (h : phase.Assured cfg s) (hlag : 0 ≤ s.lag) (hgoes : s.Goes s') :
    phase.Assured cfg s' := by
  have hread {data : α} {readAt : Int} (hold : HeldBetween readAt readAt data s.history ∧ readAt ≤ s.clock) :
      HeldBetween readAt readAt data s'.history ∧ readAt ≤ s'.clock :=
    ⟨hgoes.between _ _ _ (le_refl _) hold.2 hold.1, hold.2.trans hgoes.clock⟩
  cases phase with
  | locking stale =>
    cases stale with
    | none => trivial
    | some copy =>
      obtain ⟨hclock, data, hdata, hheld⟩ := h
      exact ⟨hclock.trans hgoes.clock, data, hdata, DualWorld.held_goes hgoes hlag hclock hheld⟩
  | settingLive loader expiresAt data serialized readAt => exact ⟨h.1, hread h.2⟩
  | settingStale loader expiresAt data serialized readAt => exact ⟨h.1, hread h.2⟩
  | unlocking expiresAt data readAt => exact hread h
  | _ => trivial

/-- What every move does. -/
structure DualAdvances (cfg : DualConfig α β) (s : DualWorld α β) (moved : DualPhase α β × DualWorld α β) : Prop where
  ok : moved.2.Ok cfg
  goes : s.Goes moved.2
  assured : moved.1.Assured cfg moved.2

namespace DualWorld.Ok

theorem stays (h : s.Ok cfg) (hassured : phase.Assured cfg s) : DualAdvances cfg s (phase, s) :=
  ⟨h, .refl s, hassured⟩

/-- The lock is written, and nothing else. -/
theorem lock (h : s.Ok cfg) (lock : Option Int) : DualWorld.Ok cfg { s with lock } :=
  h.goes (goes_of_history (le_refl _) (le_refl _) rfl) rfl rfl rfl

theorem goes_setLive (serialized : β) (readAt : Int) : s.Goes (setLive cfg serialized readAt s) :=
  goes_of_history (le_refl _) (le_max_left _ _) rfl

theorem goes_setStale (serialized : β) (readAt : Int) : s.Goes (setStale cfg serialized readAt s) :=
  goes_of_history (le_refl _) (le_max_left _ _) rfl

/-- A copy is written of what was read. -/
theorem setLive (h : s.Ok cfg) {data : α} {serialized : β} {readAt : Int} (hread : s.Read cfg data serialized readAt) :
    DualWorld.Ok cfg (setLive cfg serialized readAt s) := by
  have hgoes : s.Goes { s with lag := max s.lag (s.clock - readAt) } :=
    goes_of_history (le_refl _) (le_max_left _ _) rfl
  have hok : DualWorld.Ok cfg { s with lag := max s.lag (s.clock - readAt) } := h.goes hgoes rfl rfl rfl
  refine ⟨hok.answers, fun copy hcopy => ?_, hok.stale, hok.lag, hok.past⟩
  obtain rfl := Option.some.inj hcopy
  exact ⟨le_refl _, data, hread.1,
    copied_of_read (hread.2.1.heldSince (le_refl _)) (le_max_right _ _) (le_refl _)⟩

theorem setStale (h : s.Ok cfg) {data : α} {serialized : β} {readAt : Int}
    (hread : s.Read cfg data serialized readAt) : DualWorld.Ok cfg (setStale cfg serialized readAt s) := by
  have hgoes : s.Goes { s with lag := max s.lag (s.clock - readAt) } :=
    goes_of_history (le_refl _) (le_max_left _ _) rfl
  have hok : DualWorld.Ok cfg { s with lag := max s.lag (s.clock - readAt) } := h.goes hgoes rfl rfl rfl
  refine ⟨hok.answers, hok.live, fun copy hcopy => ?_, hok.lag, hok.past⟩
  obtain rfl := Option.some.inj hcopy
  exact ⟨le_refl _, data, hread.1,
    copied_of_read (hread.2.1.heldSince (le_refl _)) (le_max_right _ _) (le_refl _)⟩

end DualWorld.Ok

theorem exists_of_current {copy : Option (β × Int)} {text : β} (h : current copy s = some text) :
    ∃ expiresAt, copy = some (text, expiresAt) ∧ s.clock < expiresAt := by
  unfold current at h
  rw [Option.map_eq_some_iff] at h
  obtain ⟨found, hfound, rfl⟩ := h
  obtain ⟨hcopy, hlive⟩ := Option.filter_eq_some_iff.1 hfound
  exact ⟨found.2, hcopy, of_decide_eq_true hlive⟩

/-- What the query yields now. -/
theorem heldBetween_now (h : s.Ok cfg) {change : Int × α} (hhead : s.history.head? = some change) :
    HeldBetween s.clock s.clock change.2 s.history := by
  refine HeldSince.heldBetween ?_ h.past
  cases hhistory : s.history with
  | nil => simp [hhistory] at hhead
  | cons first older =>
    rw [hhistory] at hhead
    obtain rfl := Option.some.inj hhead
    exact heldSince_head first older

theorem advances_failedCall (h : s.Ok cfg) (hassured : phase.Assured cfg s) {outcome : Redis.Outcome} :
    DualAdvances cfg s (failed cfg outcome phase s) := by
  unfold failed
  split
  · exact h.stays trivial
  cases phase with
  | locking stale =>
    unfold acquire
    dsimp only
    split
    · exact h.stays trivial
    · exact ⟨h.lock _, DualWorld.goes_of_history (le_refl _) (le_refl _) rfl, trivial⟩
  | settingLive loader expiresAt data serialized readAt =>
    exact ⟨h.setLive hassured, DualWorld.Ok.goes_setLive .., trivial⟩
  | settingStale loader expiresAt data serialized readAt =>
    exact ⟨h.setStale hassured, DualWorld.Ok.goes_setStale .., trivial⟩
  | unlocking expiresAt data readAt =>
    exact ⟨h.lock _, DualWorld.goes_of_history (le_refl _) (le_refl _) rfl, trivial⟩
  | _ => exact h.stays trivial

/-- What a request gets of a copy. -/
theorem gives_of_copy {source : DualSource} (hsource : source ≠ .loaded) {data : α} {text : β}
    (hdata : cfg.serialize data = some text) : cfg.gives source data = some (cfg.loads text) := by
  rw [DualConfig.gives, if_neg hsource, hdata]
  rfl

theorem advances_locking (h : s.Ok cfg) {stale : Option (β × Int)}
    (hassured : (DualPhase.locking (α := α) stale).Assured cfg s) : DualAdvances cfg s (locking cfg stale s) := by
  unfold locking acquire
  by_cases hlock : s.lock.any (s.clock < ·) = true
  · rw [if_pos hlock]
    cases stale with
    | none => exact h.stays trivial
    | some copy =>
      obtain ⟨hread, data, hdata, hheld⟩ := hassured
      exact ⟨h.answer hread (gives_of_copy (by decide) hdata) hheld,
        DualWorld.goes_of_history (le_refl _) (le_refl _) rfl, trivial⟩
  · rw [if_neg hlock]
    cases stale with
    | none => exact ⟨h.lock _, DualWorld.goes_of_history (le_refl _) (le_refl _) rfl, trivial⟩
    | some copy =>
      obtain ⟨hread, data, hdata, hheld⟩ := hassured
      exact ⟨(h.lock _).answer hread (gives_of_copy (by decide) hdata) hheld,
        DualWorld.goes_of_history (le_refl _) (le_refl _) rfl, trivial⟩

theorem advances_dualMove (h : s.Ok cfg) (hassured : phase.Assured cfg s) :
    DualAdvances cfg s (DualCache.move cfg choice phase s) := by
  have hloaded {readAt : Int} {data : α} (hheld : HeldBetween readAt readAt data s.history) :
      HeldBetween (readAt - s.window cfg .loaded) readAt data s.history := by
    rw [DualWorld.window, Int.sub_zero]
    exact hheld
  unfold DualCache.move
  split
  · exact advances_failedCall h hassured
  · refine ⟨h, .refl s, ?_⟩
    dsimp only
    split <;> trivial
  · rename_i value
    have hgoes := s.goes_change value
    exact ⟨h.goes hgoes rfl rfl rfl, hgoes, trivial⟩
  · exact h.stays trivial
  · -- Without Redis.
    split
    · exact h.stays trivial
    · rename_i change hhead
      exact ⟨h.answer (le_refl _) rfl (hloaded (heldBetween_now h hhead)),
        DualWorld.goes_of_history (le_refl _) (le_refl _) rfl, trivial⟩
  · -- The first copy.
    split
    · rename_i text hcurrent
      obtain ⟨expiresAt, hcopy, hlive⟩ := exists_of_current hcurrent
      obtain ⟨data, hdata, hheld⟩ := h.heldBetween_of_copy (h.live _ hcopy) hlive
      exact ⟨h.answer (le_refl _) (gives_of_copy (by decide) hdata) hheld,
        DualWorld.goes_of_history (le_refl _) (le_refl _) rfl, trivial⟩
    · exact h.stays trivial
  · -- The second copy.
    refine ⟨h, .refl s, ?_⟩
    cases hcurrent : current s.stale s with
    | none => trivial
    | some text =>
      obtain ⟨expiresAt, hcopy, hlive⟩ := exists_of_current hcurrent
      obtain ⟨data, hdata, hheld⟩ := h.heldBetween_of_copy (h.stale _ hcopy) hlive
      exact ⟨le_refl _, data, hdata, hheld⟩
  · exact advances_locking h hassured
  · split
    · exact h.stays trivial
    · rename_i change hhead
      split
      · exact h.stays trivial
      · rename_i serialized hserialized
        exact h.stays ⟨hserialized, heldBetween_now h hhead, le_refl _⟩
  · exact ⟨h.setLive hassured, DualWorld.Ok.goes_setLive .., hassured⟩
  · refine ⟨h.setStale hassured, DualWorld.Ok.goes_setStale .., ?_⟩
    dsimp only
    split
    · trivial
    · exact hassured.2
  · exact ⟨(h.lock none).answer hassured.2 rfl (hloaded hassured.1),
      DualWorld.goes_of_history (le_refl _) (le_refl _) rfl, trivial⟩

variable [DecidableEq ι]

theorem DualWorld.ok_start (value : α) (clock : Int) : (DualWorld.start value clock).Ok cfg where
  answers := by simp [DualWorld.start]
  live := by simp [DualWorld.start]
  stale := by simp [DualWorld.start]
  lag := le_refl _
  past := by simp [DualWorld.start]

/-- In whatever order requests, loads, changes and failures come, the answers are fresh. -/
theorem dual_answers_fresh (cfg : DualConfig α β) (value : α) (clock : Int) (events : List (ι × DualEvent α)) :
    ∀ pool ∈ List.scanl (Pool.step (DualPhase.step cfg)) ⟨fun _ => .idle, DualWorld.start value clock⟩ events,
      ∀ a ∈ pool.shared.answers, a.Fresh cfg pool.shared := by
  intro pool hpool a ha
  refine ((Pool.Sound.forall_mem_scanl_of_step
    (I := DualWorld.Ok cfg) (L := fun _ phase s => 0 ≤ s.lag ∧ DualPhase.Assured cfg phase s)
    ?_ ?_ pool hpool).shared.answers a ha).1
  · intro pool event hsound
    obtain ⟨hwait, hwaits⟩ := hsound.shared.wait event.2.delay
    have hmove : DualAdvances cfg (pool.shared.wait event.2.delay)
        (DualPhase.step cfg event.1 event.2 (pool.agents event.1) pool.shared) :=
      advances_dualMove hwait ((hsound.agents event.1).2.goes hsound.shared.lag hwaits)
    exact ⟨hmove.ok, ⟨hmove.ok.lag, hmove.assured⟩, fun _ _ _ hother =>
      ⟨hmove.ok.lag, (hother.2.goes hother.1 hwaits).goes hwait.lag hmove.goes⟩⟩
  · exact ⟨DualWorld.ok_start value clock, fun _ => ⟨le_refl _, trivial⟩⟩

/-- Copies of numbers, which are kept as they are. -/
def numberCache : DualConfig Nat Nat where
  serialize := some
  loads := id

/-- A value that changes while it is loaded is answered with, and then for as long as a copy of it is kept. -/
theorem dual_answers_fresh_changed :
    let start : Pool (Fin 2) (DualPhase Nat Nat) (DualWorld Nat Nat) := ⟨fun _ => .idle, DualWorld.start 7 0⟩
    let events : List (Fin 2 × DualEvent Nat) :=
      [(0, { choice := .request }), (0, {}), (0, {}), (0, {}), (0, {}), (1, { delay := 1000, choice := .change 8 }),
        (0, {}), (0, {}), (0, {}), (1, { delay := 299000, choice := .request }), (1, {}),
        (1, { delay := 1000, choice := .request }), (1, {}), (1, {}), (1, {})]
    (events.foldl (Pool.step (DualPhase.step numberCache)) start).shared.answers.map (fun a => (a.readAt, a.value)) =
        [(301000, 7), (300000, 7), (0, 7)] ∧
      ∀ pool ∈ List.scanl (Pool.step (DualPhase.step numberCache)) start events,
        ∀ a ∈ pool.shared.answers, a.Fresh numberCache pool.shared :=
  ⟨by decide +kernel, dual_answers_fresh _ _ _ _⟩

/-! ## One load at a time -/

/-- When the lock of a load runs out. -/
def DualPhase.lease : DualPhase α β → Option Int
  | .querying _ expiresAt => some expiresAt
  | .settingLive _ expiresAt _ _ _ => some expiresAt
  | .settingStale _ expiresAt _ _ _ => some expiresAt
  | .unlocking expiresAt _ _ => some expiresAt
  | _ => none

/-- What a move does about the lock: nothing, or it takes one that nobody has, or it has one and gives it back. -/
inductive LeaseStep (s : DualWorld α β) (phase : DualPhase α β) (moved : DualPhase α β × DualWorld α β) : Prop where
  | keep (hlock : moved.2.lock = s.lock) (hlease : moved.1.lease = phase.lease ∨ moved.1.lease = none)
  | take (expiresAt : Int) (hfree : s.lock.any (s.clock < ·) = false) (hlock : moved.2.lock = some expiresAt)
      (hlease : moved.1.lease = some expiresAt ∨ moved.1.lease = none)
  | leave (hheld : phase.lease.isSome = true) (hlease : moved.1.lease = none)

theorem leaseStep_move : LeaseStep s phase (DualCache.move cfg choice phase s) := by
  unfold DualCache.move
  split
  · unfold failed
    split
    · exact .keep rfl (.inr rfl)
    cases phase with
    | locking stale =>
      unfold acquire
      by_cases hlock : s.lock.any (s.clock < ·) = true
      · rw [if_pos hlock]
        exact .keep rfl (.inr rfl)
      · rw [if_neg hlock]
        exact .take _ (Bool.eq_false_of_not_eq_true hlock) rfl (.inr rfl)
    | unlocking expiresAt data readAt => exact .leave rfl rfl
    | _ => exact .keep rfl (.inr rfl)
  · refine .keep rfl (.inl ?_)
    dsimp only
    split <;> rfl
  · exact .keep rfl (.inl rfl)
  · exact .keep rfl (.inl rfl)
  · split <;> exact .keep rfl (.inl rfl)
  · split <;> exact .keep rfl (.inl rfl)
  · exact .keep rfl (.inl rfl)
  · rename_i stale _
    unfold locking acquire
    by_cases hlock : s.lock.any (s.clock < ·) = true
    · rw [if_pos hlock]
      cases stale <;> exact .keep rfl (.inl rfl)
    · rw [if_neg hlock]
      cases stale <;> exact .take _ (Bool.eq_false_of_not_eq_true hlock) rfl (.inl rfl)
  · split
    · exact .keep rfl (.inr rfl)
    · split
      · exact .keep rfl (.inr rfl)
      · exact .keep rfl (.inl rfl)
  · exact .keep rfl (.inl rfl)
  · refine .keep rfl ?_
    dsimp only
    split
    · exact .inr rfl
    · exact .inl rfl
  · exact .leave rfl rfl

/-- No lock runs out under a load while time passes. -/
def InLease (pool : Pool ι (DualPhase α β) (DualWorld α β)) (event : ι × DualEvent α) : Prop :=
  ∀ i, ∀ expiresAt ∈ (pool.agents i).lease, pool.shared.clock + event.2.delay < expiresAt

instance {n : Nat} (pool : Pool (Fin n) (DualPhase α β) (DualWorld α β)) (event : Fin n × DualEvent α) :
    Decidable (InLease pool event) := inferInstanceAs (Decidable (∀ i, ∀ expiresAt ∈ (pool.agents i).lease, _))

/-- A load has the lock, and there is one at most. -/
structure OneLoad (pool : Pool ι (DualPhase α β) (DualWorld α β)) : Prop where
  held : ∀ i, ∀ expiresAt ∈ (pool.agents i).lease, pool.shared.lock = some expiresAt
  one : ∀ i j, (pool.agents i).lease.isSome = true → (pool.agents j).lease.isSome = true → i = j

theorem OneLoad.step {pool : Pool ι (DualPhase α β) (DualWorld α β)} {event : ι × DualEvent α} (h : OneLoad pool)
    (hlease : InLease pool event) : OneLoad (pool.step (DualPhase.step cfg) event) := by
  have hstep : LeaseStep (pool.shared.wait event.2.delay) (pool.agents event.1)
      (DualPhase.step cfg event.1 event.2 (pool.agents event.1) pool.shared) := leaseStep_move
  have hsame : ((pool.step (DualPhase.step cfg) event).agents event.1) =
      (DualPhase.step cfg event.1 event.2 (pool.agents event.1) pool.shared).1 := Pool.agents_step_same
  -- Whoever loads after the move and has not moved, loaded before it.
  have hothers {j : ι} (hj : j ≠ event.1) :
      (pool.step (DualPhase.step cfg) event).agents j = pool.agents j := Pool.agents_step_of_ne hj
  cases hstep with
  | keep hlock hmoved =>
    have hheld : ∀ i, ∀ expiresAt ∈ ((pool.step (DualPhase.step cfg) event).agents i).lease,
        expiresAt ∈ (pool.agents i).lease := by
      intro i expiresAt hmem
      by_cases hi : i = event.1
      · subst hi
        rw [hsame] at hmem
        rcases hmoved with heq | heq
        · exact heq ▸ hmem
        · rw [heq] at hmem
          cases hmem
      · rwa [hothers hi] at hmem
    refine ⟨fun i expiresAt hmem => hlock.trans (h.held i expiresAt (hheld i expiresAt hmem)), fun i j hi hj => ?_⟩
    obtain ⟨_, hi⟩ := Option.isSome_iff_exists.1 hi
    obtain ⟨_, hj⟩ := Option.isSome_iff_exists.1 hj
    exact h.one i j (Option.isSome_iff_exists.2 ⟨_, hheld i _ hi⟩) (Option.isSome_iff_exists.2 ⟨_, hheld j _ hj⟩)
  | take expiresAt hfree hlock hmoved =>
    -- Nobody loads before: the lock would be there.
    have hnone : ∀ i, (pool.agents i).lease = none := by
      intro i
      cases hi : (pool.agents i).lease with
      | none => rfl
      | some other =>
        have hlive := hlease i other hi
        have hfree' : (pool.shared.lock.any (pool.shared.clock + event.2.delay < ·)) = false := hfree
        rw [h.held i other hi] at hfree'
        simp only [Option.any_some, decide_eq_false_iff_not] at hfree'
        exact absurd hlive hfree'
    have honly : ∀ i, ((pool.step (DualPhase.step cfg) event).agents i).lease.isSome = true → i = event.1 := by
      intro i hi
      by_contra hne
      rw [hothers hne, hnone i] at hi
      cases hi
    refine ⟨fun i other hmem => ?_, fun i j hi hj => (honly i hi).trans (honly j hj).symm⟩
    obtain rfl := honly i (Option.isSome_iff_exists.2 ⟨other, hmem⟩)
    rw [hsame] at hmem
    rcases hmoved with heq | heq
    · rw [heq] at hmem
      exact hlock.trans hmem
    · rw [heq] at hmem
      cases hmem
  | leave hheld hmoved =>
    have hnone : ∀ i, ((pool.step (DualPhase.step cfg) event).agents i).lease = none := by
      intro i
      by_cases hi : i = event.1
      · subst hi
        rw [hsame]
        exact hmoved
      · rw [hothers hi]
        cases hlease : (pool.agents i).lease with
        | none => rfl
        | some other => exact absurd (h.one i event.1 (by rw [hlease]; rfl) hheld) hi
    refine ⟨fun i other hmem => ?_, fun i j hi _ => ?_⟩
    · rw [hnone i] at hmem
      cases hmem
    · rw [hnone i] at hi
      cases hi

/-- As long as every load ends before its lock runs out, no two load at once. -/
theorem dual_one_load (value : α) (clock : Int) (events : List (ι × DualEvent α))
    (hlease : Run.Guarded (Pool.step (DualPhase.step cfg)) InLease
      ⟨fun _ => .idle, DualWorld.start value clock⟩ events) :
    ∀ pool ∈ List.scanl (Pool.step (DualPhase.step cfg)) ⟨fun _ => .idle, DualWorld.start value clock⟩ events,
      ∀ i j, (pool.agents i).lease.isSome = true → (pool.agents j).lease.isSome = true → i = j := by
  intro pool hpool
  refine (Run.forall_mem_scanl (P := OneLoad) (fun pool event h hmay => h.step hmay) ?_ hlease pool hpool).one
  exact ⟨fun _ _ hmem => (by cases hmem), fun _ _ hi _ => (by cases hi)⟩

/-- Two requests find nothing, one of them loads, and the other one does not. -/
theorem dual_one_load_two :
    let start : Pool (Fin 2) (DualPhase Nat Nat) (DualWorld Nat Nat) := ⟨fun _ => .idle, DualWorld.start 7 0⟩
    let events : List (Fin 2 × DualEvent Nat) :=
      [(0, { choice := .request }), (1, { choice := .request }), (0, {}), (1, {}), (0, {}), (1, {}), (0, {}), (1, {}),
        (0, { delay := 20000 }), (0, {})]
    (events.foldl (Pool.step (DualPhase.step numberCache)) start).shared.live = some (7, 320000) ∧
      ∀ pool ∈ List.scanl (Pool.step (DualPhase.step numberCache)) start events,
        ∀ i j, (pool.agents i).lease.isSome = true → (pool.agents j).lease.isSome = true → i = j := by
  exact ⟨by decide +kernel, dual_one_load _ _ _ (by decide +kernel)⟩

end Spoo
