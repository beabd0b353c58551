import Spoo.Lib.Histories
import Spoo.Services.FeatureFlagService

/-!
# How old a flag is that a question is answered with

A question is answered with a flag that was in the database not longer ago than the cache keeps one, and not
longer than a lookup has ever taken from the database to the cache. If the database does not answer, the feature
is off.
-/

namespace Spoo

open Agents Freshness FeatureFlagService

variable {ι : Type} {cfg : FlagConfig}

/-- The longest time that the cache keeps an answer. -/
def FlagConfig.window (cfg : FlagConfig) : Int := max (cfg.ttlSeconds * 1000 : Int) (cfg.negativeTtlSeconds * 1000)

/-- An answer is that of a flag that was stored recently, or it is no. -/
def FlagAnswer.Honest (cfg : FlagConfig) (s : FlagWorld) (a : FlagAnswer) : Prop :=
  if a.failed then a.enabled = false
  else ∃ flag, HeldSince (a.time - cfg.window - s.lag) flag (s.flags a.name) ∧ a.enabled = isEnabled cfg flag a.user

variable {s s' : FlagWorld} {name : String} {user : Option FlagUser} {flag : Option FeatureFlagDoc}
  {choice : FlagChoice}

/-- The answers, and what the cache holds. -/
structure FlagWorld.Ok (cfg : FlagConfig) (s : FlagWorld) : Prop where
  answers : ∀ a ∈ s.answers, a.Honest cfg s ∧ a.time ≤ s.clock
  registered : ∀ name, s.flags name ≠ []
  cached : ∀ name, ∀ copy ∈ s.cache name,
    Copied cfg.window s.lag (s.flags name) copy ∧ copy.2 ≤ s.clock + cfg.window
  lag : 0 ≤ s.lag

/-- What was read of the flags stays true of them. -/
structure FlagWorld.Goes (s s' : FlagWorld) : Prop where
  clock : s.clock ≤ s'.clock
  lag : s.lag ≤ s'.lag
  flags : ∀ name since flag, since ≤ s.clock → HeldSince since flag (s.flags name) →
    HeldSince since flag (s'.flags name)

/-- What a lookup has read. -/
def FlagPhase.Assured (phase : FlagPhase) (s : FlagWorld) : Prop :=
  match phase with
  | .storing name _ flag readAt => HeldSince readAt flag (s.flags name) ∧ readAt ≤ s.clock
  | _ => True

theorem FlagPhase.Assured.goes {phase : FlagPhase} (h : phase.Assured s) (hgoes : s.Goes s') :
    phase.Assured s' := by
  cases phase with
  | storing name user flag readAt => exact ⟨hgoes.flags name readAt flag h.2 h.1, h.2.trans hgoes.clock⟩
  | _ => trivial

theorem FlagConfig.window_nonneg (cfg : FlagConfig) : 0 ≤ cfg.window := by
  unfold FlagConfig.window
  omega

theorem keptFor_le_window (cfg : FlagConfig) (flag : Option FeatureFlagDoc) :
    keptFor cfg flag ≤ cfg.window := by
  unfold keptFor FlagConfig.window
  split <;> omega

namespace FlagWorld

theorem Goes.refl (s : FlagWorld) : s.Goes s := ⟨le_refl _, le_refl _, fun _ _ _ _ h => h⟩

theorem Ok.honest_goes (h : s.Ok cfg) (hgoes : s.Goes s') {a : FlagAnswer} (ha : a ∈ s.answers) :
    a.Honest cfg s' ∧ a.time ≤ s'.clock := by
  obtain ⟨hhonest, htime⟩ := h.answers a ha
  refine ⟨?_, htime.trans hgoes.clock⟩
  unfold FlagAnswer.Honest at hhonest ⊢
  split
  · rename_i hfailed
    rwa [if_pos hfailed] at hhonest
  · rename_i hfailed
    rw [if_neg hfailed] at hhonest
    obtain ⟨flag, hheld, heq⟩ := hhonest
    have hsince : a.time - cfg.window - s.lag ≤ s.clock := by
      have := cfg.window_nonneg
      have := h.lag
      omega
    have hlag := hgoes.lag
    exact ⟨flag, (hgoes.flags _ _ _ hsince hheld).mono (by omega), heq⟩

theorem Ok.cached_goes (h : s.Ok cfg) (hgoes : s.Goes s') {copy : Option FeatureFlagDoc × Int}
    (hcopy : copy ∈ s.cache name) :
    Copied cfg.window s'.lag (s'.flags name) copy ∧ copy.2 ≤ s'.clock + cfg.window := by
  obtain ⟨hcopied, hkept⟩ := h.cached name copy hcopy
  have hsince : copy.2 - cfg.window - s.lag ≤ s.clock := by
    have := h.lag
    omega
  have hclock := hgoes.clock
  exact ⟨Copied.mono (hgoes.flags _ _ _ hsince hcopied) hgoes.lag, by omega⟩

/-- An answer with a flag that was held recently enough. -/
theorem Ok.answer (h : s.Ok cfg) (hheld : HeldSince (s.clock - cfg.window - s.lag) flag (s.flags name)) :
    (FeatureFlagService.answer cfg name user flag s).2.Ok cfg where
  answers a ha := by
    rcases List.mem_cons.1 ha with rfl | hold
    · exact ⟨⟨flag, hheld, rfl⟩, le_refl _⟩
    · exact h.answers a hold
  registered := h.registered
  cached := h.cached
  lag := h.lag

theorem Ok.wait (h : s.Ok cfg) (delay : Nat) : (s.wait delay).Ok cfg ∧ s.Goes (s.wait delay) := by
  have hclock : s.clock ≤ (s.wait delay).clock := by
    unfold FlagWorld.wait
    dsimp only
    omega
  have hgoes : s.Goes (s.wait delay) := ⟨hclock, le_refl _, fun _ _ _ _ hheld => hheld⟩
  exact ⟨⟨fun a ha => h.honest_goes hgoes ha, h.registered, fun name copy hcopy => h.cached_goes hgoes hcopy,
    h.lag⟩, hgoes⟩

/-- The flag that is stored was held since any time. -/
theorem Ok.heldSince_stored (h : s.Ok cfg) (since : Int) (name : String) :
    HeldSince since (stored name s) (s.flags name) := by
  unfold stored
  cases hflags : s.flags name with
  | nil => exact absurd hflags (h.registered name)
  | cons change history => exact heldSince_head change history

/-- Edits of the flags that leave what was read of them. -/
theorem Ok.edit (h : s.Ok cfg) (flags : String → List (Int × Option FeatureFlagDoc))
    (hflags : ∀ name, flags name = s.flags name ∨ ∃ flag, flags name = (s.clock, flag) :: s.flags name) :
    FlagWorld.Ok cfg { s with flags } ∧ s.Goes { s with flags } := by
  have hgoes : s.Goes { s with flags } := by
    refine ⟨le_refl _, le_refl _, fun name since flag hsince hheld => ?_⟩
    change HeldSince since flag (flags name)
    rcases hflags name with heq | ⟨new, heq⟩
    · rwa [heq]
    · rw [heq]
      exact hheld.change hsince new
  refine ⟨⟨fun a ha => h.honest_goes hgoes ha, fun name => ?_, fun name copy hcopy => h.cached_goes hgoes hcopy,
    h.lag⟩, hgoes⟩
  change flags name ≠ []
  rcases hflags name with heq | ⟨new, heq⟩
  · rw [heq]
    exact h.registered name
  · rw [heq]
    exact List.cons_ne_nil _ _

end FlagWorld

/-! ## Moves -/

/-- What every move does. -/
structure FlagAdvances (cfg : FlagConfig) (s : FlagWorld) (moved : FlagPhase × FlagWorld) : Prop where
  ok : moved.2.Ok cfg
  goes : s.Goes moved.2
  assured : moved.1.Assured moved.2

theorem advances_getting (h : s.Ok cfg) : FlagAdvances cfg s (getting cfg choice name user s) := by
  unfold getting
  split
  · exact ⟨h, .refl s, trivial⟩
  · exact ⟨h, .refl s, trivial⟩
  · rename_i copy _ hcopy
    obtain ⟨hmem, hlive⟩ := Option.filter_eq_some_iff.1 hcopy
    have hheld := (h.cached name copy hmem).1.heldSince (of_decide_eq_true hlive)
    exact ⟨h.answer hheld, ⟨le_refl _, le_refl _, fun _ _ _ _ hold => hold⟩, trivial⟩

theorem advances_findingFlag (h : s.Ok cfg) :
    FlagAdvances cfg s (FeatureFlagService.finding choice name user s) := by
  unfold FeatureFlagService.finding
  split
  · refine ⟨⟨fun a ha => ?_, h.registered, h.cached, h.lag⟩,
      ⟨le_refl _, le_refl _, fun _ _ _ _ hold => hold⟩, trivial⟩
    rcases List.mem_cons.1 ha with rfl | hold
    · exact ⟨rfl, le_refl _⟩
    · exact h.answers a hold
  · exact ⟨h, .refl s, h.heldSince_stored _ _, le_refl _⟩

theorem advances_storing (h : s.Ok cfg) {readAt : Int} (hread : HeldSince readAt flag (s.flags name)) :
    FlagAdvances cfg s (storing cfg choice name user flag readAt s) := by
  have hgoes : s.Goes { s with lag := max s.lag (s.clock - readAt) } :=
    ⟨le_refl _, le_max_left _ _, fun _ _ _ _ hold => hold⟩
  have hlag : s.clock - readAt ≤ max s.lag (s.clock - readAt) := le_max_right _ _
  have hok : FlagWorld.Ok cfg { s with
      cache := fun key =>
        if key = name ∧ cfg.redis = true ∧ choice ≠ .fail .failedBefore then some (flag, s.clock + keptFor cfg flag)
        else s.cache key
      lag := max s.lag (s.clock - readAt) } := by
    refine ⟨fun a ha => h.honest_goes hgoes ha, h.registered, fun key copy hcopy => ?_,
      h.lag.trans (le_max_left _ _)⟩
    dsimp only at hcopy
    split at hcopy
    · rename_i hkey
      obtain rfl := Option.some.inj hcopy
      have hkept := keptFor_le_window cfg flag
      obtain rfl := hkey.1
      exact ⟨copied_of_read hread hlag hkept, by dsimp only; omega⟩
    · exact h.cached_goes hgoes hcopy
  refine ⟨hok.answer (hread.mono ?_), ⟨le_refl _, le_max_left _ _, fun _ _ _ _ hold => hold⟩, trivial⟩
  have := cfg.window_nonneg
  dsimp only
  omega

theorem advances_besideFlags (h : s.Ok cfg) :
    FlagAdvances cfg s (.idle, FeatureFlagService.beside cfg choice s) := by
  cases choice with
  | edit name flag =>
    have hedit := h.edit (fun key => if key = name then (s.clock, flag) :: s.flags key else s.flags key)
      fun key => by
        by_cases hkey : key = name
        · exact .inr ⟨flag, if_pos hkey⟩
        · exact .inl (if_neg hkey)
    exact ⟨hedit.1, hedit.2, trivial⟩
  | pullAllowlisted userId email =>
    have hedit := h.edit (FeatureFlagService.beside cfg (.pullAllowlisted userId email) s).flags fun key => by
      simp only [FeatureFlagService.beside]
      cases stored key s with
      | none => exact .inl rfl
      | some flag => exact .inr ⟨_, rfl⟩
    exact ⟨hedit.1, hedit.2, trivial⟩
  | invalidate name =>
    refine ⟨⟨h.answers, h.registered, fun key copy hcopy => ?_, h.lag⟩,
      ⟨le_refl _, le_refl _, fun _ _ _ _ hold => hold⟩, trivial⟩
    simp only [FeatureFlagService.beside] at hcopy
    split at hcopy
    · cases hcopy
    · exact h.cached key copy hcopy
  | _ => exact ⟨h, .refl s, trivial⟩

theorem advances_flagMove (h : s.Ok cfg) {phase : FlagPhase} (hassured : phase.Assured s) :
    FlagAdvances cfg s (FeatureFlagService.move cfg choice phase s) := by
  cases phase with
  | idle =>
    unfold FeatureFlagService.move
    dsimp only
    split
    · refine ⟨h, .refl s, ?_⟩
      dsimp only
      split <;> trivial
    · exact advances_besideFlags h
  | getting name user => exact advances_getting h
  | finding name user => exact advances_findingFlag h
  | storing name user flag readAt => exact advances_storing h hassured.1

/-! ## Runs -/

variable [DecidableEq ι]

/-- The flags as they are at the beginning, and an empty cache. -/
def FlagWorld.start (flags : String → Option FeatureFlagDoc) (clock : Int) : FlagWorld where
  flags name := [(clock, flags name)]
  clock

theorem FlagWorld.ok_start (flags : String → Option FeatureFlagDoc) (clock : Int) :
    (FlagWorld.start flags clock).Ok cfg where
  answers := by simp [FlagWorld.start]
  registered _ := List.cons_ne_nil _ _
  cached := by simp [FlagWorld.start]
  lag := le_refl _

/-- In whatever order questions, edits and failures come, every answer is honest. -/
theorem flag_answers_honest (flags : String → Option FeatureFlagDoc) (clock : Int) (events : List (ι × FlagEvent)) :
    ∀ pool ∈ List.scanl (Pool.step (FlagPhase.step cfg)) ⟨fun _ => .idle, FlagWorld.start flags clock⟩ events,
      ∀ a ∈ pool.shared.answers, a.Honest cfg pool.shared := by
  intro pool hpool a ha
  refine ((Pool.Sound.forall_mem_scanl_of_step (I := FlagWorld.Ok cfg)
    (L := fun _ phase s => FlagPhase.Assured phase s) ?_ ?_ pool hpool).shared.answers a ha).1
  · intro pool event hsound
    obtain ⟨hwait, hwaits⟩ := hsound.shared.wait event.2.delay
    have hmove : FlagAdvances cfg (pool.shared.wait event.2.delay)
        (FlagPhase.step cfg event.1 event.2 (pool.agents event.1) pool.shared) :=
      advances_flagMove hwait ((hsound.agents event.1).goes hwaits)
    exact ⟨hmove.ok, hmove.assured, fun _ _ _ hother => (hother.goes hwaits).goes hmove.goes⟩
  · exact ⟨FlagWorld.ok_start flags clock, fun _ => trivial⟩

/-- A flag that is dropped between the read and the write of the cache is answered with until its entry runs out. -/
theorem flag_answers_honest_dropped :
    let cfg : FlagConfig := { lower := id, stableHash := fun _ _ => 0, digitBucket := fun _ _ => '0' }
    let start : Pool (Fin 2) FlagPhase FlagWorld := ⟨fun _ => .idle,
      FlagWorld.start (fun name => some { name, enabled := true, rolloutType := .everyone }) 0⟩
    let events : List (Fin 2 × FlagEvent) :=
      [(0, { choice := .ask "og" none }), (0, {}), (0, {}), (1, { delay := 5000, choice := .edit "og" none }), (0, {}),
        (0, { delay := 59000, choice := .ask "og" none }), (0, {}),
        (0, { delay := 1000, choice := .ask "og" none }), (0, {}), (0, {}), (0, {})]
    (events.foldl (Pool.step (FlagPhase.step cfg)) start).shared.answers.map (fun a => (a.time, a.enabled)) =
        [(65000, false), (64000, true), (5000, true)] ∧
      ∀ pool ∈ List.scanl (Pool.step (FlagPhase.step cfg)) start events,
        ∀ a ∈ pool.shared.answers, a.Honest cfg pool.shared :=
  ⟨by decide +kernel, flag_answers_honest _ _ _⟩

end Spoo
