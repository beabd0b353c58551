import Spoo.Services.Click.Hotness

/-!
# How often a window of clicks is hot

The actions run for the click whose number is the threshold. A counter gives a number once as long as it lives, which
is two windows from the last click that was counted on it, and the clicks of a backlog still carry the window they were
made in when it is gone.
-/

namespace Spoo

open Agents Redis

variable {ι : Type}

/-- What the actions of a call run for. -/
def ConsumePhase.fired : ConsumePhase → Option HotUrl
  | .acting hot _ => some hot
  | .done fired => fired
  | .received _ => none
  | .incrementing _ => none
  | .expiring .. => none

/-- The counter a call is about to increment. -/
def ConsumePhase.counted : ConsumePhase → Option HotWindow
  | .incrementing window => some window
  | .received _ => none
  | .expiring .. => none
  | .acting .. => none
  | .done _ => none

/-- The number of the click, where it is the threshold. -/
def ConsumePhase.reached (threshold : Nat) : ConsumePhase → Option (String × Nat)
  | .expiring window count => if count = some threshold then some (window.key, threshold) else none
  | .acting hot _ => some (hot.window.key, threshold)
  | .done fired => fired.map fun hot => (hot.window.key, threshold)
  | .received _ => none
  | .incrementing _ => none

/-- One call of `consume` for every index. -/
abbrev Consumers (ι : Type) : Type := Pool ι ConsumePhase HotnessWorld

/-- Calls that have not begun. -/
def consumersFrom (payloads : ι → Option ClickEvent) (clock : Int) : Consumers ι where
  agents i := .received (payloads i)
  shared := ⟨fun _ => none, clock⟩

/-- No two clicks have run the actions for one window of a URL. -/
def FiresOnce (pool : Consumers ι) : Prop :=
  ∀ i j hot hot', (pool.agents i).fired = some hot → (pool.agents j).fired = some hot' →
    hot.window = hot'.window → i = j

/-- A click is counted while the counter of its window lives, or where that counter has gone short of the
threshold. -/
def CountedAlive (d : HotUrlDetector) (pool : Consumers ι) (event : ι × ConsumeAnswer) : Prop :=
  event.2.outcome ≠ .failedBefore → ∀ window ∈ (pool.agents event.1).counted,
    ∀ counter ∈ pool.shared.counters window.key,
      counter.isLive (pool.shared.clock + event.2.delay) = true ∨ counter.value < d.threshold

instance (d : HotUrlDetector) (pool : Consumers ι) (event : ι × ConsumeAnswer) :
    Decidable (CountedAlive d pool event) :=
  inferInstanceAs (Decidable (_ → ∀ window ∈ (pool.agents event.1).counted,
    ∀ counter ∈ pool.shared.counters window.key, _))

variable {d : HotUrlDetector} {outcome : Outcome} {phase : ConsumePhase} {s : HotnessWorld}

/-! ## One move -/

theorem reached_compare (window : HotWindow) (count : Nat) :
    (d.compare window count).reached d.threshold =
      (ConsumePhase.expiring window (some count)).reached d.threshold := by
  unfold HotUrlDetector.compare
  by_cases hcount : count = d.threshold
  · rw [if_neg (not_not.2 hcount), hcount]
    exact (if_pos rfl).symm
  · rw [if_pos hcount]
    exact (if_neg fun h => hcount (Option.some.inj h)).symm

/-- What a move does to the counters, and what number the call holds after it. -/
theorem commands_consume (d : HotUrlDetector) (outcome : Outcome) (phase : ConsumePhase)
    (s : HotnessWorld) :
    Commands s.counters (d.move outcome phase s).2.counters s.clock
      (if outcome = .failedBefore then none else phase.counted.map HotWindow.key)
      (phase.reached d.threshold) ((d.move outcome phase s).1.reached d.threshold) := by
  cases phase with
  | received payload =>
    cases payload with
    | none => exact .inl ⟨rfl, .inl rfl⟩
    | some event => exact .inl ⟨rfl, .inl rfl⟩
  | incrementing window =>
    cases outcome with
    | answered =>
      refine .inr (.inr ⟨window.key, rfl, rfl, ?_⟩)
      simp only [HotUrlDetector.move, ConsumePhase.reached]
      split_ifs with hcount
      · rw [Option.some.inj hcount]
        exact .inl rfl
      · exact .inr rfl
    | failedBefore => exact .inl ⟨rfl, .inl rfl⟩
    | failedAfter => exact .inr (.inr ⟨window.key, rfl, rfl, .inr rfl⟩)
  | expiring window count =>
    cases outcome with
    | answered =>
      refine .inr (.inl ⟨window.key, d.windowSeconds * 2, ?_⟩)
      cases count with
      | none => exact ⟨rfl, .inr rfl⟩
      | some count => exact ⟨rfl, .inl (reached_compare window count)⟩
    | failedBefore => exact .inl ⟨rfl, .inr rfl⟩
    | failedAfter => exact .inr (.inl ⟨window.key, d.windowSeconds * 2, rfl, .inr rfl⟩)
  | acting hot actions =>
    cases actions with
    | nil => exact .inl ⟨rfl, .inl rfl⟩
    | cons action rest => exact .inl ⟨rfl, .inl rfl⟩
  | done fired => exact .inl ⟨rfl, .inl rfl⟩

/-! ## Runs -/

/-- The calls that have come to the threshold hold different numbers. -/
def ThresholdsNumbered (d : HotUrlDetector) (pool : Consumers ι) : Prop :=
  Numbered pool.shared.counters fun i => (pool.agents i).reached d.threshold

variable {pool : Consumers ι} {event : ι × ConsumeAnswer}

theorem reached_of_fired {threshold : Nat} {hot : HotUrl} (h : phase.fired = some hot) :
    phase.reached threshold = some (hot.window.key, threshold) := by
  cases phase with
  | acting hot' actions =>
    cases h
    rfl
  | done fired =>
    cases h
    rfl
  | received payload => cases h
  | incrementing window => cases h
  | expiring window count => cases h

theorem ThresholdsNumbered.firesOnce (h : ThresholdsNumbered d pool) : FiresOnce pool := by
  intro i j hot hot' hi hj hwindow
  have hheld : (pool.agents j).reached d.threshold = some (hot'.window.key, d.threshold) :=
    reached_of_fired hj
  rw [← hwindow] at hheld
  exact h.once i j _ (reached_of_fired hi) hheld

/-- A counter that is gone short of the threshold has given no call the threshold. -/
theorem ThresholdsNumbered.unheld (h : ThresholdsNumbered d pool) {key : String} {counter : Counter}
    (hcounter : pool.shared.counters key = some counter) (hshort : counter.value < d.threshold) (i : ι)
    (n : Nat) : (pool.agents i).reached d.threshold ≠ some (key, n) := by
  intro hheld
  obtain ⟨-, counter', hcounter', hle⟩ := h.counted i key n hheld
  rw [hcounter, Option.some.injEq] at hcounter'
  have hn : n = d.threshold := by
    unfold ConsumePhase.reached at hheld
    split at hheld
    · split_ifs at hheld
      cases hheld
      rfl
    · cases hheld
      rfl
    · obtain ⟨hot, -, heq⟩ := Option.map_eq_some_iff.1 hheld
      cases heq
      rfl
    · cases hheld
    · cases hheld
  rw [hn, ← hcounter'] at hle
  omega

variable [DecidableEq ι]

theorem ThresholdsNumbered.step (h : ThresholdsNumbered d pool) (hguard : CountedAlive d pool event) :
    ThresholdsNumbered d (pool.step (ConsumePhase.move d) event) := by
  have hcommands := commands_consume d event.2.outcome (pool.agents event.1)
    (pool.shared.wait event.2.delay)
  have hsame : (pool.step (ConsumePhase.move d) event).agents event.1 =
      (d.move event.2.outcome (pool.agents event.1) (pool.shared.wait event.2.delay)).1 :=
    Pool.agents_step_same
  rw [← hsame] at hcommands
  refine Numbered.commands h hcommands (fun key hkey => ?_) fun j hj => by rw [Pool.agents_step_of_ne hj]
  split_ifs at hkey with hfailed
  · cases hkey
  · obtain ⟨window, hwindow, rfl⟩ := Option.map_eq_some_iff.1 hkey
    cases hcounter : pool.shared.counters window.key with
    | none =>
      refine .inl fun counter hmem => ?_
      have hsome : pool.shared.counters window.key = some counter := hmem
      rw [hcounter] at hsome
      cases hsome
    | some counter =>
      rcases hguard hfailed window hwindow counter hcounter with hlive | hshort
      · refine .inl fun counter' hmem => ?_
        have hsome : pool.shared.counters window.key = some counter' := hmem
        rw [hcounter] at hsome
        cases hsome
        exact hlive
      · exact .inr fun i n => h.unheld hcounter hshort i n

/-- In whatever order and with whatever delays clicks are processed, and whatever Redis fails: the
actions run at most once for a window of a URL, as long as no click is counted after the counter of its
window has come to the threshold and gone. -/
theorem hot_once_while_counted_alive (d : HotUrlDetector) (payloads : ι → Option ClickEvent) (clock : Int)
    (events : List (ι × ConsumeAnswer))
    (hguard : Run.Guarded (Pool.step (ConsumePhase.move d)) (CountedAlive d)
      (consumersFrom payloads clock) events) :
    ∀ pool ∈ List.scanl (Pool.step (ConsumePhase.move d)) (consumersFrom payloads clock) events,
      FiresOnce pool := by
  have hstart : ThresholdsNumbered d (consumersFrom payloads clock) := Numbered.nothing fun _ => rfl
  intro pool hpool
  exact (Run.forall_mem_scanl (P := ThresholdsNumbered d) (fun _ _ h hguard => h.step hguard) hstart
    hguard pool hpool).firesOnce

/-- Two clicks within a minute make a URL hot. -/
def twoClicks : HotUrlDetector where
  threshold := 2
  windowSeconds := 60
  actions := ["LogHotUrlAction"]

/-- Four clicks of one second. -/
def fourClicks : Nat → Option ClickEvent := fun _ => some { shortCode := "abc", enqueuedAt := 0 }

/-- A click is processed from beginning to end. -/
def processed (i : Nat) (delay : Nat) : List (Nat × ConsumeAnswer) :=
  [(i, ⟨delay, .answered⟩), (i, ⟨0, .answered⟩), (i, ⟨0, .answered⟩), (i, ⟨0, .answered⟩),
    (i, ⟨0, .answered⟩)]

/-- Two of the clicks are processed at once, and the others after a delay. -/
def backlog (delay : Nat) : List (Nat × ConsumeAnswer) :=
  processed 0 0 ++ processed 1 0 ++ processed 2 delay ++ processed 3 0

theorem hot_once_while_counted_alive_soon :
    Run.Guarded (Pool.step (ConsumePhase.move twoClicks)) (CountedAlive twoClicks)
        (consumersFrom fourClicks 0) (backlog 60000000) ∧
      ∀ pool ∈ List.scanl (Pool.step (ConsumePhase.move twoClicks)) (consumersFrom fourClicks 0)
        (backlog 60000000), FiresOnce pool :=
  ⟨by decide +kernel, hot_once_while_counted_alive twoClicks fourClicks 0 (backlog 60000000)
    (by decide +kernel)⟩

/-- Three minutes later the counter is gone, and the window is hot once more. -/
theorem hot_again_after_backlog :
    ∃ pool ∈ List.scanl (Pool.step (ConsumePhase.move twoClicks)) (consumersFrom fourClicks 0)
      (backlog 180000000), ¬ FiresOnce pool := by
  refine ⟨(backlog 180000000).foldl (Pool.step (ConsumePhase.move twoClicks))
    (consumersFrom fourClicks 0), by simp [backlog, processed], fun h => ?_⟩
  have hsame := h 1 3 ⟨"default", "abc", 2, 0⟩ ⟨"default", "abc", 2, 0⟩ (by decide +kernel)
    (by decide +kernel) rfl
  exact absurd hsame (by decide)

end Spoo
