import Mathlib.Data.List.Nodup
import Mathlib.Data.List.Perm.Subperm
import Mathlib.Data.List.Range
import Mathlib.Logic.Function.Basic

/-!
# Redis counters

A counter is a key with a value and, once `EXPIRE` was called on it, the time at which it goes. An
expired key is as good as absent: the next `INCR` starts from nothing. Times are in microseconds.

As long as no `INCR` comes upon an expired key, the answers that the callers got are numbered through:
no two callers hold the same one.
-/

namespace Redis

/-- What is stored under a key. -/
structure Counter where
  value : Nat
  expiresAt : Option Int := none
  deriving DecidableEq, Repr

def Counter.isLive (counter : Counter) (now : Int) : Bool := counter.expiresAt.all (now < ·)

/-- What a command comes to: it is answered, or it fails before or after the server has run it. -/
inductive Outcome where
  | answered
  | failedBefore
  | failedAfter
  deriving DecidableEq, Repr

abbrev Counters (κ : Type) : Type := κ → Option Counter

namespace Counters

variable {κ : Type} {counters : Counters κ} {key other : κ} {now : Int} {seconds : Nat}

/-- What the server finds under a key. -/
def get (counters : Counters κ) (key : κ) (now : Int) : Option Counter :=
  (counters key).filter (·.isLive now)

/-- An `INCR` of the key would not come upon an expired counter. -/
def Unexpired (counters : Counters κ) (key : κ) (now : Int) : Prop :=
  ∀ counter ∈ counters key, counter.isLive now = true

instance (counters : Counters κ) (key : κ) (now : Int) : Decidable (counters.Unexpired key now) :=
  inferInstanceAs (Decidable (∀ counter ∈ counters key, _))

theorem get_of_unexpired (h : counters.Unexpired key now) : counters.get key now = counters key := by
  unfold get
  cases hcounter : counters key with
  | none => rfl
  | some counter => rw [Option.filter_some, h counter hcounter, if_pos rfl]

theorem eq_of_get {counter : Counter} (h : counters.get key now = some counter) :
    counters key = some counter ∧ counter.isLive now = true :=
  Option.filter_eq_some_iff.1 h

variable [DecidableEq κ]

/-- `INCR`. -/
def incr (counters : Counters κ) (key : κ) (now : Int) : Nat × Counters κ :=
  match counters.get key now with
  | some counter =>
    (counter.value + 1,
      Function.update counters key (some { counter with value := counter.value + 1 }))
  | none => (1, Function.update counters key (some ⟨1, none⟩))

/-- `EXPIRE`: nothing is done to a key that is not there. -/
def expire (counters : Counters κ) (key : κ) (seconds : Nat) (now : Int) : Counters κ :=
  match counters.get key now with
  | some counter =>
    Function.update counters key (some { counter with expiresAt := some (now + seconds * 1000000) })
  | none => counters

theorem incr_of_ne (h : other ≠ key) : (counters.incr key now).2 other = counters other := by
  unfold incr
  split <;> exact Function.update_of_ne h _ _

/-- The answer is what the counter stands at afterwards. -/
theorem incr_self : ∃ counter, (counters.incr key now).2 key = some counter ∧
    counter.value = (counters.incr key now).1 := by
  unfold incr
  split <;> exact ⟨_, Function.update_self .., rfl⟩

theorem one_le_incr : 1 ≤ (counters.incr key now).1 := by
  unfold incr
  split
  · exact Nat.le_add_left 1 _
  · exact le_refl 1

/-- The answer goes beyond what an unexpired counter stood at. -/
theorem value_lt_incr (h : counters.Unexpired key now) {counter : Counter}
    (hcounter : counters key = some counter) : counter.value < (counters.incr key now).1 := by
  unfold incr
  rw [get_of_unexpired h, hcounter]
  exact Nat.lt_succ_self _

/-- What the counter of a key looks like after an `INCR`: it keeps its expiry, or is new and has none. -/
theorem incr_cases {counter : Counter} (h : (counters.incr key now).2 other = some counter) :
    counters other = some counter ∨ other = key ∧
      ((∃ before, counters key = some before ∧ counter.expiresAt = before.expiresAt) ∨
        counter.expiresAt = none) := by
  by_cases hkey : other = key
  · subst hkey
    refine .inr ⟨rfl, ?_⟩
    unfold incr at h
    cases hget : counters.get other now with
    | some before =>
      simp only [hget, Function.update_self, Option.some.injEq] at h
      exact .inl ⟨before, (eq_of_get hget).1, by rw [← h]⟩
    | none =>
      simp only [hget, Function.update_self, Option.some.injEq] at h
      exact .inr (by rw [← h])
  · rw [incr_of_ne hkey] at h
    exact .inl h

/-- What the counter of a key looks like after an `EXPIRE`. -/
theorem expire_cases {counter : Counter} (h : counters.expire key seconds now other = some counter) :
    counters other = some counter ∨
      other = key ∧ counter.expiresAt = some (now + seconds * 1000000) := by
  unfold expire at h
  cases hget : counters.get key now with
  | some before =>
    simp only [hget] at h
    by_cases hkey : other = key
    · subst hkey
      rw [Function.update_self, Option.some.injEq] at h
      exact .inr ⟨rfl, by rw [← h]⟩
    · rw [Function.update_of_ne hkey] at h
      exact .inl h
  | none =>
    simp only [hget] at h
    exact .inl h

/-- No value is lost to an `EXPIRE`. -/
theorem expire_of_some {before : Counter} (h : counters other = some before) :
    ∃ counter, counters.expire key seconds now other = some counter ∧
      counter.value = before.value := by
  unfold expire
  cases hget : counters.get key now with
  | some found =>
    by_cases hkey : other = key
    · subst hkey
      rw [(eq_of_get hget).1, Option.some.injEq] at h
      exact ⟨_, Function.update_self .., by rw [← h]⟩
    · exact ⟨before, by rw [← h]; exact Function.update_of_ne hkey _ _, rfl⟩
  | none => exact ⟨before, h, rfl⟩

/-! ### Where a counter stands -/

/-- What the counter of a key stands at, expired or not. -/
def count (counters : Counters κ) (key : κ) : Nat := ((counters key).map Counter.value).getD 0

/-- An `INCR` that comes upon no expired counter goes on counting. -/
theorem incr_of_unexpired (h : counters.Unexpired key now) :
    (counters.incr key now).1 = counters.count key + 1 := by
  unfold incr count
  rw [get_of_unexpired h]
  cases counters key <;> rfl

theorem count_incr_self : (counters.incr key now).2.count key = (counters.incr key now).1 := by
  obtain ⟨counter, hcounter, hvalue⟩ : ∃ counter, (counters.incr key now).2 key = some counter ∧
      counter.value = (counters.incr key now).1 := incr_self
  rw [count, hcounter, Option.map_some, Option.getD_some, hvalue]

theorem count_incr_of_ne (h : other ≠ key) : (counters.incr key now).2.count other = counters.count other := by
  rw [count, incr_of_ne h, count]

theorem count_le_incr (h : counters.Unexpired key now) (other : κ) :
    counters.count other ≤ (counters.incr key now).2.count other := by
  by_cases hkey : other = key
  · rw [hkey, count_incr_self, incr_of_unexpired h]
    exact Nat.le_add_right _ 1
  · rw [count_incr_of_ne hkey]

@[simp] theorem count_expire : (counters.expire key seconds now).count other = counters.count other := by
  unfold expire
  cases hget : counters.get key now with
  | none => rfl
  | some counter =>
    by_cases hkey : other = key
    · rw [count, count, hkey, (eq_of_get hget).1]
      simp
    · rw [count, count]
      dsimp only
      rw [Function.update_of_ne hkey]

end Counters

/-! ## Markers -/

/-- Keys that `SET NX EX` puts there, each with the time at which it goes. -/
abbrev Markers (κ : Type) : Type := κ → Option Int

namespace Markers

variable {κ : Type} {markers : Markers κ} {key other : κ} {now : Int} {seconds : Nat}

/-- A `SET NX` of the key would not come upon an expired marker. -/
def Unexpired (markers : Markers κ) (key : κ) (now : Int) : Prop := ∀ expiry ∈ markers key, now < expiry

instance (markers : Markers κ) (key : κ) (now : Int) : Decidable (markers.Unexpired key now) :=
  inferInstanceAs (Decidable (∀ expiry ∈ markers key, _))

variable [DecidableEq κ]

/-- `SET NX EX`: whether the key was set. -/
def setNx (markers : Markers κ) (key : κ) (seconds : Nat) (now : Int) : Bool × Markers κ :=
  if (markers key).any (now < ·) then (false, markers)
  else (true, Function.update markers key (some (now + seconds * 1000000)))

/-- A marker is set where there was none, or is there and the `SET` is refused. -/
theorem setNx_cases (h : markers.Unexpired key now) :
    (markers key = none ∧ markers.setNx key seconds now =
        (true, Function.update markers key (some (now + seconds * 1000000)))) ∨
      (markers key).isSome = true ∧ markers.setNx key seconds now = (false, markers) := by
  unfold setNx
  cases hkey : markers key with
  | none => exact .inl ⟨rfl, rfl⟩
  | some expiry =>
    have hlive : now < expiry := h expiry hkey
    exact .inr ⟨rfl, by simp [hlive]⟩

end Markers

/-- What a caller does in one step: nothing to the counters, an `EXPIRE`, or an `INCR` of `sent`. It keeps
the answer it holds, or the one it gets, or loses it. -/
def Commands {κ : Type} [DecidableEq κ] (counters counters' : Counters κ) (now : Int) (sent : Option κ)
    (held held' : Option (κ × Nat)) : Prop :=
  (counters' = counters ∧ (held' = held ∨ held' = none)) ∨
    (∃ key seconds, counters' = counters.expire key seconds now ∧ (held' = held ∨ held' = none)) ∨
    ∃ key, sent = some key ∧ counters' = (counters.incr key now).2 ∧
      (held' = some (key, (counters.incr key now).1) ∨ held' = none)

/-! ## The answers that the callers hold -/

/-- The answer each caller holds is one that its counter has given, and no other caller holds it. -/
structure Numbered {κ ι : Type} (counters : Counters κ) (held : ι → Option (κ × Nat)) : Prop where
  counted : ∀ i key n, held i = some (key, n) →
    1 ≤ n ∧ ∃ counter, counters key = some counter ∧ n ≤ counter.value
  once : ∀ i j answer, held i = some answer → held j = some answer → i = j

namespace Numbered

variable {κ ι : Type} {counters : Counters κ} {held held' : ι → Option (κ × Nat)} {key : κ} {now : Int}
  {seconds : Nat}

/-- Callers that hold nothing. -/
theorem nothing (h : ∀ i, held i = none) : Numbered counters held where
  counted i _ _ hi := by rw [h i] at hi; cases hi
  once i _ _ hi _ := by rw [h i] at hi; cases hi

/-- Answers that are given up leave the others numbered. -/
theorem mono (h : Numbered counters held) (hheld : ∀ i, held' i = held i ∨ held' i = none) :
    Numbered counters held' := by
  have hold (i : ι) {answer : κ × Nat} (hi : held' i = some answer) : held i = some answer := by
    rcases hheld i with hsame | hnone
    · rw [← hsame, hi]
    · rw [hnone] at hi
      cases hi
  exact ⟨fun i key n hi => h.counted i key n (hold i hi),
    fun i j answer hi hj => h.once i j answer (hold i hi) (hold j hj)⟩

/-- No more callers than `limit` hold answers up to it. -/
theorem length_le (h : Numbered counters held) {limit : Nat} {callers : List ι}
    (hnodup : callers.Nodup) (hheld : ∀ i ∈ callers, ∃ n ≤ limit, held i = some (key, n)) :
    callers.length ≤ limit := by
  have hnumbers : (callers.map fun i => ((held i).map Prod.snd).getD 0).Nodup := by
    refine List.Nodup.map_on (fun i hi j hj heq => ?_) hnodup
    obtain ⟨n, -, hin⟩ := hheld i hi
    obtain ⟨m, -, hjm⟩ := hheld j hj
    rw [hin, hjm] at heq
    have hnm : n = m := heq
    exact h.once i j _ hin (by rw [hjm, hnm])
  have hrange : ∀ n ∈ callers.map (fun i => ((held i).map Prod.snd).getD 0),
      n ∈ List.range' 1 limit := by
    intro n hn
    obtain ⟨i, hi, rfl⟩ := List.mem_map.1 hn
    obtain ⟨m, hm, him⟩ := hheld i hi
    have hpos : 1 ≤ m := (h.counted i key m him).1
    rw [him, List.mem_range'_1]
    exact ⟨hpos, Nat.lt_one_add_iff.2 hm⟩
  have hle : (callers.map fun i => ((held i).map Prod.snd).getD 0).length ≤
      (List.range' 1 limit).length := (List.subperm_of_subset hnumbers hrange).length_le
  rwa [List.length_map, List.length_range'] at hle

variable [DecidableEq κ]

theorem expire (h : Numbered counters held) : Numbered (counters.expire key seconds now) held where
  counted i other n hi := by
    obtain ⟨hpos, before, hbefore, hle⟩ := h.counted i other n hi
    obtain ⟨counter, hcounter, hvalue⟩ : ∃ counter, counters.expire key seconds now other = some counter ∧
        counter.value = before.value := Counters.expire_of_some hbefore
    exact ⟨hpos, counter, hcounter, hvalue ▸ hle⟩
  once := h.once

/-- A caller takes the answer of an `INCR`, or loses it, and the others keep theirs. The counter is not
expired, or no one holds an answer of it. -/
theorem incr (h : Numbered counters held)
    (hlive : counters.Unexpired key now ∨ ∀ i n, held i ≠ some (key, n)) {i : ι}
    (hi : held' i = some (key, (counters.incr key now).1) ∨ held' i = none)
    (hothers : ∀ j, j ≠ i → held' j = held j) : Numbered (counters.incr key now).2 held' := by
  -- An answer that was given before is less than the new one.
  have hold (j : ι) (hj : j ≠ i) {other : κ} {n : Nat} (hheld : held' j = some (other, n)) :
      1 ≤ n ∧ (∃ counter, (counters.incr key now).2 other = some counter ∧ n ≤ counter.value) ∧
        (other = key → n < (counters.incr key now).1) := by
    rw [hothers j hj] at hheld
    obtain ⟨hpos, before, hbefore, hle⟩ := h.counted j other n hheld
    by_cases hkey : other = key
    · subst hkey
      obtain ⟨counter, hcounter, hvalue⟩ : ∃ counter, (counters.incr other now).2 other = some counter ∧
          counter.value = (counters.incr other now).1 := Counters.incr_self
      have hunexpired := hlive.resolve_right fun hnone => hnone j n hheld
      have hlt := Counters.value_lt_incr hunexpired hbefore
      exact ⟨hpos, ⟨counter, hcounter, by omega⟩, fun _ => by omega⟩
    · exact ⟨hpos, ⟨before, by rw [Counters.incr_of_ne hkey, hbefore], hle⟩, fun heq => absurd heq hkey⟩
  have hnew {other : κ} {n : Nat} (hheld : held' i = some (other, n)) :
      other = key ∧ n = (counters.incr key now).1 := by
    rcases hi with hi | hi <;> rw [hi] at hheld <;> cases hheld
    exact ⟨rfl, rfl⟩
  constructor
  · intro j other n hheld
    by_cases hj : j = i
    · subst hj
      obtain ⟨rfl, rfl⟩ := hnew hheld
      obtain ⟨counter, hcounter, hvalue⟩ : ∃ counter, (counters.incr other now).2 other = some counter ∧
          counter.value = (counters.incr other now).1 := Counters.incr_self
      exact ⟨Counters.one_le_incr, counter, hcounter, hvalue.ge⟩
    · have ⟨hpos, hcounter, _⟩ := hold j hj hheld
      exact ⟨hpos, hcounter⟩
  · rintro j k ⟨other, n⟩ hj hk
    by_cases hji : j = i <;> by_cases hki : k = i
    · rw [hji, hki]
    · subst hji
      obtain ⟨rfl, rfl⟩ := hnew hj
      have := (hold k hki hk).2.2 rfl
      omega
    · subst hki
      obtain ⟨rfl, rfl⟩ := hnew hk
      have := (hold j hji hj).2.2 rfl
      omega
    · rw [hothers j hji] at hj
      rw [hothers k hki] at hk
      exact h.once j k _ hj hk

/-- One step of a caller: an `INCR` that it sends does not come upon an expired counter, or no one holds an
answer of that counter. -/
theorem commands {counters' : Counters κ} {sent : Option κ} {i : ι} (h : Numbered counters held)
    (hcommands : Commands counters counters' now sent (held i) (held' i))
    (hlive : ∀ key ∈ sent, counters.Unexpired key now ∨ ∀ i n, held i ≠ some (key, n))
    (hothers : ∀ j, j ≠ i → held' j = held j) : Numbered counters' held' := by
  have hkept (hi : held' i = held i ∨ held' i = none) (j : ι) : held' j = held j ∨ held' j = none := by
    by_cases hj : j = i
    · exact hj ▸ hi
    · exact .inl (hothers j hj)
  rcases hcommands with ⟨rfl, hi⟩ | ⟨key, seconds, rfl, hi⟩ | ⟨key, hsent, rfl, hi⟩
  · exact h.mono (hkept hi)
  · exact h.expire.mono (hkept hi)
  · exact h.incr (hlive key hsent) hi hothers

end Numbered

end Redis
