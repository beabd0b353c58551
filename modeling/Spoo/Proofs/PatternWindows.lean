import Spoo.Services.Safety.Scoring

/-!
# How often a window of creates fires

The marker of a window is found by a second reading of the clock. While that reading falls into the window of the
counts, the first call to find the threshold reached sets the marker of its window and fires, and the others come upon
the marker. A call that crosses the end of its window takes the marker of the next.
-/

namespace Spoo

open Agents Redis

variable {ι : Type} {d : CreationPatternScorer}

/-- The windows a call has fired for. -/
def RecordPhase.fired : RecordPhase → List PatternBucket
  | .checking _ _ fired => fired
  | .marking _ _ _ _ _ fired => fired
  | .done fired => fired
  | .called _ => []
  | .incrementing .. => []
  | .expiring .. => []

/-- The counts that a call was answered and has not dealt with. -/
def RecordPhase.held : RecordPhase → PatternCounts
  | .called _ => []
  | .incrementing _ counts _ _ => counts.getD []
  | .expiring _ counts bucket count _ => (count.toList.map fun n => (bucket, n)) ++ counts.getD []
  | .checking _ counts _ => counts
  | .marking _ bucket count _ counts _ => (bucket, count) :: counts
  | .done _ => []

/-- One call of `record_create` for every index. -/
abbrev Scorers (ι : Type) : Type := Pool ι RecordPhase PatternWorld

/-- Calls that have not begun. -/
def scorersFrom (creates : ι → CreateEvent) (clock : Int) : Scorers ι where
  agents i := .called (creates i)
  shared := ⟨fun _ => none, fun _ => none, [], clock⟩

/-- The count of a window has come to its threshold. -/
def Reached (d : CreationPatternScorer) (s : PatternWorld) (bucket : PatternBucket) : Prop :=
  d.threshold bucket.window ≤ s.counters.count bucket

/-- The call knows that the threshold of a window is reached, and has not come to the marker. -/
def RecordPhase.Awaits (d : CreationPatternScorer) (phase : RecordPhase) (bucket : PatternBucket) : Prop :=
  ∃ count, (bucket, count) ∈ phase.held ∧ d.threshold bucket.window ≤ count

/-- A window whose count has come to the threshold has fired once, or a call that knows of it is about to
go for its marker, and no other window has fired. -/
structure FiresExactly (d : CreationPatternScorer) (pool : Scorers ι) : Prop where
  once : ∀ i j bucket, bucket ∈ (pool.agents i).fired → bucket ∈ (pool.agents j).fired → i = j
  nodup : ∀ i, (pool.agents i).fired.Nodup
  reached : ∀ i, ∀ bucket ∈ (pool.agents i).fired, Reached d pool.shared bucket
  fires : ∀ bucket, Reached d pool.shared bucket →
    (∃ i, bucket ∈ (pool.agents i).fired) ∨ ∃ i, (pool.agents i).Awaits d bucket

/-- When every call is at its end, the windows that have fired are those whose count has come to the
threshold, and each has fired once. -/
theorem FiresExactly.of_done {pool : Scorers ι} (h : FiresExactly d pool)
    (hdone : ∀ i, ∃ fired, pool.agents i = .done fired) (bucket : PatternBucket) :
    (∃! i, bucket ∈ (pool.agents i).fired) ↔ Reached d pool.shared bucket := by
  constructor
  · rintro ⟨i, hi, -⟩
    exact h.reached i bucket hi
  · intro hreached
    rcases h.fires bucket hreached with ⟨i, hi⟩ | ⟨i, count, hheld, -⟩
    · exact ⟨i, hi, fun j hj => h.once j i bucket hj hi⟩
    · obtain ⟨fired, hphase⟩ := hdone i
      rw [hphase] at hheld
      cases hheld

/-- The next move comes in time: the clock is read for a marker in the window of the counts, and a command
does not come upon a key that has expired. -/
def RecordPhase.InTime (d : CreationPatternScorer) (phase : RecordPhase) (s : PatternWorld) : Prop :=
  match phase with
  | .incrementing _ _ bucket _ => s.counters.Unexpired bucket s.clock
  | .checking _ counts _ => ∀ found ∈ counts.head?, d.threshold found.1.window ≤ found.2 →
      bucketAt found.1.window s.clock = found.1.bucket
  | .marking _ _ _ marker _ _ => s.markers.Unexpired marker s.clock
  | _ => True

instance (d : CreationPatternScorer) (phase : RecordPhase) (s : PatternWorld) :
    Decidable (phase.InTime d s) :=
  match phase with
  | .incrementing .. => inferInstanceAs (Decidable (Counters.Unexpired ..))
  | .checking _ counts _ => inferInstanceAs (Decidable (∀ found ∈ counts.head?, _ → _))
  | .marking .. => inferInstanceAs (Decidable (Markers.Unexpired ..))
  | .called .. => inferInstanceAs (Decidable True)
  | .expiring .. => inferInstanceAs (Decidable True)
  | .done .. => inferInstanceAs (Decidable True)

/-- A move in time, whose command is answered. -/
def MarkedInTime (d : CreationPatternScorer) (pool : Scorers ι) (event : ι × RecordAnswer) : Prop :=
  event.2.outcome = .answered ∧
    (pool.agents event.1).InTime d (pool.shared.wait event.2.delay)

instance (d : CreationPatternScorer) (pool : Scorers ι) (event : ι × RecordAnswer) :
    Decidable (MarkedInTime d pool event) :=
  inferInstanceAs (Decidable (_ ∧ _))

/-! ## One move -/

theorem CreationPatternScorer.two_le_threshold (d : CreationPatternScorer) (window : Nat) :
    2 ≤ d.threshold window := by
  unfold threshold
  split
  · exact d.le_domainDailyThreshold
  · exact d.le_domainBurstThreshold


/-- What is known of a call whose moves were in time: no count is lost, a new count of a window is not
below the one before it, and the marker is that of the counts. -/
def RecordPhase.Intact (d : CreationPatternScorer) : RecordPhase → Prop
  | .incrementing _ counts _ _ => ∃ found, counts = some found
  | .expiring _ counts bucket count _ => ∃ found n, counts = some found ∧ count = some n ∧
      ∀ before, (bucket, before) ∈ found → before ≤ n
  | .marking _ bucket count marker _ _ => marker = bucket ∧ d.threshold bucket.window ≤ count
  | _ => True

/-- What a move in time does to the windows. -/
inductive PatternEffect (d : CreationPatternScorer) (s s' : PatternWorld) (phase phase' : RecordPhase) : Prop
    where
  | none : (∀ bucket, s'.counters.count bucket = s.counters.count bucket) → s'.markers = s.markers →
      phase'.fired = phase.fired → (∀ found ∈ phase'.held, found ∈ phase.held) →
      (∀ bucket, phase.Awaits d bucket → phase'.Awaits d bucket) → PatternEffect d s s' phase phase'
  | counts (bucket : PatternBucket) : s.counters.Unexpired bucket s.clock →
      s'.counters = (s.counters.incr bucket s.clock).2 → s'.markers = s.markers →
      phase'.fired = phase.fired →
      phase'.held = (bucket, (s.counters.incr bucket s.clock).1) :: phase.held →
      PatternEffect d s s' phase phase'
  | fires (bucket : PatternBucket) (count : Nat) (expiry : Int) : s'.counters = s.counters →
      s.markers bucket = none → s'.markers = Function.update s.markers bucket (some expiry) →
      phase'.fired = phase.fired ++ [bucket] → phase.held = (bucket, count) :: phase'.held →
      d.threshold bucket.window ≤ count → PatternEffect d s s' phase phase'
  | finds (bucket : PatternBucket) (count : Nat) : s'.counters = s.counters →
      (s.markers bucket).isSome = true → s'.markers = s.markers → phase'.fired = phase.fired →
      phase.held = (bucket, count) :: phase'.held → PatternEffect d s s' phase phase'

variable {s : PatternWorld} {phase : RecordPhase}

@[simp] theorem fired_afterExpire (event : CreateEvent) (counts : Option PatternCounts)
    (pending : List PatternBucket) :
    (CreationPatternScorer.afterExpire event counts pending).fired = [] := by
  cases pending <;> cases counts <;> rfl

@[simp] theorem held_afterExpire (event : CreateEvent) (counts : PatternCounts)
    (pending : List PatternBucket) :
    (CreationPatternScorer.afterExpire event (some counts) pending).held = counts := by
  cases pending <;> rfl

theorem intact_afterExpire (event : CreateEvent) (counts : PatternCounts) (pending : List PatternBucket) :
    (CreationPatternScorer.afterExpire event (some counts) pending).Intact d := by
  cases pending with
  | nil => trivial
  | cons bucket pending => exact ⟨counts, rfl⟩

theorem effect_move (hintact : phase.Intact d)
    (hheld : ∀ found ∈ phase.held, found.2 ≤ s.counters.count found.1) (htime : phase.InTime d s) :
    PatternEffect d s (d.move .answered phase s).2 phase (d.move .answered phase s).1 ∧
      (d.move .answered phase s).1.Intact d := by
  cases phase with
  | called event =>
    simp only [CreationPatternScorer.move]
    split
    · exact ⟨.none (fun _ => rfl) rfl rfl (fun _ h => h) (fun _ h => h), trivial⟩
    · exact ⟨.none (fun _ => rfl) rfl rfl (fun _ h => h) (fun _ h => h), [], rfl⟩
  | incrementing event counts bucket pending =>
    obtain ⟨found, rfl⟩ := hintact
    refine ⟨.counts bucket htime rfl rfl rfl rfl, found, _, rfl, rfl, fun before hbefore => ?_⟩
    have hle : before ≤ s.counters.count bucket := hheld _ hbefore
    rw [Counters.incr_of_unexpired htime]
    omega
  | expiring event counts bucket count pending =>
    obtain ⟨found, n, rfl, rfl, hbefore⟩ := hintact
    refine ⟨.none (fun _ => Counters.count_expire) rfl ?_ ?_ ?_, intact_afterExpire ..⟩
    · exact fired_afterExpire ..
    · intro answer hanswer
      have hmem : answer ∈ (CreationPatternScorer.afterExpire event
        (some (PyDict.assignEntry bucket n found)) pending).held := hanswer
      rw [held_afterExpire] at hmem
      rcases PyDict.eq_or_mem_of_mem_assignEntry hmem with rfl | hold
      · exact List.mem_cons_self
      · exact List.mem_cons_of_mem _ hold
    · rintro other ⟨m, hm, hle⟩
      have hassigned : ∃ k, (other, k) ∈ PyDict.assignEntry bucket n found ∧ m ≤ k := by
        by_cases hother : other = bucket
        · subst hother
          refine ⟨n, PyDict.mem_assignEntry_self .., ?_⟩
          rcases List.mem_cons.1 hm with heq | hold
          · cases heq
            exact le_refl n
          · exact hbefore m hold
        · rcases List.mem_cons.1 hm with heq | hold
          · exact absurd (Prod.ext_iff.1 heq).1 hother
          · exact ⟨m, PyDict.mem_assignEntry_of_ne hother hold, le_refl m⟩
      obtain ⟨k, hk, hmk⟩ := hassigned
      have hmem : (other, k) ∈ (CreationPatternScorer.afterExpire event
        (some (PyDict.assignEntry bucket n found)) pending).held := by rwa [held_afterExpire]
      exact ⟨k, hmem, hle.trans hmk⟩
  | checking event counts fired =>
    cases counts with
    | nil => exact ⟨.none (fun _ => rfl) rfl rfl (fun _ h => h) (fun _ h => h), trivial⟩
    | cons found counts =>
      obtain ⟨bucket, count⟩ := found
      simp only [CreationPatternScorer.move]
      split
      · rename_i hbelow
        refine ⟨.none (fun _ => rfl) rfl rfl (fun _ h => List.mem_cons_of_mem _ h) ?_, trivial⟩
        rintro other ⟨m, hm, hle⟩
        rcases List.mem_cons.1 hm with heq | hrest
        · cases heq
          omega
        · exact ⟨m, hrest, hle⟩
      · rename_i hreached
        have hle : d.threshold bucket.window ≤ count := Nat.le_of_not_lt hreached
        refine ⟨.none (fun _ => rfl) rfl rfl (fun _ h => h) (fun _ h => h), ?_, hle⟩
        rw [htime (bucket, count) rfl hle]
  | marking event bucket count marker counts fired =>
    obtain ⟨rfl, hle⟩ := hintact
    simp only [CreationPatternScorer.move]
    rcases Markers.setNx_cases htime with ⟨hnone, hset⟩ | ⟨hsome, hset⟩
    · rw [hset]
      exact ⟨.fires marker count _ rfl hnone rfl rfl rfl hle, trivial⟩
    · rw [hset]
      exact ⟨.finds marker count rfl hsome rfl rfl rfl, trivial⟩
  | done fired => exact ⟨.none (fun _ => rfl) rfl rfl (fun _ h => h) (fun _ h => h), trivial⟩

/-! ## Runs -/

/-- What holds of the calls, the counters and the markers while every move is in time. -/
structure WindowsSound (d : CreationPatternScorer) (pool : Scorers ι) : Prop extends FiresExactly d pool where
  intact : ∀ i, (pool.agents i).Intact d
  held : ∀ i, ∀ found ∈ (pool.agents i).held, found.2 ≤ pool.shared.counters.count found.1
  marked : ∀ bucket, (pool.shared.markers bucket).isSome = true ↔ ∃ i, bucket ∈ (pool.agents i).fired

theorem windowsSound_from (creates : ι → CreateEvent) (clock : Int) :
    WindowsSound d (scorersFrom creates clock) where
  once _ _ _ hi := (List.not_mem_nil hi).elim
  nodup _ := List.nodup_nil
  reached _ _ hi := (List.not_mem_nil hi).elim
  fires bucket hreached := by
    have hzero : d.threshold bucket.window ≤ 0 := hreached
    have htwo : 2 ≤ d.threshold bucket.window := d.two_le_threshold bucket.window
    omega
  intact _ := trivial
  held _ _ hi := (List.not_mem_nil hi).elim
  marked bucket := ⟨fun h => (Bool.false_ne_true h).elim, fun ⟨_, hi⟩ => (List.not_mem_nil hi).elim⟩

variable {pool after : Scorers ι} {who : ι} {delay : Nat}

/-- A move by which no window fires. -/
theorem WindowsSound.of_same_fired (h : WindowsSound d pool)
    (hfired : ∀ i, (after.agents i).fired = (pool.agents i).fired)
    (hmarkers : after.shared.markers = pool.shared.markers)
    (hcount : ∀ bucket, pool.shared.counters.count bucket ≤ after.shared.counters.count bucket)
    (hintact : ∀ i, (after.agents i).Intact d)
    (hheld : ∀ i, ∀ found ∈ (after.agents i).held, found.2 ≤ after.shared.counters.count found.1)
    (hfires : ∀ bucket, Reached d after.shared bucket →
      (∃ i, bucket ∈ (pool.agents i).fired) ∨ ∃ i, (after.agents i).Awaits d bucket) :
    WindowsSound d after where
  once i j bucket hi hj := by
    rw [hfired] at hi hj
    exact h.once i j bucket hi hj
  nodup i := by
    rw [hfired]
    exact h.nodup i
  reached i bucket hi := by
    rw [hfired] at hi
    exact (h.reached i bucket hi).trans (hcount bucket)
  fires bucket hreached := by
    simp only [hfired]
    exact hfires bucket hreached
  intact := hintact
  held := hheld
  marked bucket := by
    simp only [hmarkers, hfired]
    exact h.marked bucket

/-- The others wait for what they waited for, and so does the call that moves. -/
theorem awaits_after (hothers : ∀ i, i ≠ who → after.agents i = pool.agents i) {bucket : PatternBucket}
    (hmoved : (pool.agents who).Awaits d bucket → (after.agents who).Awaits d bucket)
    (h : ∃ i, (pool.agents i).Awaits d bucket) : ∃ i, (after.agents i).Awaits d bucket := by
  obtain ⟨i, hi⟩ := h
  by_cases hwho : i = who
  · rw [hwho] at hi
    exact ⟨who, hmoved hi⟩
  · exact ⟨i, by rwa [hothers i hwho]⟩

/-- The call has dealt with the count of one window. -/
theorem awaits_of_held_cons {phase' : RecordPhase} {bucket other : PatternBucket} {count : Nat}
    (hheld : phase.held = (bucket, count) :: phase'.held) (hother : other ≠ bucket)
    (h : phase.Awaits d other) : phase'.Awaits d other := by
  obtain ⟨n, hn, hle⟩ := h
  rw [hheld] at hn
  rcases List.mem_cons.1 hn with heq | hrest
  · exact absurd (Prod.ext_iff.1 heq).1 hother
  · exact ⟨n, hrest, hle⟩

theorem held_after (h : WindowsSound d pool) (hothers : ∀ i, i ≠ who → after.agents i = pool.agents i)
    (hcount : ∀ bucket, pool.shared.counters.count bucket ≤ after.shared.counters.count bucket)
    (hown : ∀ found ∈ (after.agents who).held, found.2 ≤ after.shared.counters.count found.1) (i : ι) :
    ∀ found ∈ (after.agents i).held, found.2 ≤ after.shared.counters.count found.1 := by
  by_cases hi : i = who
  · rwa [hi]
  · rw [hothers i hi]
    exact fun found hfound => (h.held i found hfound).trans (hcount found.1)

/-- A new count is held by the call that got it. -/
theorem WindowsSound.of_counts (h : WindowsSound d pool) {bucket : PatternBucket} {now : Int}
    (hothers : ∀ i, i ≠ who → after.agents i = pool.agents i) (hintact : ∀ i, (after.agents i).Intact d)
    (hfired : ∀ i, (after.agents i).fired = (pool.agents i).fired)
    (hunexpired : pool.shared.counters.Unexpired bucket now)
    (hcounters : after.shared.counters = (pool.shared.counters.incr bucket now).2)
    (hmarkers : after.shared.markers = pool.shared.markers)
    (hnew : (after.agents who).held =
      (bucket, (pool.shared.counters.incr bucket now).1) :: (pool.agents who).held) :
    WindowsSound d after := by
  have hle (other : PatternBucket) :
      pool.shared.counters.count other ≤ after.shared.counters.count other := by
    rw [hcounters]
    exact Counters.count_le_incr hunexpired other
  have hself : after.shared.counters.count bucket = (pool.shared.counters.incr bucket now).1 := by
    rw [hcounters]
    exact Counters.count_incr_self
  refine h.of_same_fired hfired hmarkers hle hintact (held_after h hothers hle fun found hfound => ?_) ?_
  · rw [hnew] at hfound
    rcases List.mem_cons.1 hfound with rfl | hold
    · exact hself.ge
    · exact (h.held who found hold).trans (hle found.1)
  · intro other hreached
    by_cases hother : other = bucket
    · subst hother
      refine .inr ⟨who, _, ?_, hreached⟩
      rw [hnew, hself]
      exact List.mem_cons_self
    · have hbefore : Reached d pool.shared other := by
        unfold Reached at hreached ⊢
        rwa [hcounters, Counters.count_incr_of_ne hother] at hreached
      refine (h.fires other hbefore).imp_right (awaits_after hothers ?_)
      rintro ⟨n, hn, hreach⟩
      exact ⟨n, by rw [hnew]; exact List.mem_cons_of_mem _ hn, hreach⟩

/-- A marker that is there is one of a window that has fired. -/
theorem WindowsSound.of_finds (h : WindowsSound d pool) {bucket : PatternBucket} {count : Nat}
    (hothers : ∀ i, i ≠ who → after.agents i = pool.agents i) (hintact : ∀ i, (after.agents i).Intact d)
    (hfired : ∀ i, (after.agents i).fired = (pool.agents i).fired)
    (hcounters : after.shared.counters = pool.shared.counters)
    (hmarkers : after.shared.markers = pool.shared.markers)
    (hsome : (pool.shared.markers bucket).isSome = true)
    (hcons : (pool.agents who).held = (bucket, count) :: (after.agents who).held) :
    WindowsSound d after := by
  have hcount (other : PatternBucket) :
      after.shared.counters.count other = pool.shared.counters.count other := by rw [hcounters]
  refine h.of_same_fired hfired hmarkers (fun other => (hcount other).ge) hintact
    (held_after h hothers (fun other => (hcount other).ge) fun found hfound => ?_) ?_
  · rw [hcount]
    refine h.held who found ?_
    rw [hcons]
    exact List.mem_cons_of_mem _ hfound
  · intro other hreached
    by_cases hother : other = bucket
    · rw [hother]
      exact .inl ((h.marked bucket).1 hsome)
    · have hbefore : Reached d pool.shared other := hreached.trans (hcount other).le
      exact (h.fires other hbefore).imp_right (awaits_after hothers (awaits_of_held_cons hcons hother))

/-- A window whose marker was not there has not fired, and fires now. -/
theorem WindowsSound.of_fires (h : WindowsSound d pool) {bucket : PatternBucket} {count : Nat} {expiry : Int}
    (hothers : ∀ i, i ≠ who → after.agents i = pool.agents i) (hintact : ∀ i, (after.agents i).Intact d)
    (hcounters : after.shared.counters = pool.shared.counters)
    (hnone : pool.shared.markers bucket = none)
    (hmarkers : after.shared.markers = Function.update pool.shared.markers bucket (some expiry))
    (hfired : (after.agents who).fired = (pool.agents who).fired ++ [bucket])
    (hcons : (pool.agents who).held = (bucket, count) :: (after.agents who).held)
    (hreach : d.threshold bucket.window ≤ count) : WindowsSound d after := by
  have hcount (other : PatternBucket) :
      after.shared.counters.count other = pool.shared.counters.count other := by rw [hcounters]
  have hunfired (i : ι) : bucket ∉ (pool.agents i).fired := by
    intro hi
    have hsome := (h.marked bucket).2 ⟨i, hi⟩
    rw [hnone] at hsome
    cases hsome
  have hmem {i : ι} {other : PatternBucket} :
      other ∈ (after.agents i).fired ↔ (i = who ∧ other = bucket) ∨ other ∈ (pool.agents i).fired := by
    by_cases hwho : i = who
    · rw [hwho, hfired, List.mem_append, List.mem_singleton, or_comm]
      simp
    · rw [hothers i hwho]
      simp [hwho]
  have hnow : bucket ∈ (after.agents who).fired := hmem.2 (.inl ⟨rfl, rfl⟩)
  have honce (i j : ι) (other : PatternBucket) (hi : other ∈ (after.agents i).fired)
      (hj : other ∈ (after.agents j).fired) : i = j := by
    rcases hmem.1 hi with ⟨rfl, rfl⟩ | hi'
    · rcases hmem.1 hj with ⟨rfl, -⟩ | hj'
      · rfl
      · exact absurd hj' (hunfired j)
    · rcases hmem.1 hj with ⟨rfl, rfl⟩ | hj'
      · exact absurd hi' (hunfired i)
      · exact h.once i j other hi' hj'
  have hnodup (i : ι) : (after.agents i).fired.Nodup := by
    by_cases hi : i = who
    · rw [hi, hfired, List.nodup_append]
      refine ⟨h.nodup who, List.nodup_singleton _, fun other hother other' hother' heq => ?_⟩
      rw [List.mem_singleton] at hother'
      rw [heq, hother'] at hother
      exact hunfired who hother
    · rw [hothers i hi]
      exact h.nodup i
  have hreached (i : ι) (other : PatternBucket) (hi : other ∈ (after.agents i).fired) :
      Reached d after.shared other := by
    unfold Reached
    rw [hcount]
    rcases hmem.1 hi with ⟨-, rfl⟩ | hi'
    · refine hreach.trans (h.held who (other, count) ?_)
      rw [hcons]
      exact List.mem_cons_self
    · exact h.reached i other hi'
  have hfires (other : PatternBucket) (hother : Reached d after.shared other) :
      (∃ i, other ∈ (after.agents i).fired) ∨ ∃ i, (after.agents i).Awaits d other := by
    by_cases heq : other = bucket
    · rw [heq]
      exact .inl ⟨who, hnow⟩
    · have hbefore : Reached d pool.shared other := hother.trans (hcount other).le
      rcases h.fires other hbefore with ⟨i, hi⟩ | hawaits
      · exact .inl ⟨i, hmem.2 (.inr hi)⟩
      · exact .inr (awaits_after hothers (awaits_of_held_cons hcons heq) hawaits)
  have hheld := held_after h hothers (fun other => (hcount other).ge) fun found hfound => by
    rw [hcount]
    refine h.held who found ?_
    rw [hcons]
    exact List.mem_cons_of_mem _ hfound
  refine ⟨⟨honce, hnodup, hreached, hfires⟩, hintact, hheld, fun other => ?_⟩
  rw [hmarkers]
  by_cases hother : other = bucket
  · rw [hother, Function.update_self]
    exact ⟨fun _ => ⟨who, hnow⟩, fun _ => rfl⟩
  · rw [Function.update_of_ne hother, h.marked other]
    simp [hmem, hother]

theorem WindowsSound.of_effect (h : WindowsSound d pool)
    (heffect : PatternEffect d (pool.shared.wait delay) after.shared (pool.agents who) (after.agents who))
    (hintact : (after.agents who).Intact d)
    (hothers : ∀ i, i ≠ who → after.agents i = pool.agents i) : WindowsSound d after := by
  have hall (i : ι) : (after.agents i).Intact d := by
    by_cases hi : i = who
    · rwa [hi]
    · rw [hothers i hi]
      exact h.intact i
  have hsame (hown : (after.agents who).fired = (pool.agents who).fired) (i : ι) :
      (after.agents i).fired = (pool.agents i).fired := by
    by_cases hi : i = who
    · rw [hi, hown]
    · rw [hothers i hi]
  cases heffect with
  | none hcount hmarkers hfired hheld hawaits =>
    have hle (bucket : PatternBucket) :
        pool.shared.counters.count bucket ≤ after.shared.counters.count bucket := (hcount bucket).ge
    refine h.of_same_fired (hsame hfired) hmarkers hle hall (held_after h hothers hle ?_) ?_
    · exact fun found hfound => (h.held who found (hheld found hfound)).trans (hle found.1)
    · intro bucket hreached
      have hbefore : Reached d pool.shared bucket := hreached.trans (hcount bucket).le
      exact (h.fires bucket hbefore).imp_right (awaits_after hothers (hawaits bucket))
  | counts bucket hunexpired hcounters hmarkers hfired hnew =>
    exact h.of_counts hothers hall (hsame hfired) hunexpired hcounters hmarkers hnew
  | finds bucket count hcounters hsome hmarkers hfired hcons =>
    exact h.of_finds hothers hall (hsame hfired) hcounters hmarkers hsome hcons
  | fires bucket count expiry hcounters hnone hmarkers hfired hcons hreach =>
    exact h.of_fires hothers hall hcounters hnone hmarkers hfired hcons hreach

variable [DecidableEq ι]

theorem WindowsSound.step {event : ι × RecordAnswer} (h : WindowsSound d pool)
    (hguard : MarkedInTime d pool event) : WindowsSound d (pool.step (RecordPhase.move d) event) := by
  obtain ⟨who, delay, outcome⟩ := event
  obtain ⟨hanswered, htime⟩ := hguard
  dsimp only at hanswered htime
  subst hanswered
  have hheld : ∀ found ∈ (pool.agents who).held,
      found.2 ≤ (pool.shared.wait delay).counters.count found.1 := h.held who
  have hown : (pool.step (RecordPhase.move d) (who, ⟨delay, .answered⟩)).agents who =
      (d.move .answered (pool.agents who) (pool.shared.wait delay)).1 := Pool.agents_step_same
  obtain ⟨heffect, hintact⟩ := effect_move (h.intact who) hheld htime
  rw [← hown] at heffect hintact
  exact h.of_effect heffect hintact fun i hi => Pool.agents_step_of_ne hi

/-- In whatever order calls of `record_create` go on, and with whatever delays: while every marker is
found in the window of its counts, no command comes upon an expired key and Redis answers, a window fires
once as soon as its count comes to the threshold, and never before. -/
theorem windows_fire_exactly (d : CreationPatternScorer) (creates : ι → CreateEvent) (clock : Int)
    (events : List (ι × RecordAnswer))
    (hguard : Run.Guarded (Pool.step (RecordPhase.move d)) (MarkedInTime d) (scorersFrom creates clock)
      events) :
    ∀ pool ∈ List.scanl (Pool.step (RecordPhase.move d)) (scorersFrom creates clock) events,
      FiresExactly d pool := by
  intro pool hpool
  exact (Run.forall_mem_scanl (P := WindowsSound d) (fun _ _ h hguard => h.step hguard)
    (windowsSound_from creates clock) hguard pool hpool).toFiresExactly

/-- Two creates in ten minutes make a burst. -/
def twoCreates : CreationPatternScorer where
  domainBurstThreshold := 2

/-- Creates of one domain. -/
def evilCreates : Nat → CreateEvent := fun _ =>
  { url := "https://evil.com/x", host := "evil.com", registrableDomain := "evil.com" }

/-- A call from beginning to end, with a delay before it reads the clock for the marker of the burst. -/
def createRun (i : Nat) (delay : Nat) : List (Nat × RecordAnswer) :=
  List.replicate 5 (i, ⟨0, .answered⟩) ++ [(i, ⟨delay, .answered⟩)] ++ List.replicate 3 (i, ⟨0, .answered⟩)

/-- Three calls in the last second of a window, the third with a delay. -/
def burstEnd (delay : Nat) : List (Nat × RecordAnswer) := createRun 0 0 ++ createRun 1 0 ++ createRun 2 delay

theorem windows_fire_exactly_in_time :
    Run.Guarded (Pool.step (RecordPhase.move twoCreates)) (MarkedInTime twoCreates)
        (scorersFrom evilCreates 599000000) (burstEnd 999999) ∧
      ∀ pool ∈ List.scanl (Pool.step (RecordPhase.move twoCreates)) (scorersFrom evilCreates 599000000)
        (burstEnd 999999), FiresExactly twoCreates pool :=
  ⟨by decide +kernel, windows_fire_exactly twoCreates evilCreates 599000000 (burstEnd 999999)
    (by decide +kernel)⟩

/-- The third call goes for its marker in the next window, and the window it has counted in fires again. -/
theorem fires_again_over_boundary :
    ∃ pool ∈ List.scanl (Pool.step (RecordPhase.move twoCreates)) (scorersFrom evilCreates 599000000)
      (burstEnd 1000000), ¬ FiresExactly twoCreates pool := by
  refine ⟨(burstEnd 1000000).foldl (Pool.step (RecordPhase.move twoCreates))
    (scorersFrom evilCreates 599000000), by simp [burstEnd, createRun], fun h => ?_⟩
  have hsame := h.once 1 2 ⟨600, "evil.com", 0⟩ (by decide +kernel) (by decide +kernel)
  exact absurd hsame (by decide)

end Spoo
