import Spoo.Services.Safety.Admission

/-!
# The daily budgets of the deep tier

A call that gets in holds a number of the counter of its pool and day, and the number is within the
budget. The numbers of one counter are given once, unless an `INCR` comes after the counter has expired
and starts it anew. That takes a call that read its date and then stood still for longer than a day.
-/

namespace Spoo

open Agents Redis

variable {ι : Type}

/-- What the `INCR` of a call answered. -/
def DecidePhase.charge : DecidePhase → Option (BudgetKey × Nat)
  | .expiring key _ used => some (key, used)
  | .decided _ charge => charge
  | .called .. => none
  | .incrementing .. => none

/-- The counter a call is about to increment. -/
def DecidePhase.counter : DecidePhase → Option BudgetKey
  | .incrementing key _ => some key
  | .called .. => none
  | .expiring .. => none
  | .decided .. => none

/-- The call waits for Redis. -/
def DecidePhase.waits : DecidePhase → Bool
  | .incrementing .. => true
  | .expiring .. => true
  | .called .. => false
  | .decided .. => false

/-- The call has not moved yet. -/
def DecidePhase.isCalled : DecidePhase → Bool
  | .called .. => true
  | _ => false

/-- The calls whose Redis step has failed, and the clock at the first move of each call. -/
structure DecideHistory (ι : Type) where
  failed : List ι := []
  began : ι → Option Int := fun _ => none

/-- What a move adds to the history. -/
def recordDecide [DecidableEq ι] (who : ι) (answer : DecideAnswer) (phase : DecidePhase)
    (s : AdmissionWorld) (_ : DecidePhase × AdmissionWorld) (history : DecideHistory ι) :
    DecideHistory ι where
  failed := if phase.waits = true ∧ answer.outcome ≠ .answered then who :: history.failed
    else history.failed
  began i := if i = who ∧ phase.isCalled = true then some (s.wait answer.delay).clock
    else history.began i

/-- One call of `decide` for every index, the world, and the history. -/
abbrev Admissions (ι : Type) : Type := Pool ι DecidePhase (AdmissionWorld × DecideHistory ι)

def admissionsStep [DecidableEq ι] (p : AdmissionPolicy) :
    Admissions ι → ι × DecideAnswer → Admissions ι :=
  Pool.step (recorded recordDecide (DecidePhase.move p))

/-- Calls that have not begun. -/
def admissionsFrom (calls : ι → SafetyAnalyzeEvent × Bool) (clock : Int) : Admissions ι where
  agents i := .called (calls i).1 (calls i).2
  shared := (⟨fun _ => none, clock⟩, {})

/-- The call was let in and charged to the pool on the day. -/
def DecidePhase.AdmittedFrom (key : BudgetKey) (phase : DecidePhase) : Prop :=
  ∃ decision used, phase = .decided decision (some (key, used)) ∧ decision.admitted = true

/-- No pool has let in more calls on a day than its budget. -/
def WithinBudgets (p : AdmissionPolicy) (pool : Admissions ι) : Prop :=
  ∀ (key : BudgetKey) (admitted : List ι), admitted.Nodup →
    (∀ i ∈ admitted, (pool.agents i).AdmittedFrom key) → admitted.length ≤ p.budget key.pool

/-- The time, in microseconds from the epoch, is in the UTC day. -/
def InDay (day time : Int) : Prop := day * 86400000000 ≤ time ∧ time < (day + 1) * 86400000000

/-- A call that is let in on a budget is charged to its pool on the UTC day of its first move. -/
def AdmissionsCharged (p : AdmissionPolicy) (calls : ι → SafetyAnalyzeEvent × Bool)
    (pool : Admissions ι) : Prop :=
  ∀ i decision charge budgetPool, p.route (calls i).1.trigger (calls i).2 = .inr budgetPool →
    pool.agents i = .decided decision charge → decision.admitted = true →
      ∃ day, (pool.agents i).AdmittedFrom ⟨budgetPool, day⟩ ∧
        ∃ start ∈ pool.shared.2.began i, InDay day start

/-- A call that Redis has failed is not let in. -/
def FailuresRefused (pool : Admissions ι) : Prop :=
  ∀ i ∈ pool.shared.2.failed, ∀ decision charge, pool.agents i = .decided decision charge →
    decision.admitted = false

/-- An `INCR` comes before the counter of its day has expired. -/
def CountedInTime (pool : Admissions ι) (event : ι × DecideAnswer) : Prop :=
  event.2.outcome ≠ .failedBefore → ∀ key ∈ (pool.agents event.1).counter,
    pool.shared.1.counters.Unexpired key (pool.shared.1.clock + event.2.delay)

instance (pool : Admissions ι) (event : ι × DecideAnswer) : Decidable (CountedInTime pool event) :=
  inferInstanceAs (Decidable (_ → ∀ key ∈ (pool.agents event.1).counter, _))

/-! ## One move -/

/-- What is known of a call: where it waits, it waits on the counter of its pool, and where it was let
in, the trigger needs no budget or its number is within it. -/
def DecidePhase.Follows (p : AdmissionPolicy) (call : SafetyAnalyzeEvent × Bool) : DecidePhase → Prop
  | .called event escalation => call = (event, escalation)
  | .incrementing key budget =>
    p.route call.1.trigger call.2 = .inr key.pool ∧ budget = p.budget key.pool
  | .expiring key budget _ =>
    p.route call.1.trigger call.2 = .inr key.pool ∧ budget = p.budget key.pool
  | .decided decision charge => decision.admitted = true →
    (p.route call.1.trigger call.2 = .inl decision ∧ charge = none) ∨
      ∃ key used, charge = some (key, used) ∧ p.route call.1.trigger call.2 = .inr key.pool ∧
        used ≤ p.budget key.pool

variable {p : AdmissionPolicy} {call : SafetyAnalyzeEvent × Bool} {key : BudgetKey} {used : Nat}
  {outcome : Outcome} {phase : DecidePhase} {s : AdmissionWorld}

@[simp] theorem charge_compare (budget : Nat) :
    (AdmissionPolicy.compare key budget used).charge = some (key, used) := by
  unfold AdmissionPolicy.compare
  split <;> rfl

theorem follows_compare (hroute : p.route call.1.trigger call.2 = .inr key.pool) :
    (AdmissionPolicy.compare key (p.budget key.pool) used).Follows p call := by
  unfold AdmissionPolicy.compare
  split_ifs with hover
  · intro hadmitted
    cases hadmitted
  · exact fun _ => .inr ⟨key, used, rfl, hroute, Nat.le_of_not_lt hover⟩

theorem follows_unavailable : AdmissionPolicy.unavailable.Follows p call := by
  intro hadmitted
  cases hadmitted

theorem move_called_inl {event : SafetyAnalyzeEvent} {escalation : Bool} {decision : AdmissionDecision}
    (h : p.route event.trigger escalation = .inl decision) :
    p.move outcome (.called event escalation) s = (.decided decision none, s) := by
  simp only [AdmissionPolicy.move, h]

theorem move_called_inr {event : SafetyAnalyzeEvent} {escalation : Bool} {budgetPool : BudgetPool}
    (h : p.route event.trigger escalation = .inr budgetPool) :
    p.move outcome (.called event escalation) s =
      (.incrementing ⟨budgetPool, utcDay s.clock⟩ (p.budget budgetPool), s) := by
  simp only [AdmissionPolicy.move, h]

theorem follows_move (h : phase.Follows p call) : (p.move outcome phase s).1.Follows p call := by
  cases phase with
  | called event escalation =>
    cases h
    cases hroute : p.route event.trigger escalation with
    | inl decision =>
      rw [move_called_inl hroute]
      exact fun _ => .inl ⟨hroute, rfl⟩
    | inr budgetPool =>
      rw [move_called_inr hroute]
      exact ⟨hroute, rfl⟩
  | incrementing key budget =>
    obtain ⟨hroute, rfl⟩ := h
    cases outcome with
    | answered =>
      simp only [AdmissionPolicy.move]
      split
      · exact ⟨hroute, rfl⟩
      · exact follows_compare hroute
    | failedBefore => exact follows_unavailable
    | failedAfter => exact follows_unavailable
  | expiring key budget used =>
    obtain ⟨hroute, rfl⟩ := h
    cases outcome with
    | answered => exact follows_compare hroute
    | failedBefore => exact follows_unavailable
    | failedAfter => exact follows_unavailable
  | decided decision charge => exact h

/-- The key of the date that the call has read. -/
def DecidePhase.dated : DecidePhase → Option BudgetKey
  | .incrementing key _ => some key
  | .expiring key _ _ => some key
  | .decided _ charge => charge.map Prod.fst
  | .called .. => none

theorem dated_compare (budget : Nat) : (AdmissionPolicy.compare key budget used).dated = some key := by
  unfold AdmissionPolicy.compare
  split <;> rfl

/-- The date that a call has read after a move is the one before, or today's after its first move. -/
theorem dated_move {key : BudgetKey} (h : key ∈ (p.move outcome phase s).1.dated) :
    key ∈ phase.dated ∨ phase.isCalled = true ∧ key.day = utcDay s.clock := by
  cases phase with
  | called event escalation =>
    cases hroute : p.route event.trigger escalation with
    | inl decision =>
      rw [move_called_inl hroute] at h
      cases h
    | inr budgetPool =>
      rw [move_called_inr hroute] at h
      cases h
      exact .inr ⟨rfl, rfl⟩
  | incrementing key' budget =>
    cases outcome with
    | answered =>
      simp only [AdmissionPolicy.move] at h
      split at h
      · exact .inl h
      · rw [dated_compare] at h
        exact .inl h
    | failedBefore => cases h
    | failedAfter => cases h
  | expiring key' budget used =>
    cases outcome with
    | answered =>
      simp only [AdmissionPolicy.move, dated_compare] at h
      exact .inl h
    | failedBefore => cases h
    | failedAfter => cases h
  | decided decision charge => exact .inl h

theorem inDay_utcDay (time : Int) : InDay (utcDay time) time :=
  ⟨Int.ediv_mul_le _ (by decide), Int.lt_ediv_add_one_mul_self _ (by decide)⟩

/-- A failed command ends the call. -/
theorem move_of_failed (hwaits : phase.waits = true) (hfailed : outcome ≠ .answered) :
    (p.move outcome phase s).1 = AdmissionPolicy.unavailable := by
  cases outcome with
  | answered => exact absurd rfl hfailed
  | failedBefore => cases phase <;> first | rfl | cases hwaits
  | failedAfter => cases phase <;> first | rfl | cases hwaits

/-- A call that has ended does not move. -/
theorem move_unavailable :
    (p.move outcome AdmissionPolicy.unavailable s).1 = AdmissionPolicy.unavailable := rfl

/-- What a move does to the counters, and what number the call holds after it. -/
theorem commands_decide (p : AdmissionPolicy) (outcome : Outcome) (phase : DecidePhase)
    (s : AdmissionWorld) :
    Commands s.counters (p.move outcome phase s).2.counters s.clock
      (if outcome = .failedBefore then none else phase.counter) phase.charge
      (p.move outcome phase s).1.charge := by
  cases phase with
  | called event escalation =>
    refine .inl ?_
    cases hroute : p.route event.trigger escalation with
    | inl decision =>
      rw [move_called_inl hroute]
      exact ⟨rfl, .inr rfl⟩
    | inr budgetPool =>
      rw [move_called_inr hroute]
      exact ⟨rfl, .inr rfl⟩
  | incrementing key budget =>
    cases outcome with
    | answered =>
      refine .inr (.inr ⟨key, rfl, rfl, .inl ?_⟩)
      simp only [AdmissionPolicy.move]
      split
      · rfl
      · rw [charge_compare]
    | failedBefore => exact .inl ⟨rfl, .inr rfl⟩
    | failedAfter => exact .inr (.inr ⟨key, rfl, rfl, .inr rfl⟩)
  | expiring key budget used =>
    cases outcome with
    | answered => exact .inr (.inl ⟨key, budgetKeyTtlSeconds, rfl, .inl (charge_compare budget)⟩)
    | failedBefore => exact .inl ⟨rfl, .inr rfl⟩
    | failedAfter => exact .inr (.inl ⟨key, budgetKeyTtlSeconds, rfl, .inr rfl⟩)
  | decided decision charge => exact .inl ⟨rfl, .inl rfl⟩

/-! ## Runs -/

/-- Every call is where its trigger leads it, with the date of its first move, and those that Redis has
failed are at their end. -/
structure AdmissionsSound (p : AdmissionPolicy) (calls : ι → SafetyAnalyzeEvent × Bool)
    (pool : Admissions ι) : Prop where
  follows : ∀ i, (pool.agents i).Follows p (calls i)
  failed : ∀ i ∈ pool.shared.2.failed, pool.agents i = AdmissionPolicy.unavailable
  dated : ∀ i, ∀ key ∈ (pool.agents i).dated, ∃ start ∈ pool.shared.2.began i, InDay key.day start

/-- The numbers that the calls hold. -/
def ChargesNumbered (pool : Admissions ι) : Prop :=
  Numbered pool.shared.1.counters fun i => (pool.agents i).charge

variable {calls : ι → SafetyAnalyzeEvent × Bool} {pool : Admissions ι} {event : ι × DecideAnswer}

theorem withinBudgets_of_numbered (hsound : AdmissionsSound p calls pool)
    (hnumbered : ChargesNumbered pool) : WithinBudgets p pool := by
  intro key admitted hnodup hadmitted
  refine hnumbered.length_le hnodup fun i hi => (?_ : ∃ n ≤ _, _ = some (key, n))
  obtain ⟨decision, used, hphase, hdecision⟩ := hadmitted i hi
  have hfollows := hsound.follows i
  rw [hphase] at hfollows
  rcases hfollows hdecision with ⟨-, hnone⟩ | ⟨key', used', hcharge, -, hle⟩
  · cases hnone
  · cases hcharge
    exact ⟨used, hle, by rw [hphase]; rfl⟩

theorem AdmissionsSound.charged (h : AdmissionsSound p calls pool) : AdmissionsCharged p calls pool := by
  intro i decision charge budgetPool hroute hphase hadmitted
  have hfollows := h.follows i
  rw [hphase] at hfollows
  rcases hfollows hadmitted with ⟨hinl, -⟩ | ⟨⟨pool', day⟩, used, hcharge, hinr, -⟩
  · rw [hroute] at hinl
    cases hinl
  · rw [hroute] at hinr
    cases hinr
    have hdated : (⟨pool', day⟩ : BudgetKey) ∈ (pool.agents i).dated := by
      rw [hphase, hcharge]
      rfl
    exact ⟨day, ⟨decision, used, by rw [hphase, hcharge], hadmitted⟩, h.dated i _ hdated⟩

theorem AdmissionsSound.refused (h : AdmissionsSound p calls pool) : FailuresRefused pool := by
  intro i hi decision charge hphase
  rw [h.failed i hi] at hphase
  cases hphase
  rfl

theorem admissionsSound_from (p : AdmissionPolicy) (calls : ι → SafetyAnalyzeEvent × Bool)
    (clock : Int) : AdmissionsSound p calls (admissionsFrom calls clock) where
  follows _ := rfl
  failed _ hi := (List.not_mem_nil hi).elim
  dated _ _ hkey := (Option.not_mem_none _ hkey).elim

variable [DecidableEq ι]

/-- The failed calls after a move. -/
theorem failed_of_step {i : ι} (h : i ∈ (admissionsStep p pool event).shared.2.failed) :
    i ∈ pool.shared.2.failed ∨
      i = event.1 ∧ (pool.agents event.1).waits = true ∧ event.2.outcome ≠ .answered := by
  change i ∈ (if (pool.agents event.1).waits = true ∧ event.2.outcome ≠ .answered then
    event.1 :: pool.shared.2.failed else pool.shared.2.failed) at h
  split_ifs at h with hnow
  · exact (List.mem_cons.1 h).symm.imp_right fun hi => ⟨hi, hnow⟩
  · exact .inl h

theorem AdmissionsSound.step (h : AdmissionsSound p calls pool) :
    AdmissionsSound p calls (admissionsStep p pool event) where
  follows := Pool.forall_agents_step (Q := fun i (phase : DecidePhase) => phase.Follows p (calls i))
    (follows_move (h.follows event.1)) fun j _ => h.follows j
  failed := by
    refine Pool.forall_agents_step
      (Q := fun i phase => i ∈ (admissionsStep p pool event).shared.2.failed →
        phase = AdmissionPolicy.unavailable) (fun hfailed => ?_) fun j hj hfailed => ?_
    · change (p.move _ (pool.agents event.1) _).1 = _
      rcases failed_of_step hfailed with hbefore | ⟨-, hwaits, hanswer⟩
      · rw [h.failed event.1 hbefore, move_unavailable]
      · exact move_of_failed hwaits hanswer
    · rcases failed_of_step hfailed with hbefore | ⟨heq, -⟩
      · exact h.failed j hbefore
      · exact absurd heq hj
  dated := by
    refine Pool.forall_agents_step (Q := fun i (phase : DecidePhase) => ∀ key ∈ phase.dated,
      ∃ start ∈ (admissionsStep p pool event).shared.2.began i, InDay key.day start)
      (fun key hkey => ?_) fun j hj key hkey => ?_
    · rcases dated_move hkey with hbefore | ⟨hcalled, htoday⟩
      · obtain ⟨start, hstart, hday⟩ := h.dated event.1 key hbefore
        have hmoved : (pool.agents event.1).isCalled = false := by
          cases hphase : pool.agents event.1 with
          | called =>
            rw [hphase] at hbefore
            cases hbefore
          | _ => rfl
        exact ⟨start, (if_neg (by simp [hmoved])).trans hstart, hday⟩
      · exact ⟨_, if_pos ⟨rfl, hcalled⟩, htoday ▸ inDay_utcDay _⟩
    · obtain ⟨start, hstart, hday⟩ := h.dated j key hkey
      exact ⟨start, (if_neg fun hboth => hj hboth.1).trans hstart, hday⟩

theorem ChargesNumbered.step (h : ChargesNumbered pool) (hguard : CountedInTime pool event) :
    ChargesNumbered (admissionsStep p pool event) := by
  have hcommands := commands_decide p event.2.outcome (pool.agents event.1)
    (pool.shared.1.wait event.2.delay)
  have hsame : (admissionsStep p pool event).agents event.1 =
      (p.move event.2.outcome (pool.agents event.1) (pool.shared.1.wait event.2.delay)).1 :=
    Pool.agents_step_same
  rw [← hsame] at hcommands
  refine Numbered.commands h hcommands (fun key hkey => ?_) fun j hj => by
    rw [admissionsStep, Pool.agents_step_of_ne hj]
  split_ifs at hkey with hfailed
  · cases hkey
  · exact .inl (hguard hfailed key hkey)

/-- In whatever order calls of `decide` go on, and whatever Redis fails: a call that Redis has failed is
not let in, one that is let in on a budget is charged to it on the UTC day of its first move, and as long
as no `INCR` comes after the counter of its day has expired, no budget is exceeded. -/
theorem admissions_within_budgets (p : AdmissionPolicy) (calls : ι → SafetyAnalyzeEvent × Bool)
    (clock : Int) (events : List (ι × DecideAnswer)) :
    (Run.Guarded (admissionsStep p) CountedInTime (admissionsFrom calls clock) events →
      ∀ pool ∈ List.scanl (admissionsStep p) (admissionsFrom calls clock) events,
        WithinBudgets p pool) ∧
      ∀ pool ∈ List.scanl (admissionsStep p) (admissionsFrom calls clock) events,
        FailuresRefused pool ∧ AdmissionsCharged p calls pool := by
  have hsound := admissionsSound_from p calls clock
  constructor
  · intro hguard pool hpool
    have hnumbered : ChargesNumbered (admissionsFrom calls clock) := Numbered.nothing fun _ => rfl
    have hinv := Run.forall_mem_scanl (P := fun pool => AdmissionsSound p calls pool ∧ ChargesNumbered pool)
      (fun _ _ h hguard => ⟨h.1.step, h.2.step hguard⟩) ⟨hsound, hnumbered⟩ hguard pool hpool
    exact withinBudgets_of_numbered hinv.1 hinv.2
  · intro pool hpool
    have hinv := Run.forall_mem_scanl_of_step (fun _ _ h => AdmissionsSound.step h) hsound pool hpool
    exact ⟨hinv.refused, hinv.charged⟩

/-- Anonymous reports of one host. -/
def reportCalls : Bool → SafetyAnalyzeEvent × Bool :=
  fun _ => ({ url := "https://evil.example/", host := "evil.example" }, false)

/-- One report a day. -/
def oneReport : AdmissionPolicy where
  dailyBudget := 1
  reportDailyBudget := 1

/-- A call gets in a second before midnight, and another one reads the date while it does. -/
def lateReports : List (Bool × DecideAnswer) :=
  [(false, ⟨0, .answered⟩), (false, ⟨0, .answered⟩), (true, ⟨0, .answered⟩), (false, ⟨0, .answered⟩)]

/-- The other call goes on at some later time. -/
def straddling (delay : Nat) : List (Bool × DecideAnswer) :=
  lateReports ++ [(true, ⟨delay, .answered⟩), (true, ⟨0, .answered⟩)]

theorem admissions_within_budgets_next_day :
    Run.Guarded (admissionsStep oneReport) CountedInTime
        (admissionsFrom reportCalls (dayMicros - 1000000)) (straddling 2000000) ∧
      ∀ pool ∈ List.scanl (admissionsStep oneReport)
        (admissionsFrom reportCalls (dayMicros - 1000000)) (straddling 2000000),
        WithinBudgets oneReport pool :=
  ⟨by decide +kernel, (admissions_within_budgets oneReport reportCalls (dayMicros - 1000000)
    (straddling 2000000)).1 (by decide +kernel)⟩

/-- The other call goes on three days later, when the counter of its day is gone. -/
theorem budget_exceeded_by_stalled_call :
    ∃ pool ∈ List.scanl (admissionsStep oneReport)
      (admissionsFrom reportCalls (dayMicros - 1000000)) (straddling 259200000000),
      ¬ WithinBudgets oneReport pool := by
  refine ⟨(straddling 259200000000).foldl (admissionsStep oneReport)
    (admissionsFrom reportCalls (dayMicros - 1000000)), by simp [straddling, lateReports], fun h => ?_⟩
  have htwo := h ⟨.report, 0⟩ [false, true] (by decide) ?_
  · exact absurd htwo (by decide)
  · intro i hi
    refine ⟨⟨true, "within_budget"⟩, 1, ?_, rfl⟩
    revert i
    decide +kernel

/-! ## A process straddling midnight -/

/-- No call has a date from the future, and no counter expires before the day after its own is over. -/
structure CountersDated (pool : Admissions ι) : Prop where
  read : ∀ i, ∀ key ∈ (pool.agents i).dated, key.day * dayMicros ≤ pool.shared.1.clock
  expires : ∀ key counter expiry, pool.shared.1.counters key = some counter →
    counter.expiresAt = some expiry → (key.day + 2) * dayMicros ≤ expiry

/-- An `INCR` comes before the day after its date is over. -/
def CountedByNextDay (pool : Admissions ι) (event : ι × DecideAnswer) : Prop :=
  ∀ key ∈ (pool.agents event.1).counter,
    pool.shared.1.clock + event.2.delay < (key.day + 2) * dayMicros

theorem clock_decided : (p.move outcome phase s).2.clock = s.clock := by
  cases phase with
  | called event escalation =>
    cases hroute : p.route event.trigger escalation with
    | inl decision => rw [move_called_inl hroute]
    | inr budgetPool => rw [move_called_inr hroute]
  | incrementing key budget => cases outcome <;> rfl
  | expiring key budget used => cases outcome <;> rfl
  | decided decision charge => rfl

/-- The expiry of a counter after a move is the one before, or two days from now, on the key of a date
that the call has read. -/
theorem expiry_move {key : BudgetKey} {counter : Counter} {expiry : Int}
    (hcounter : (p.move outcome phase s).2.counters key = some counter)
    (hexpiry : counter.expiresAt = some expiry) :
    (∃ before, s.counters key = some before ∧ before.expiresAt = some expiry) ∨
      key ∈ phase.dated ∧ expiry = s.clock + 2 * dayMicros := by
  have hincr {key' : BudgetKey} (h : (s.counters.incr key' s.clock).2 key = some counter) :
      ∃ before, s.counters key = some before ∧ before.expiresAt = some expiry := by
    rcases Counters.incr_cases h with hsame | ⟨rfl, ⟨before, hbefore, hkept⟩ | hnew⟩
    · exact ⟨counter, hsame, hexpiry⟩
    · exact ⟨before, hbefore, by rw [← hkept, hexpiry]⟩
    · rw [hnew] at hexpiry
      cases hexpiry
  have hexpire {key' : BudgetKey} {budget used : Nat}
      (h : s.counters.expire key' budgetKeyTtlSeconds s.clock key = some counter) :
      (∃ before, s.counters key = some before ∧ before.expiresAt = some expiry) ∨
        key ∈ (DecidePhase.expiring key' budget used).dated ∧ expiry = s.clock + 2 * dayMicros := by
    rcases Counters.expire_cases h with hsame | ⟨rfl, hnew⟩
    · exact .inl ⟨counter, hsame, hexpiry⟩
    · rw [hnew] at hexpiry
      cases hexpiry
      exact .inr ⟨rfl, rfl⟩
  cases phase with
  | called event escalation =>
    cases hroute : p.route event.trigger escalation with
    | inl decision =>
      rw [move_called_inl hroute] at hcounter
      exact .inl ⟨counter, hcounter, hexpiry⟩
    | inr budgetPool =>
      rw [move_called_inr hroute] at hcounter
      exact .inl ⟨counter, hcounter, hexpiry⟩
  | incrementing key' budget =>
    cases outcome with
    | answered => exact .inl (hincr hcounter)
    | failedBefore => exact .inl ⟨counter, hcounter, hexpiry⟩
    | failedAfter => exact .inl (hincr hcounter)
  | expiring key' budget used =>
    cases outcome with
    | answered => exact hexpire hcounter
    | failedBefore => exact .inl ⟨counter, hcounter, hexpiry⟩
    | failedAfter => exact hexpire hcounter
  | decided decision charge => exact .inl ⟨counter, hcounter, hexpiry⟩

theorem CountersDated.step (h : CountersDated pool) : CountersDated (admissionsStep p pool event) := by
  have hclock : (admissionsStep p pool event).shared.1.clock =
      pool.shared.1.clock + event.2.delay := clock_decided
  constructor
  · rw [hclock]
    refine Pool.forall_agents_step (Q := fun _ (phase : DecidePhase) => ∀ key ∈ phase.dated,
      key.day * dayMicros ≤ pool.shared.1.clock + event.2.delay) (fun key hkey => ?_)
      fun j _ key hkey => ?_
    · rcases dated_move hkey with hbefore | ⟨-, htoday⟩
      · have := h.read event.1 key hbefore
        omega
      · rw [htoday]
        exact Int.ediv_mul_le _ (by decide)
    · have := h.read j key hkey
      omega
  · intro key counter expiry hcounter hexpiry
    rcases expiry_move hcounter hexpiry with ⟨before, hbefore, hsame⟩ | ⟨hdated, rfl⟩
    · exact h.expires key before expiry hbefore hsame
    · have hread := h.read event.1 key hdated
      have hnow : (pool.shared.1.wait event.2.delay).clock = pool.shared.1.clock + event.2.delay := rfl
      rw [hnow, Int.add_mul]
      omega

/-- Where every `INCR` comes before the day after its date is over, none comes after the counter of its
day has expired. -/
theorem counted_in_time_of_next_day (p : AdmissionPolicy) (calls : ι → SafetyAnalyzeEvent × Bool)
    (clock : Int) {events : List (ι × DecideAnswer)}
    (h : Run.Guarded (admissionsStep p) CountedByNextDay (admissionsFrom calls clock) events) :
    Run.Guarded (admissionsStep p) CountedInTime (admissionsFrom calls clock) events := by
  refine h.mono (P := CountersDated) (fun _ _ h => h.step) (fun pool event hdated hnext => ?_) ?_
  · intro _ key hkey counter hcounter
    have hbefore := hnext key hkey
    unfold Counter.isLive
    cases hexpiry : counter.expiresAt with
    | none => rfl
    | some expiry =>
      have hafter := hdated.expires key counter expiry hcounter hexpiry
      exact decide_eq_true (by omega)
  · exact ⟨fun _ _ hkey => (Option.not_mem_none _ hkey).elim, fun _ _ _ hnone => by cases hnone⟩

end Spoo
