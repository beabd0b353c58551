import Spoo.Lib.Agents
import Spoo.Lib.Redis
import Spoo.Services.Safety.Analyzer

/-!
# AdmissionPolicy (`services/safety/admission.py`)

The rule between screening and investigation. A call of `decide` that has a budget reads the date,
increments the counter of its pool and day, has the counter expire if it is the first, and compares.
-/

namespace Spoo

open Agents Redis

/-- The pools that have a budget. -/
inductive BudgetPool where
  | report
  | shared
  deriving DecidableEq, Repr

/-- The key `safety:deep:budget:{pool}:{day}`. A day is counted from the epoch. -/
structure BudgetKey where
  pool : BudgetPool
  day : Int
  deriving DecidableEq, Repr

/-- `_BUDGET_KEY_TTL_SECONDS`. -/
def budgetKeyTtlSeconds : Nat := 2 * 24 * 3600

/-- A day in microseconds. -/
def dayMicros : Int := 86400000000

/-- The day of a time, in UTC. -/
def utcDay (now : Int) : Int := now / dayMicros

/-- `AdmissionDecision`. -/
structure AdmissionDecision where
  admitted : Bool
  reason : String
  deriving DecidableEq, Repr

/-- What an `AdmissionPolicy` is built from. -/
structure AdmissionPolicy where
  dailyBudget : Nat
  reportDailyBudget : Nat := 200
  admitSweeps : Bool := false
  deriving DecidableEq, Repr

/-- The counters, and the clock. -/
structure AdmissionWorld where
  counters : Counters BudgetKey
  clock : Int

/-- The clock goes on. -/
def AdmissionWorld.wait (s : AdmissionWorld) (delay : Nat) : AdmissionWorld :=
  { s with clock := s.clock + delay }

/-- A call of `decide`. One that has ended keeps what its `INCR` answered. -/
inductive DecidePhase where
  | called (event : SafetyAnalyzeEvent) (escalation : Bool)
  | incrementing (key : BudgetKey) (budget : Nat)
  | expiring (key : BudgetKey) (budget used : Nat)
  | decided (decision : AdmissionDecision) (charge : Option (BudgetKey × Nat))
  deriving DecidableEq, Repr

/-- The time since the last move of anyone, and what a Redis command comes to. -/
structure DecideAnswer where
  delay : Nat
  outcome : Outcome
  deriving DecidableEq, Repr

namespace AdmissionPolicy

variable (p : AdmissionPolicy)

def budget : BudgetPool → Nat
  | .report => p.reportDailyBudget
  | .shared => p.dailyBudget

/-- The pool a trigger is charged to, or the decision that needs none (`admission.py:80-91`). -/
def route (trigger : String) (escalation : Bool) : AdmissionDecision ⊕ BudgetPool :=
  if trigger = "edit" then .inl ⟨true, "always"⟩
  else if trigger = "report" then .inr .report
  else if trigger = "sweep" && !p.admitSweeps && !escalation then .inl ⟨false, "sweep_excluded"⟩
  else if trigger ∈ ["pattern", "hot", "redirect"] ∨ trigger = "sweep" then .inr .shared
  else .inl ⟨false, "unknown_trigger"⟩

/-- The comparison at the end. -/
def compare (key : BudgetKey) (budget used : Nat) : DecidePhase :=
  if budget < used then .decided ⟨false, "budget_exhausted"⟩ (some (key, used))
  else .decided ⟨true, "within_budget"⟩ (some (key, used))

/-- What the `except` makes of a failed command. -/
def unavailable : DecidePhase := .decided ⟨false, "budget_unavailable"⟩ none

/-- One move of a call of `decide` (`admission.py:74-110`). -/
def move (outcome : Outcome) (phase : DecidePhase) (s : AdmissionWorld) :
    DecidePhase × AdmissionWorld :=
  match phase with
  | .called event escalation =>
    match p.route event.trigger escalation with
    | .inl decision => (.decided decision none, s)
    | .inr pool => (.incrementing ⟨pool, utcDay s.clock⟩ (p.budget pool), s)
  | .incrementing key budget =>
    let answer := s.counters.incr key s.clock
    match outcome with
    | .failedBefore => (unavailable, s)
    | .failedAfter => (unavailable, { s with counters := answer.2 })
    | .answered =>
      (if answer.1 = 1 then .expiring key budget answer.1 else compare key budget answer.1,
        { s with counters := answer.2 })
  | .expiring key budget used =>
    let counters := s.counters.expire key budgetKeyTtlSeconds s.clock
    match outcome with
    | .failedBefore => (unavailable, s)
    | .failedAfter => (unavailable, { s with counters })
    | .answered => (compare key budget used, { s with counters })
  | .decided decision charge => (.decided decision charge, s)

end AdmissionPolicy

/-- One move of a call. -/
def DecidePhase.move {ι : Type} (p : AdmissionPolicy) : Move ι DecideAnswer DecidePhase AdmissionWorld :=
  fun _ answer phase s => p.move answer.outcome phase (s.wait answer.delay)

end Spoo
