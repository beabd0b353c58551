import Spoo.Lib.Mongo

/-!
# The scheduled-task repository (`repositories/scheduled_task_repository.py`)

One document a task, under the name of the task. Times are in milliseconds, which is what BSON keeps
of them.
-/

namespace Spoo

open Mongo Mongo.Collection

/-- The outcome of a run (`TaskRunResult.status`). -/
inductive TaskRunStatus where
  | ok
  | error
  deriving DecidableEq, Repr

/-- `TaskRunResult`. -/
structure TaskRunResult where
  /-- `at`. -/
  finishedAt : Int
  status : TaskRunStatus
  durationMs : Nat
  detail : Option String := none
  deriving DecidableEq, Repr

/-- `ScheduledTaskDoc`. -/
structure ScheduledTaskDoc where
  id : String
  /-- A cron expression; without one the task runs by hand alone. -/
  schedule : Option String
  nextRunAt : Option Int
  claimedUntil : Option Int := none
  claimToken : Option String := none
  enabled : Bool := true
  lastRun : Option TaskRunResult := none
  updatedAt : Option Int := none
  deriving DecidableEq, Repr

instance : Document ScheduledTaskDoc String String := ⟨(·.id), (·.id)⟩

/-- The `scheduled_tasks` collection. -/
abbrev TaskStore := Collection ScheduledTaskDoc

namespace ScheduledTaskRepository

variable (tasks : TaskStore) (name : String)

/-- `ensure_task`: an upsert that only inserts. -/
def ensureTask (schedule : Option String) (enabledDefault : Bool) (nextRunAt : Option Int)
    (now : Int) : TaskStore :=
  match tasks.lookup name with
  | some _ => tasks
  | none =>
    (tasks.insertOne
      { id := name, schedule, nextRunAt, enabled := enabledDefault, updatedAt := some now }).getD
      tasks

/-- `reconcile_schedule`. -/
def reconcileSchedule (schedule : Option String) (nextRunAt : Option Int) (now : Int) : TaskStore :=
  tasks.updateOne name (fun doc => doc.schedule ≠ schedule) {
    apply := fun doc => { doc with schedule, nextRunAt, updatedAt := some now }
    id_apply := fun _ => rfl
    key_apply := fun _ => rfl }

/-- The filter of `claim_due`: a task without a next run is never due. -/
def isDue (names : List String) (now : Int) (doc : ScheduledTaskDoc) : Bool :=
  names.contains doc.id && doc.enabled && doc.nextRunAt.any (· ≤ now) &&
    doc.claimedUntil.all (· ≤ now)

/-- The document after a claim. -/
def withClaim (leaseSeconds : Nat) (token : String) (now : Int) (doc : ScheduledTaskDoc) :
    ScheduledTaskDoc :=
  { doc with
    claimedUntil := some (now + leaseSeconds * 1000)
    claimToken := some token }

/-- `claim_due` (`scheduled_task_repository.py:76-109`). -/
def claimDue (names : List String) (leaseSeconds : Nat) (token : String) (now : Int) :
    Option ScheduledTaskDoc × TaskStore :=
  match tasks.findLeast (isDue names now) (·.nextRunAt.getD 0) with
  | none => (none, tasks)
  | some doc =>
    (some (withClaim leaseSeconds token now doc), tasks.updateOne doc.id (isDue names now) {
      apply := withClaim leaseSeconds token now
      id_apply := fun _ => rfl
      key_apply := fun _ => rfl })

/-- The document after a run. A schedule that has changed meanwhile keeps its next run. -/
def withResult (result : TaskRunResult) (schedule : Option String) (nextRunAt : Option Int)
    (now : Int) (doc : ScheduledTaskDoc) : ScheduledTaskDoc :=
  { doc with
    lastRun := some result
    nextRunAt := if doc.schedule = schedule then nextRunAt else doc.nextRunAt
    claimedUntil := none
    claimToken := none
    updatedAt := some now }

/-- `finish_run` (`scheduled_task_repository.py:111-147`). -/
def finishRun (claimToken : Option String) (result : TaskRunResult) (schedule : Option String)
    (nextRunAt : Option Int) (now : Int) : TaskStore :=
  tasks.updateOne name (·.claimToken = claimToken) {
    apply := withResult result schedule nextRunAt now
    id_apply := fun _ => rfl
    key_apply := fun _ => rfl }

/-- `invoke_now`, with whether it changed anything. -/
def invokeNow (now : Int) : Bool × TaskStore :=
  ((tasks.lookup name).any (·.nextRunAt ≠ some now), tasks.updateOne name (fun _ => true) {
    apply := fun doc => { doc with nextRunAt := some now }
    id_apply := fun _ => rfl
    key_apply := fun _ => rfl })

variable {tasks name}

theorem lookup_ensureTask {schedule : Option String} {enabledDefault : Bool}
    {nextRunAt : Option Int} {now : Int} (other : String) :
    (ensureTask tasks name schedule enabledDefault nextRunAt now).lookup other =
      (tasks.lookup other).or (if name = other then some
        { id := name, schedule, nextRunAt, enabled := enabledDefault, updatedAt := some now }
        else none) := by
  unfold ensureTask
  cases hname : tasks.lookup name with
  | some doc =>
    by_cases hother : name = other
    · subst hother
      simp [hname]
    · simp [hother]
  | none =>
    cases hinsert : tasks.insertOne
        { id := name, schedule, nextRunAt, enabled := enabledDefault, updatedAt := some now } with
    | some tasks' => exact lookup_insertOne hinsert other
    | none =>
      -- A refused insert would have found the name.
      exfalso
      have hnew : name ∉ tasks.docs.map Document.id := by
        intro hmem
        obtain ⟨doc, hdoc, hid⟩ := List.mem_map.1 hmem
        rw [lookup_eq_some_iff.2 ⟨hdoc, hid⟩] at hname
        cases hname
      unfold insertOne at hinsert
      rw [dif_pos ⟨hnew, hnew⟩] at hinsert
      cases hinsert

/-- A claim takes one task that is due, or none is. -/
theorem claimDue_cases (tasks : TaskStore) (names : List String) (leaseSeconds : Nat)
    (token : String) (now : Int) :
    claimDue tasks names leaseSeconds token now = (none, tasks) ∨
    ∃ doc tasks', tasks.lookup doc.id = some doc ∧ isDue names now doc = true ∧
      claimDue tasks names leaseSeconds token now =
        (some (withClaim leaseSeconds token now doc), tasks') ∧
      tasks'.lookup doc.id = some (withClaim leaseSeconds token now doc) ∧
      ∀ other, other ≠ doc.id → tasks'.lookup other = tasks.lookup other := by
  unfold claimDue
  cases hdue : tasks.findLeast (isDue names now) (·.nextRunAt.getD 0) with
  | none => exact .inl rfl
  | some doc =>
    obtain ⟨hmem, hpass⟩ := mem_of_findLeast hdue
    have hdoc : tasks.lookup doc.id = some doc := lookup_eq_some_iff.2 ⟨hmem, rfl⟩
    refine .inr ⟨doc, _, hdoc, hpass, rfl, ?_, fun other hother => ?_⟩
    · rw [lookup_updateOne_self, hdoc, Option.map_some, applyWhere_of_matches _ hpass]
    · exact lookup_updateOne_of_ne tasks _ _ hother

end ScheduledTaskRepository

end Spoo
