import Spoo.Lib.Agents
import Spoo.Repositories.ScheduledTaskRepository

/-!
# The task runner (`services/scheduler/`)

Any number of runners claim due tasks from the one collection and run them, and operators ask for
runs. A runner reads the clock and writes the store one step at a time; what it holds in between is
its phase. The log records claims, runs and requests.
-/

namespace Spoo

open Agents

/-- `ScheduledTask`, without the function it runs. -/
structure ScheduledTask where
  name : String
  schedule : Option String
  enabledDefault : Bool := true
  deriving DecidableEq, Repr

/-- What the runners are built on. -/
structure SchedulerLib where
  /-- `next(CronSim(schedule, now))`. -/
  nextOccurrence : String → Int → Int
  /-- The ids that `uuid4` yields. -/
  uuid4 : Nat → String

/-- What a process registers. -/
structure RunnerConfig where
  registry : List ScheduledTask
  leaseSeconds : Nat := 600
  deriving DecidableEq, Repr

/-- `TaskRegistry.get`. -/
def RunnerConfig.get (cfg : RunnerConfig) (name : String) : Option ScheduledTask :=
  cfg.registry.find? (·.name = name)

/-- `compute_next_run` (`registry.py:37-47`). -/
def computeNextRun (lib : SchedulerLib) (schedule : Option String) (now : Int) : Option Int :=
  schedule.map (lib.nextOccurrence · now)

/-- What the collection does not keep. -/
inductive TaskEntry (ι : Type) where
  | claimed (who : ι) (name token : String)
  | started (who : ι) (name : String) (startedAt : Int)
  | invoked (name : String) (requestedAt : Int)
  deriving DecidableEq, Repr

/-- The collection, the clock, how many ids have been drawn, and the log, the newest entry first. -/
structure TaskWorld (ι : Type) where
  tasks : TaskStore
  clock : Int
  issued : Nat := 0
  log : List (TaskEntry ι) := []

/-- Where a runner stands. -/
inductive RunnerPhase where
  | booting
  | ensuring (task : ScheduledTask) (rest : List ScheduledTask) (bootedAt : Int)
  | reconciling (task : ScheduledTask) (rest : List ScheduledTask) (bootedAt : Int)
  | polling
  | claiming (now : Int)
  | claimed (row : ScheduledTaskDoc)
  | running (row : ScheduledTaskDoc) (startedAt : Int)
  | finishing (row : ScheduledTaskDoc) (result : TaskRunResult)
  deriving DecidableEq, Repr

/-- A runner, or someone who asks for runs, with the task and the time that are being written. -/
inductive TaskAgent where
  | runner (phase : RunnerPhase)
  | operator (request : Option (String × Int))
  deriving DecidableEq, Repr

/-- What comes with a move. -/
inductive TaskChoice where
  | go
  /-- The task returns, or raises, after this many milliseconds. -/
  | return (status : TaskRunStatus) (durationMs : Nat) (detail : Option String)
  | invoke (name : String)
  /-- The store raises, and nothing is written. -/
  | fail
  | crash
  deriving DecidableEq, Repr

/-- The time since the last move of anyone, and what comes with this one. -/
structure TaskAnswer where
  delay : Nat
  choice : TaskChoice
  deriving DecidableEq, Repr

/-- `_DETAIL_MAX`. -/
def detailMax : Nat := 500

namespace TaskScheduler

variable {ι : Type} (lib : SchedulerLib)

/-- The loop of `sync_registry` (`runner.py:94-106`). -/
def syncNext (bootedAt : Int) : List ScheduledTask → RunnerPhase
  | [] => .polling
  | task :: rest => .ensuring task rest bootedAt

/-- Where the two loops of `run` stand after an exception (`runner.py:47-90`). -/
def afterFailure : RunnerPhase → RunnerPhase
  | .booting => .booting
  | .ensuring .. => .booting
  | .reconciling .. => .booting
  | .running row startedAt => .running row startedAt
  | _ => .polling

/-- One move of a runner (`runner.py:47-149`). -/
def move (cfg : RunnerConfig) (who : ι) (choice : TaskChoice) (phase : RunnerPhase)
    (s : TaskWorld ι) : RunnerPhase × TaskWorld ι :=
  match phase with
  | .booting => (syncNext s.clock cfg.registry, s)
  | .ensuring task rest bootedAt =>
    (.reconciling task rest bootedAt, { s with
      tasks := ScheduledTaskRepository.ensureTask s.tasks task.name task.schedule
        task.enabledDefault (computeNextRun lib task.schedule bootedAt) s.clock })
  | .reconciling task rest bootedAt =>
    (syncNext bootedAt rest, { s with
      tasks := ScheduledTaskRepository.reconcileSchedule s.tasks task.name task.schedule
        (computeNextRun lib task.schedule bootedAt) s.clock })
  | .polling => (.claiming s.clock, s)
  | .claiming now =>
    match ScheduledTaskRepository.claimDue s.tasks (cfg.registry.map (·.name)) cfg.leaseSeconds
        (lib.uuid4 s.issued) now with
    | (none, _) => (.polling, s)
    | (some row, tasks) =>
      (.claimed row, { s with
        tasks
        issued := s.issued + 1
        log := .claimed who row.id (lib.uuid4 s.issued) :: s.log })
  | .claimed row =>
    match cfg.get row.id with
    | none => (.polling, s)
    | some _ => (.running row s.clock, { s with log := .started who row.id s.clock :: s.log })
  | .running row startedAt =>
    match choice with
    | .return status durationMs detail =>
      (.finishing row {
        finishedAt := s.clock
        status
        durationMs
        detail := detail.map fun detail => String.ofList (detail.toList.take detailMax) }, s)
    | _ => (.running row startedAt, s)
  | .finishing row result =>
    match cfg.get row.id with
    | none => (.polling, s)
    | some task =>
      (.polling, { s with
        tasks := ScheduledTaskRepository.finishRun s.tasks row.id row.claimToken result
          task.schedule (computeNextRun lib task.schedule result.finishedAt) s.clock })

/-- The write of a run-now request. -/
def invoke (name : String) (now : Int) (s : TaskWorld ι) : TaskWorld ι :=
  match ScheduledTaskRepository.invokeNow s.tasks name now with
  | (true, tasks) => { s with tasks, log := .invoked name s.clock :: s.log }
  | (false, tasks) => { s with tasks }

end TaskScheduler

/-- The clock goes on. -/
def TaskWorld.wait {ι : Type} (s : TaskWorld ι) (delay : Nat) : TaskWorld ι :=
  { s with clock := s.clock + delay }

/-- One move of an agent. A crash leaves nothing of what a runner held, and it boots again. -/
def TaskAgent.move {ι : Type} (lib : SchedulerLib) (cfg : ι → RunnerConfig) :
    Move ι TaskAnswer TaskAgent (TaskWorld ι) :=
  fun who answer agent s =>
    match agent, answer.choice with
    | .operator none, .invoke name =>
      (.operator (some (name, (s.wait answer.delay).clock)), s.wait answer.delay)
    | .operator (some (name, now)), .go =>
      (.operator none, TaskScheduler.invoke name now (s.wait answer.delay))
    | .operator _, _ => (.operator none, s.wait answer.delay)
    | .runner phase, .fail => (.runner (TaskScheduler.afterFailure phase), s.wait answer.delay)
    | .runner _, .crash => (.runner .booting, s.wait answer.delay)
    | .runner phase, choice =>
      let moved := TaskScheduler.move lib (cfg who) who choice phase (s.wait answer.delay)
      (.runner moved.1, moved.2)

end Spoo
