import Spoo.Services.Scheduler.Runner

/-!
# Claims on scheduled tasks, and run-now requests

A claim stands until it expires or its run is finished, and one that has been superseded can write nothing. A runner
that has a claim knows its token, which no other claim has. A request arms the next run of its task. Until a run
starts, whatever writes the next run anew takes the request away with what it overwrites, unless it leaves the task
due all the same.
-/

namespace Spoo

open Agents Mongo.Collection

/-! ## Claims -/

section

variable {ι : Type}

/-- What a runner holds. -/
def RunnerPhase.row : RunnerPhase → Option ScheduledTaskDoc
  | .claimed row => some row
  | .running row _ => some row
  | .finishing row _ => some row
  | _ => none

/-- What an agent holds. -/
def TaskAgent.row : TaskAgent → Option ScheduledTaskDoc
  | .runner phase => phase.row
  | .operator _ => none

/-- The clock as an agent that is about to claim has read it. -/
def TaskAgent.readAt : TaskAgent → Option Int
  | .runner (.claiming now) => some now
  | _ => none

/-- The agent holds a claim on the task that has not expired. -/
def HoldsClaim (pool : Pool ι TaskAgent (TaskWorld ι)) (who : ι) (name : String) : Prop :=
  ∃ row, (pool.agents who).row = some row ∧ row.id = name ∧
    ∃ expiry, row.claimedUntil = some expiry ∧ pool.shared.clock < expiry

/-- The token of the last claim on a task. -/
def lastClaim (log : List (TaskEntry ι)) (name : String) : Option String :=
  log.findSome? fun
    | .claimed _ claimed token => if claimed = name then some token else none
    | _ => none

/-- Another claim has been made since. -/
def Superseded (s : TaskWorld ι) (row : ScheduledTaskDoc) : Prop :=
  lastClaim s.log row.id ≠ row.claimToken

namespace TaskWorld

variable (lib : SchedulerLib)

/-- Tokens are drawn once, each for one claim, and a token that is stored is that of the last claim,
unless it was there before. -/
structure Fenced (s : TaskWorld ι) : Prop where
  drawn : ∀ who name token, .claimed who name token ∈ s.log →
    ∃ n, n < s.issued ∧ lib.uuid4 n = token
  once : ∀ who name who' name' token, .claimed who name token ∈ s.log →
    .claimed who' name' token ∈ s.log → who = who' ∧ name = name'
  stored : ∀ name doc token, s.tasks.lookup name = some doc → doc.claimToken = some token →
    lastClaim s.log name = some token ∨ ∀ n, lib.uuid4 n ≠ token

/-- The claim of the agent is logged, and stored until it expires. -/
structure KeepsClaim (who : ι) (row : ScheduledTaskDoc) (s : TaskWorld ι) : Prop where
  logged : ∃ token, row.claimToken = some token ∧ .claimed who row.id token ∈ s.log
  stored : ∀ expiry, row.claimedUntil = some expiry → s.clock < expiry →
    ∃ doc, s.tasks.lookup row.id = some doc ∧ doc.claimToken = row.claimToken ∧
      doc.claimedUntil = some expiry

/-- What is asserted of an agent. -/
structure KeepsClaims (who : ι) (agent : TaskAgent) (s : TaskWorld ι) : Prop where
  claim : ∀ row, agent.row = some row → s.KeepsClaim who row
  past : ∀ now, agent.readAt = some now → now ≤ s.clock

/-- The tasks are claimed as they were, and no claim is logged. -/
structure SameClaims (s s' : TaskWorld ι) : Prop where
  clock : s.clock ≤ s'.clock
  issued : s'.issued = s.issued
  claims : ∀ who name token, .claimed who name token ∈ s'.log ↔ .claimed who name token ∈ s.log
  last : ∀ name, lastClaim s'.log name = lastClaim s.log name
  kept : ∀ name doc, s.tasks.lookup name = some doc → ∃ doc', s'.tasks.lookup name = some doc' ∧
    doc'.claimToken = doc.claimToken ∧ doc'.claimedUntil = doc.claimedUntil
  stored : ∀ name doc' token, s'.tasks.lookup name = some doc' → doc'.claimToken = some token →
    ∃ doc, s.tasks.lookup name = some doc ∧ doc.claimToken = some token

variable {lib} {s s' : TaskWorld ι} {who : ι} {row : ScheduledTaskDoc}

theorem SameClaims.fenced (h : SameClaims s s') (hs : s.Fenced lib) : s'.Fenced lib where
  drawn who name token hmem := by
    rw [h.issued]
    exact hs.drawn who name token ((h.claims ..).1 hmem)
  once who name who' name' token hmem hmem' :=
    hs.once who name who' name' token ((h.claims ..).1 hmem) ((h.claims ..).1 hmem')
  stored name doc' token hdoc htoken := by
    obtain ⟨doc, hold, htoken⟩ := h.stored name doc' token hdoc htoken
    rw [h.last]
    exact hs.stored name doc token hold htoken

theorem SameClaims.keepsClaim (h : SameClaims s s') (hrow : s.KeepsClaim who row) :
    s'.KeepsClaim who row where
  logged := by
    obtain ⟨token, htoken, hmem⟩ := hrow.logged
    exact ⟨token, htoken, (h.claims ..).2 hmem⟩
  stored expiry hexpiry hlive := by
    obtain ⟨doc, hdoc, htoken, huntil⟩ :=
      hrow.stored expiry hexpiry (lt_of_le_of_lt h.clock hlive)
    obtain ⟨doc', hdoc', htoken', huntil'⟩ := h.kept _ _ hdoc
    exact ⟨doc', hdoc', htoken'.trans htoken, huntil'.trans huntil⟩

theorem SameClaims.keepsClaims (h : SameClaims s s') {agent : TaskAgent}
    (hagent : s.KeepsClaims who agent) : s'.KeepsClaims who agent where
  claim row hheld := h.keepsClaim (hagent.claim row hheld)
  past now hread := (hagent.past now hread).trans h.clock

theorem SameClaims.refl (s : TaskWorld ι) : SameClaims s s where
  clock := le_rfl
  issued := rfl
  claims _ _ _ := Iff.rfl
  last _ := rfl
  kept _ doc hdoc := ⟨doc, hdoc, rfl, rfl⟩
  stored _ doc _ hdoc htoken := ⟨doc, hdoc, htoken⟩

theorem sameClaims_wait (s : TaskWorld ι) (delay : Nat) : SameClaims s (s.wait delay) :=
  { SameClaims.refl s with
    clock := by
      show s.clock ≤ s.clock + delay
      omega }

/-- A write that leaves the claims of each task, and inserts unclaimed tasks at most. -/
theorem sameClaims_of_lookup {tasks : TaskStore}
    (hkept : ∀ name doc, s.tasks.lookup name = some doc → ∃ doc', tasks.lookup name = some doc' ∧
      doc'.claimToken = doc.claimToken ∧ doc'.claimedUntil = doc.claimedUntil)
    (hnew : ∀ name doc', s.tasks.lookup name = none → tasks.lookup name = some doc' →
      doc'.claimToken = none) : SameClaims s { s with tasks } :=
  { SameClaims.refl s with
    kept := hkept
    stored := by
      intro name doc' token hdoc' htoken
      cases hdoc : s.tasks.lookup name with
      | none => rw [hnew name doc' hdoc hdoc'] at htoken; cases htoken
      | some doc =>
        obtain ⟨doc'', hsame, hclaim, -⟩ := hkept name doc hdoc
        rw [hdoc'] at hsame
        cases hsame
        exact ⟨doc, rfl, hclaim ▸ htoken⟩ }

/-- A write to one task that leaves its claim. -/
theorem sameClaims_updateOne {name : String} {q : ScheduledTaskDoc → Bool}
    {u : Mongo.KeyedUpdate ScheduledTaskDoc}
    (hu : ∀ doc, (u.apply doc).claimToken = doc.claimToken ∧
      (u.apply doc).claimedUntil = doc.claimedUntil) :
    SameClaims s { s with tasks := s.tasks.updateOne name q u } := by
  have hwhere (doc : ScheduledTaskDoc) :
      (applyWhere q u.toUpdate doc).claimToken = doc.claimToken ∧
        (applyWhere q u.toUpdate doc).claimedUntil = doc.claimedUntil :=
    ⟨field_applyWhere ScheduledTaskDoc.claimToken q u.toUpdate (fun doc => (hu doc).1) doc,
      field_applyWhere ScheduledTaskDoc.claimedUntil q u.toUpdate (fun doc => (hu doc).2) doc⟩
  refine sameClaims_of_lookup (fun other doc hdoc => ?_) fun other doc' hnone hdoc' => ?_
  · by_cases hother : other = name
    · subst hother
      exact ⟨_, by rw [lookup_updateOne_self, hdoc, Option.map_some], hwhere doc⟩
    · exact ⟨doc, by rw [lookup_updateOne_of_ne _ _ _ hother, hdoc], rfl, rfl⟩
  · by_cases hother : other = name
    · subst hother
      rw [lookup_updateOne_self, hnone] at hdoc'
      cases hdoc'
    · rw [lookup_updateOne_of_ne _ _ _ hother, hnone] at hdoc'
      cases hdoc'

/-- An entry that is no claim. -/
theorem SameClaims.log {entry : TaskEntry ι} (h : SameClaims s s')
    (hentry : ∀ who name token, entry ≠ .claimed who name token) :
    SameClaims s { s' with log := entry :: s'.log } :=
  { h with
    claims := by
      intro who name token
      rw [List.mem_cons, or_iff_right (hentry who name token).symm]
      exact h.claims who name token
    last := by
      intro name
      cases entry with
      | claimed who name token => exact absurd rfl (hentry who name token)
      | started => exact h.last name
      | invoked => exact h.last name }

/-! ## Claiming and finishing -/

theorem lastClaim_cons (log : List (TaskEntry ι)) (who : ι) (name token : String) (other : String) :
    lastClaim (.claimed who name token :: log) other =
      if name = other then some token else lastClaim log other := by
  unfold lastClaim
  rw [List.findSome?_cons]
  by_cases h : name = other <;> simp [h]

/-- The world after a claim. -/
def afterClaim (lib : SchedulerLib) (s : TaskWorld ι) (who : ι) (row : ScheduledTaskDoc)
    (tasks : TaskStore) : TaskWorld ι :=
  { s with
    tasks
    issued := s.issued + 1
    log := .claimed who row.id (lib.uuid4 s.issued) :: s.log }

section

variable {doc : ScheduledTaskDoc} {tasks : TaskStore}

theorem fenced_afterClaim (hfresh : Function.Injective lib.uuid4) (hs : s.Fenced lib)
    (htoken : row.claimToken = some (lib.uuid4 s.issued))
    (hclaimed : tasks.lookup row.id = some row)
    (hothers : ∀ other, other ≠ row.id → tasks.lookup other = s.tasks.lookup other) :
    (afterClaim lib s who row tasks).Fenced lib where
  drawn i name token hmem := by
    rcases List.mem_cons.1 hmem with heq | hold
    · cases heq
      exact ⟨s.issued, Nat.lt_succ_self _, rfl⟩
    · obtain ⟨n, hn, hdrawn⟩ := hs.drawn i name token hold
      exact ⟨n, Nat.lt_succ_of_lt hn, hdrawn⟩
  once i name j name' token hmem hmem' := by
    have hnew {i : ι} {name : String} (hold : .claimed i name (lib.uuid4 s.issued) ∈ s.log) :
        False := by
      obtain ⟨n, hn, hdrawn⟩ := hs.drawn i name _ hold
      exact absurd (hfresh hdrawn) hn.ne
    rcases List.mem_cons.1 hmem with heq | hold <;> rcases List.mem_cons.1 hmem' with heq' | hold'
    · cases heq
      cases heq'
      exact ⟨rfl, rfl⟩
    · cases heq
      exact (hnew hold').elim
    · cases heq'
      exact (hnew hold).elim
    · exact hs.once i name j name' token hold hold'
  stored name doc token hdoc hstored := by
    simp only [afterClaim] at hdoc ⊢
    rw [lastClaim_cons]
    by_cases hname : row.id = name
    · subst hname
      rw [hclaimed] at hdoc
      cases hdoc
      exact .inl (by rw [if_pos rfl, ← htoken, hstored])
    · rw [if_neg hname]
      rw [hothers name (Ne.symm hname)] at hdoc
      exact hs.stored name doc token hdoc hstored

/-- A claim that has not expired is not taken away. -/
theorem keepsClaim_afterClaim {other : ScheduledTaskDoc} {names : List String} {i : ι} {now : Int}
    (hdoc : s.tasks.lookup doc.id = some doc) (hnow : now ≤ s.clock)
    (hdue : ScheduledTaskRepository.isDue names now doc = true) (hid : row.id = doc.id)
    (hothers : ∀ other, other ≠ row.id → tasks.lookup other = s.tasks.lookup other)
    (h : s.KeepsClaim i other) : (afterClaim lib s who row tasks).KeepsClaim i other where
  logged := by
    obtain ⟨token, htoken, hmem⟩ := h.logged
    exact ⟨token, htoken, List.mem_cons_of_mem _ hmem⟩
  stored expiry hexpiry hlive := by
    obtain ⟨held, hheld, htoken, huntil⟩ := h.stored expiry hexpiry hlive
    have hne : other.id ≠ row.id := by
      intro hsame
      rw [hsame, hid, hdoc] at hheld
      cases hheld
      have hexpired : expiry ≤ now := by
        simp only [ScheduledTaskRepository.isDue, huntil, Bool.and_eq_true, Option.all_some,
          decide_eq_true_eq] at hdue
        exact hdue.2
      exact absurd hlive (not_lt.2 (hexpired.trans hnow))
    exact ⟨held, by simp only [afterClaim]; rw [hothers _ hne, hheld], htoken, huntil⟩

end

section

variable {result : TaskRunResult} {schedule : Option String} {nextRunAt : Option Int}

/-- The world after the end of a run. -/
def afterFinish (s : TaskWorld ι) (row : ScheduledTaskDoc) (result : TaskRunResult)
    (schedule : Option String) (nextRunAt : Option Int) : TaskWorld ι :=
  { s with
    tasks := ScheduledTaskRepository.finishRun s.tasks row.id row.claimToken result schedule
      nextRunAt s.clock }

/-- A finish under another token than the one that is stored does nothing. -/
theorem finishRun_of_ne {tasks : TaskStore} {now : Int}
    (h : ∀ doc, tasks.lookup row.id = some doc → doc.claimToken ≠ row.claimToken) :
    ScheduledTaskRepository.finishRun tasks row.id row.claimToken result schedule nextRunAt now =
      tasks :=
  updateOne_of_not_matches tasks _ fun doc hdoc => by simp [h doc hdoc]

theorem fenced_afterFinish (hs : s.Fenced lib) :
    (afterFinish s row result schedule nextRunAt).Fenced lib where
  drawn := hs.drawn
  once := hs.once
  stored name doc token hdoc htoken := by
    simp only [afterFinish, ScheduledTaskRepository.finishRun] at hdoc ⊢
    by_cases hname : name = row.id
    · subst hname
      rw [lookup_updateOne_self, Option.map_eq_some_iff] at hdoc
      obtain ⟨old, hold, rfl⟩ := hdoc
      by_cases hmatches : old.claimToken = row.claimToken
      · rw [applyWhere_of_matches _ (by simp [hmatches])] at htoken
        cases htoken
      · rw [applyWhere_of_not_matches _ (by simp [hmatches])] at htoken
        exact hs.stored _ old token hold htoken
    · rw [lookup_updateOne_of_ne _ _ _ hname] at hdoc
      exact hs.stored name doc token hdoc htoken

/-- A finish leaves the claims of the others. -/
theorem keepsClaim_afterFinish {other : ScheduledTaskDoc} {i : ι} (hs : s.Fenced lib)
    (hrow : s.KeepsClaim who row) (hi : i ≠ who) (h : s.KeepsClaim i other) :
    (afterFinish s row result schedule nextRunAt).KeepsClaim i other where
  logged := h.logged
  stored expiry hexpiry hlive := by
    obtain ⟨held, hheld, htoken, huntil⟩ := h.stored expiry hexpiry hlive
    refine ⟨held, ?_, htoken, huntil⟩
    simp only [afterFinish, ScheduledTaskRepository.finishRun]
    by_cases hsame : other.id = row.id
    · have hne : other.claimToken ≠ row.claimToken := by
        obtain ⟨token, hlogged, hmem⟩ := h.logged
        obtain ⟨token', hlogged', hmem'⟩ := hrow.logged
        rw [hlogged, hlogged']
        intro heq
        cases heq
        exact hi (hs.once _ _ _ _ _ hmem hmem').1
      rw [hsame] at hheld ⊢
      rw [lookup_updateOne_self, hheld, Option.map_some, applyWhere_of_not_matches]
      simp [htoken, hne]
    · rw [lookup_updateOne_of_ne _ _ _ hsame, hheld]

end

end TaskWorld

/-! ## Runs -/

section

variable {lib : SchedulerLib} {cfg : ι → RunnerConfig}

/-- What a move has to show. -/
abbrev KeepsFence (lib : SchedulerLib) (who : ι) (s : TaskWorld ι)
    (moved : TaskAgent × TaskWorld ι) : Prop :=
  Pool.Keeps (TaskWorld.Fenced lib) (fun i agent s => s.KeepsClaims i agent) who s moved

theorem keepsFence_of_same {who : ι} {agent agent' : TaskAgent} {s s' : TaskWorld ι}
    (hs : s.Fenced lib) (hagent : s.KeepsClaims who agent) (hsame : s.SameClaims s')
    (hread : ∀ now, agent'.readAt = some now → now ≤ s'.clock)
    (hrow : ∀ row, agent'.row = some row → agent.row = some row) :
    KeepsFence lib who s (agent', s') where
  shared := hsame.fenced hs
  own := ⟨fun row hheld => hsame.keepsClaim (hagent.claim row (hrow row hheld)), hread⟩
  others _ _ _ h := hsame.keepsClaims h

/-- A move after some time. -/
theorem KeepsFence.wait {who : ι} {s : TaskWorld ι} {moved : TaskAgent × TaskWorld ι} (delay : Nat)
    (h : KeepsFence lib who (s.wait delay) moved) : KeepsFence lib who s moved where
  shared := h.shared
  own := h.own
  others i agent hi hagent :=
    h.others i agent hi ((TaskWorld.sameClaims_wait s delay).keepsClaims hagent)

/-- A runner keeps what is asserted of all. -/
theorem keepsFence_move (hfresh : Function.Injective lib.uuid4) {who : ι} {choice : TaskChoice}
    {phase : RunnerPhase} {s : TaskWorld ι} (hs : s.Fenced lib)
    (hphase : s.KeepsClaims who (.runner phase)) :
    KeepsFence lib who s (.runner (TaskScheduler.move lib (cfg who) who choice phase s).1,
      (TaskScheduler.move lib (cfg who) who choice phase s).2) := by
  have hnext (bootedAt : Int) (tasks : List ScheduledTask) :
      (TaskScheduler.syncNext bootedAt tasks).row = none := by cases tasks <;> rfl
  have hread (bootedAt : Int) (tasks : List ScheduledTask) :
      (TaskAgent.runner (TaskScheduler.syncNext bootedAt tasks)).readAt = none := by
    cases tasks <;> rfl
  cases phase with
  | booting =>
    refine keepsFence_of_same hs hphase (.refl s) (fun now hnow => ?_) fun row hheld => ?_
    · exact nomatch (hread _ _).symm.trans hnow
    · exact nomatch (hnext _ _).symm.trans hheld
  | ensuring task rest bootedAt =>
    refine keepsFence_of_same hs hphase (TaskWorld.sameClaims_of_lookup ?_ ?_)
      (fun now hnow => nomatch hnow) fun row hheld => nomatch hheld
    · intro name doc hdoc
      exact ⟨doc, by rw [ScheduledTaskRepository.lookup_ensureTask, hdoc, Option.some_or], rfl, rfl⟩
    · intro name doc' hnone hdoc'
      rw [ScheduledTaskRepository.lookup_ensureTask, hnone, Option.none_or] at hdoc'
      split at hdoc'
      · cases hdoc'
        rfl
      · cases hdoc'
  | reconciling task rest bootedAt =>
    refine keepsFence_of_same hs hphase (TaskWorld.sameClaims_updateOne fun _ => ⟨rfl, rfl⟩)
      (fun now hnow => ?_) fun row hheld => ?_
    · exact nomatch (hread _ _).symm.trans hnow
    · exact nomatch (hnext _ _).symm.trans hheld
  | polling =>
    refine keepsFence_of_same hs hphase (.refl s) (fun now hnow => ?_) fun row hheld => nomatch hheld
    cases hnow
    exact le_rfl
  | claiming now =>
    simp only [TaskScheduler.move]
    rcases ScheduledTaskRepository.claimDue_cases s.tasks ((cfg who).registry.map (·.name))
      (cfg who).leaseSeconds (lib.uuid4 s.issued) now with
      hnone | ⟨doc, tasks, hdoc, hdue, hclaim, hclaimed, hothers⟩
    · rw [hnone]
      exact keepsFence_of_same hs hphase (.refl s) (fun now hnow => nomatch hnow)
        fun row hheld => nomatch hheld
    · rw [hclaim]
      refine ⟨TaskWorld.fenced_afterClaim hfresh hs rfl hclaimed hothers,
        ⟨fun row hheld => ?_, fun now hnow => nomatch hnow⟩, fun i agent hi h => ⟨?_, h.past⟩⟩
      · cases hheld
        exact ⟨⟨_, rfl, List.mem_cons_self⟩, fun expiry hexpiry _ => ⟨_, hclaimed, rfl, hexpiry⟩⟩
      · exact fun row hheld => TaskWorld.keepsClaim_afterClaim hdoc (hphase.past now rfl) hdue rfl
          hothers (h.claim row hheld)
  | claimed row =>
    simp only [TaskScheduler.move]
    cases (cfg who).get row.id with
    | none =>
      exact keepsFence_of_same hs hphase (.refl s) (fun now hnow => nomatch hnow)
        fun row hheld => nomatch hheld
    | some task =>
      exact keepsFence_of_same hs hphase ((TaskWorld.SameClaims.refl s).log nofun)
        (fun now hnow => nomatch hnow) fun _ => id
  | running row startedAt =>
    cases choice <;>
      exact keepsFence_of_same hs hphase (.refl s) (fun now hnow => nomatch hnow) fun _ => id
  | finishing row result =>
    simp only [TaskScheduler.move]
    cases (cfg who).get row.id with
    | none =>
      exact keepsFence_of_same hs hphase (.refl s) (fun now hnow => nomatch hnow)
        fun row hheld => nomatch hheld
    | some task =>
      refine ⟨TaskWorld.fenced_afterFinish hs,
        ⟨fun row hheld => (nomatch hheld), fun now hnow => nomatch hnow⟩,
        fun i agent hi h => ⟨fun other hheld => ?_, h.past⟩⟩
      exact TaskWorld.keepsClaim_afterFinish hs (hphase.claim row rfl) hi (h.claim other hheld)

theorem sameClaims_invoke (name : String) (now : Int) (s : TaskWorld ι) :
    s.SameClaims (TaskScheduler.invoke name now s) := by
  unfold TaskScheduler.invoke ScheduledTaskRepository.invokeNow
  cases (s.tasks.lookup name).any (·.nextRunAt ≠ some now) with
  | false => exact TaskWorld.sameClaims_updateOne fun _ => ⟨rfl, rfl⟩
  | true => exact (TaskWorld.sameClaims_updateOne fun _ => ⟨rfl, rfl⟩).log nofun

theorem keepsFence_agent (hfresh : Function.Injective lib.uuid4) {who : ι} {answer : TaskAnswer}
    {agent : TaskAgent} {s : TaskWorld ι} (hs : s.Fenced lib) (hagent : s.KeepsClaims who agent) :
    KeepsFence lib who s (TaskAgent.move lib cfg who answer agent s) := by
  have hwait := TaskWorld.sameClaims_wait s answer.delay
  have hwaited : (s.wait answer.delay).KeepsClaims who agent := hwait.keepsClaims hagent
  refine KeepsFence.wait answer.delay ?_
  cases agent with
  | operator request =>
    have hsame {s' : TaskWorld ι} {request' : Option (String × Int)}
        (h : (s.wait answer.delay).SameClaims s') :
        KeepsFence lib who (s.wait answer.delay) (.operator request', s') :=
      keepsFence_of_same (hwait.fenced hs) hwaited h (fun now hnow => nomatch hnow) fun _ => id
    unfold TaskAgent.move
    cases request with
    | none => cases answer.choice <;> exact hsame (.refl _)
    | some request =>
      cases answer.choice with
      | go => exact hsame (sameClaims_invoke request.1 request.2 _)
      | _ => exact hsame (.refl _)
  | runner phase =>
    unfold TaskAgent.move
    cases answer.choice with
    | crash =>
      exact keepsFence_of_same (hwait.fenced hs) hwaited (.refl _) (fun now hnow => nomatch hnow)
        fun row hheld => nomatch hheld
    | fail =>
      refine keepsFence_of_same (hwait.fenced hs) hwaited (.refl _) (fun now hnow => ?_)
        fun row hheld => ?_
      · cases phase <;> cases hnow
      · cases phase with
        | running row' startedAt => exact hheld
        | _ => cases hheld
    | _ => exact keepsFence_move hfresh (hwait.fenced hs) hwaited

end

/-- Nobody holds a task, and the tokens that are stored will not be drawn. -/
structure TasksAtRest (lib : SchedulerLib) (pool : Pool ι TaskAgent (TaskWorld ι)) : Prop where
  idle : ∀ who, (pool.agents who).row = none ∧ (pool.agents who).readAt = none
  log : pool.shared.log = []
  foreign : ∀ name doc token, pool.shared.tasks.lookup name = some doc →
    doc.claimToken = some token → ∀ n, lib.uuid4 n ≠ token

/-- After any moves at most one runner holds a claim on a task that has not expired, and the finish
of one whose claim has been superseded leaves every task as it was. -/
theorem claims_exclusive [DecidableEq ι] (lib : SchedulerLib) (cfg : ι → RunnerConfig)
    (pool : Pool ι TaskAgent (TaskWorld ι)) (events : List (ι × TaskAnswer))
    (hfresh : Function.Injective lib.uuid4) (hstart : TasksAtRest lib pool) :
    ∀ t ∈ List.scanl (Pool.step (TaskAgent.move lib cfg)) pool events,
      (∀ who who' name, HoldsClaim t who name → HoldsClaim t who' name → who = who') ∧
      ∀ who row result answer, t.agents who = .runner (.finishing row result) →
        Superseded t.shared row →
        (t.step (TaskAgent.move lib cfg) (who, answer)).shared.tasks = t.shared.tasks := by
  intro t ht
  have hsound : t.Sound (TaskWorld.Fenced lib) fun i agent s => s.KeepsClaims i agent := by
    refine Pool.Sound.forall_mem_scanl_of_step (fun pool event h =>
      keepsFence_agent hfresh h.shared (h.agents event.1)) ⟨⟨?_, ?_, ?_⟩, ?_⟩ t ht
    · intro who name token hmem
      rw [hstart.log] at hmem
      cases hmem
    · intro who name who' name' token hmem
      rw [hstart.log] at hmem
      cases hmem
    · exact fun name doc token hdoc htoken => .inr (hstart.foreign name doc token hdoc htoken)
    · refine fun who => ⟨fun row hheld => ?_, fun now hnow => ?_⟩
      · rw [(hstart.idle who).1] at hheld
        cases hheld
      · rw [(hstart.idle who).2] at hnow
        cases hnow
  constructor
  · rintro who who' name ⟨row, hrow, rfl, expiry, hexpiry, hlive⟩
      ⟨row', hrow', hsame, expiry', hexpiry', hlive'⟩
    have hkeeps := (hsound.agents who).claim row hrow
    have hkeeps' := (hsound.agents who').claim row' hrow'
    obtain ⟨doc, hdoc, htoken, -⟩ := hkeeps.stored expiry hexpiry hlive
    obtain ⟨doc', hdoc', htoken', -⟩ := hkeeps'.stored expiry' hexpiry' hlive'
    rw [hsame, hdoc] at hdoc'
    cases hdoc'
    obtain ⟨token, hlogged, hmem⟩ := hkeeps.logged
    obtain ⟨token', hlogged', hmem'⟩ := hkeeps'.logged
    rw [← htoken, htoken', hlogged'] at hlogged
    cases hlogged
    exact (hsound.shared.once _ _ _ _ _ hmem hmem').1
  · intro who row result answer hagent hsuperseded
    have hkeeps := (hsound.agents who).claim row (by rw [hagent]; rfl)
    obtain ⟨token, hlogged, hmem⟩ := hkeeps.logged
    have hne : ∀ doc, t.shared.tasks.lookup row.id = some doc → doc.claimToken ≠ row.claimToken := by
      intro doc hdoc hclaim
      rcases hsound.shared.stored _ doc token hdoc (hclaim.trans hlogged) with hlast | hforeign
      · exact hsuperseded (hlast.trans hlogged.symm)
      · obtain ⟨n, -, hdrawn⟩ := hsound.shared.drawn _ _ _ hmem
        exact hforeign n hdrawn
    rw [Pool.shared_step, hagent]
    unfold TaskAgent.move
    cases answer.choice with
    | crash => rfl
    | fail => rfl
    | _ =>
      simp only [TaskScheduler.move]
      cases (cfg who).get row.id with
      | none => rfl
      | some task => exact TaskWorld.finishRun_of_ne hne

/-- Ids in the order they are drawn. -/
def numberedIds : SchedulerLib where
  nextOccurrence _ now := now + 60000
  uuid4 n := String.ofList (Nat.toDigits 10 n)

theorem injective_numberedIds : Function.Injective numberedIds.uuid4 := by
  intro m n h
  have hdigits : Nat.toDigits 10 m = Nat.toDigits 10 n := String.ofList_injective h
  rw [← Nat.ofDigitChars_ten_toDigits (n := m), hdigits, Nat.ofDigitChars_ten_toDigits]

/-- A task that has been asked for. -/
def purgeDoc : ScheduledTaskDoc := { id := "purge", schedule := none, nextRunAt := some 0 }

/-- Two runners that poll, and the task that is due. -/
def twoRunners : Pool Bool TaskAgent (TaskWorld Bool) where
  agents _ := .runner .polling
  shared := { tasks := ⟨[purgeDoc], by simp, by simp⟩, clock := 0 }

/-- Both register the task. -/
def purgeConfig : RunnerConfig := { registry := [{ name := "purge", schedule := none }] }

theorem tasksAtRest_twoRunners : TasksAtRest numberedIds twoRunners where
  idle _ := ⟨rfl, rfl⟩
  log := rfl
  foreign name doc token hdoc htoken := by
    obtain ⟨hmem, -⟩ := lookup_eq_some_iff.1 hdoc
    rw [show twoRunners.shared.tasks.docs = [purgeDoc] from rfl, List.mem_singleton] at hmem
    rw [hmem] at htoken
    cases htoken

/-- A runner outlives its lease, and another claims the task and finishes it before. -/
theorem claims_exclusive_of_overrun :
    TasksAtRest numberedIds twoRunners ∧
    ∀ t ∈ List.scanl (Pool.step (TaskAgent.move numberedIds fun _ => purgeConfig)) twoRunners
        [(true, ⟨0, .go⟩), (true, ⟨0, .go⟩), (true, ⟨0, .go⟩), (false, ⟨600000, .go⟩),
          (false, ⟨0, .go⟩), (false, ⟨0, .go⟩), (true, ⟨0, .return .ok 600000 none⟩),
          (true, ⟨0, .go⟩)],
      (∀ who who' name, HoldsClaim t who name → HoldsClaim t who' name → who = who') ∧
      ∀ who row result answer, t.agents who = .runner (.finishing row result) →
        Superseded t.shared row →
        (t.step (TaskAgent.move numberedIds fun _ => purgeConfig) (who, answer)).shared.tasks =
          t.shared.tasks :=
  ⟨tasksAtRest_twoRunners,
    claims_exclusive _ _ _ _ injective_numberedIds tasksAtRest_twoRunners⟩

end

/-! ## Run-now requests -/

variable {ι : Type}

namespace TaskWorld

variable (s : TaskWorld ι) (name : String)

/-- A run of the task has started at the time or later. -/
def Served (t : Int) : Prop := ∃ who t', .started who name t' ∈ s.log ∧ t ≤ t'

/-- The task is left with a next run that is due by the time. -/
def Armed (t : Int) : Prop :=
  ∃ doc, s.tasks.lookup name = some doc ∧ ∃ u ∈ doc.nextRunAt, u ≤ t

/-- Every request that was accepted has been served, or is armed. -/
def RequestsKept : Prop := ∀ name t, .invoked name t ∈ s.log → s.Served name t ∨ s.Armed name t

/-- The next run is due by the time of each request that waits for a run. -/
def LeavesDue (next : Option Int) : Prop :=
  ∀ t, .invoked name t ∈ s.log → ¬ s.Served name t → ∃ u ∈ next, u ≤ t

end TaskWorld

/-! ## Who writes the next run -/

/-- The task whose next run a move writes anew, and what it writes: a request, a reconcile that
finds another schedule, and a finish under the token of the last claim. -/
def nextRunWrite (lib : SchedulerLib) (cfg : RunnerConfig) (s : TaskWorld ι) :
    TaskAgent → TaskChoice → Option (String × Option Int)
  | .operator (some (name, now)), .go => some (name, some now)
  | .runner _, .crash => none
  | .runner _, .fail => none
  | .runner (.reconciling task _ bootedAt), _ =>
    if (s.tasks.lookup task.name).any (·.schedule ≠ task.schedule) then
      some (task.name, computeNextRun lib task.schedule bootedAt)
    else none
  | .runner (.finishing row result), _ =>
    match cfg.get row.id with
    | none => none
    | some task =>
      if (s.tasks.lookup row.id).any fun doc =>
          doc.claimToken = row.claimToken ∧ doc.schedule = task.schedule then
        some (row.id, computeNextRun lib task.schedule result.finishedAt)
      else none
  | _, _ => none

/-- No move writes a next run that takes a waiting request away. -/
def CarefulWrites (lib : SchedulerLib) (cfg : ι → RunnerConfig)
    (pool : Pool ι TaskAgent (TaskWorld ι)) (event : ι × TaskAnswer) : Prop :=
  ∀ name next, nextRunWrite lib (cfg event.1) pool.shared (pool.agents event.1)
    event.2.choice = some (name, next) → pool.shared.LeavesDue name next

/-- The next run of a task after a write. -/
def nextRunAfter (write : Option (String × Option Int)) (name : String) (old : Option Int) :
    Option Int :=
  match write with
  | none => old
  | some (written, next) => if written = name then next else old

/-- The next runs are as they were but for the write, and a request is logged with its write alone. -/
structure NextRunsWritten (write : Option (String × Option Int)) (s s' : TaskWorld ι) : Prop where
  docs : ∀ name doc, s.tasks.lookup name = some doc → ∃ doc', s'.tasks.lookup name = some doc' ∧
    doc'.nextRunAt = nextRunAfter write name doc.nextRunAt
  kept : ∀ entry, entry ∈ s.log → entry ∈ s'.log
  started : write ≠ none → ∀ who name t, .started who name t ∈ s'.log → .started who name t ∈ s.log
  invoked : ∀ name t, .invoked name t ∈ s'.log → .invoked name t ∈ s.log ∨
    (∃ u, write = some (name, some u) ∧ u ≤ t) ∧ (s.tasks.lookup name).isSome

namespace NextRunsWritten

variable {write : Option (String × Option Int)} {s s' : TaskWorld ι}

theorem served (h : NextRunsWritten write s s') {name : String} {t : Int}
    (hserved : s.Served name t) : s'.Served name t := by
  obtain ⟨who, t', hmem, ht⟩ := hserved
  exact ⟨who, t', h.kept _ hmem, ht⟩

/-- What is left of a request after a write to the next run of its task. -/
theorem armed_iff {name : String} {next : Option Int}
    (h : NextRunsWritten (some (name, next)) s s') {t : Int}
    (hdoc : (s.tasks.lookup name).isSome) : s'.Armed name t ↔ ∃ u ∈ next, u ≤ t := by
  obtain ⟨doc, hdoc⟩ := Option.isSome_iff_exists.1 hdoc
  obtain ⟨doc', hdoc', hnext⟩ := h.docs name doc hdoc
  have hnext : doc'.nextRunAt = next := hnext.trans (if_pos rfl)
  constructor
  · rintro ⟨found, hfound, hdue⟩
    rw [hdoc'] at hfound
    cases hfound
    rwa [hnext] at hdue
  · intro hdue
    exact ⟨doc', hdoc', hnext.symm ▸ hdue⟩

/-- A request is armed as before when another task is written, or none. -/
theorem armed_of_ne (h : NextRunsWritten write s s') {name : String} {t : Int}
    (hwrite : ∀ next, write ≠ some (name, next)) (harmed : s.Armed name t) : s'.Armed name t := by
  obtain ⟨doc, hdoc, hdue⟩ := harmed
  obtain ⟨doc', hdoc', hnext⟩ := h.docs name doc hdoc
  refine ⟨doc', hdoc', ?_⟩
  have hsame : nextRunAfter write name doc.nextRunAt = doc.nextRunAt := by
    cases write with
    | none => rfl
    | some written =>
      obtain ⟨written, next⟩ := written
      exact if_neg fun hname => hwrite next (by rw [hname])
  rwa [hnext, hsame]

/-- A write keeps the requests when, and only when, it leaves the task due. -/
theorem requestsKept_iff (h : NextRunsWritten write s s') (hs : s.RequestsKept) :
    s'.RequestsKept ↔ ∀ name next, write = some (name, next) → s.LeavesDue name next := by
  constructor
  · intro hkept name next hwrite t hinvoked hwaits
    subst hwrite
    obtain ⟨doc, hdoc, -⟩ := (hs name t hinvoked).resolve_left hwaits
    refine (h.armed_iff (by rw [hdoc]; rfl)).1 ((hkept name t (h.kept _ hinvoked)).resolve_left ?_)
    rintro ⟨who, t', hmem, ht⟩
    exact hwaits ⟨who, t', h.started (by simp) who name t' hmem, ht⟩
  · intro hdue name t hinvoked
    rcases h.invoked name t hinvoked with hold | ⟨⟨u, hwrite, hu⟩, hdoc⟩
    · rcases hs name t hold with hserved | harmed
      · exact .inl (h.served hserved)
      · by_cases hserved : s.Served name t
        · exact .inl (h.served hserved)
        right
        by_cases hwrite : ∃ next, write = some (name, next)
        · obtain ⟨next, hwrite⟩ := hwrite
          obtain ⟨doc, hdoc, -⟩ := harmed
          have hleft := hdue name next hwrite t hold hserved
          subst hwrite
          exact (h.armed_iff (by rw [hdoc]; rfl)).2 hleft
        · exact h.armed_of_ne (fun next heq => hwrite ⟨next, heq⟩) harmed
    · -- The request itself.
      subst hwrite
      exact .inr ((h.armed_iff hdoc).2 ⟨u, rfl, hu⟩)

end NextRunsWritten

/-! ## The moves -/

section

variable {s : TaskWorld ι}

/-- A move that writes no next run. -/
theorem nextRunsWritten_none {s' : TaskWorld ι}
    (hdocs : ∀ name doc, s.tasks.lookup name = some doc → ∃ doc',
      s'.tasks.lookup name = some doc' ∧ doc'.nextRunAt = doc.nextRunAt)
    (hkept : ∀ entry, entry ∈ s.log → entry ∈ s'.log)
    (hinvoked : ∀ name t, .invoked name t ∈ s'.log → .invoked name t ∈ s.log) :
    NextRunsWritten none s s' where
  docs := hdocs
  kept := hkept
  started hnone := absurd rfl hnone
  invoked name t hmem := .inl (hinvoked name t hmem)

theorem nextRunsWritten_refl (s : TaskWorld ι) : NextRunsWritten none s s :=
  nextRunsWritten_none (fun _ doc hdoc => ⟨doc, hdoc, rfl⟩) (fun _ => id) fun _ _ => id

/-- A write to one task, where it matches. -/
theorem nextRunsWritten_updateOne {name : String} {q : ScheduledTaskDoc → Bool}
    {u : Mongo.KeyedUpdate ScheduledTaskDoc} {write : Option (String × Option Int)}
    (hself : ∀ doc, s.tasks.lookup name = some doc →
      (applyWhere q u.toUpdate doc).nextRunAt = nextRunAfter write name doc.nextRunAt)
    (hother : ∀ written next, write = some (written, next) → written = name) :
    NextRunsWritten write s { s with tasks := s.tasks.updateOne name q u } where
  docs other doc hdoc := by
    by_cases hname : other = name
    · subst hname
      refine ⟨_, by rw [lookup_updateOne_self, hdoc, Option.map_some], hself doc hdoc⟩
    · refine ⟨doc, by rw [lookup_updateOne_of_ne _ _ _ hname, hdoc], ?_⟩
      cases write with
      | none => rfl
      | some written =>
        obtain ⟨written, next⟩ := written
        have hne : written ≠ other := fun h => hname (h ▸ hother written next rfl)
        exact (if_neg hne).symm
  kept _ := id
  started _ _ _ _ := id
  invoked _ _ := .inl

variable {lib : SchedulerLib} {cfg : RunnerConfig}

theorem nextRunsWritten_invoke (name : String) {now : Int} (hnow : now ≤ s.clock) :
    NextRunsWritten (some (name, some now)) s (TaskScheduler.invoke name now s) := by
  have hwritten : NextRunsWritten (some (name, some now)) s
      { s with tasks := (ScheduledTaskRepository.invokeNow s.tasks name now).2 } :=
    nextRunsWritten_updateOne (fun _ _ => (if_pos rfl).symm) fun _ _ heq => by cases heq; rfl
  unfold TaskScheduler.invoke ScheduledTaskRepository.invokeNow
  cases hmodified : (s.tasks.lookup name).any (·.nextRunAt ≠ some now) with
  | false => exact hwritten
  | true =>
    refine { hwritten with
      kept := fun entry hmem => List.mem_cons_of_mem _ hmem
      started := fun _ who other t hmem => ?_
      invoked := fun other t hmem => ?_ }
    · rcases List.mem_cons.1 hmem with heq | hold
      · cases heq
      · exact hold
    · rcases List.mem_cons.1 hmem with heq | hold
      · cases heq
        refine .inr ⟨⟨now, rfl, hnow⟩, ?_⟩
        obtain ⟨doc, hdoc, -⟩ := Option.any_eq_true .. |>.1 hmodified
        rw [hdoc]
        rfl
      · exact .inl hold

/-- A write that takes place where a test of the stored task passes. -/
theorem nextRunAt_applyWhere {name : String} {q test : ScheduledTaskDoc → Bool}
    {u : Mongo.KeyedUpdate ScheduledTaskDoc} {next : Option Int} {doc : ScheduledTaskDoc}
    (hdoc : s.tasks.lookup name = some doc)
    (hnext : (applyWhere q u.toUpdate doc).nextRunAt = if test doc then next else doc.nextRunAt) :
    (applyWhere q u.toUpdate doc).nextRunAt = nextRunAfter
      (if (s.tasks.lookup name).any test then some (name, next) else none) name doc.nextRunAt := by
  rw [hnext, hdoc, Option.any_some]
  cases test doc with
  | false => rfl
  | true => exact (if_pos rfl).symm

theorem eq_of_ite_eq_some {name written : String} {next next' : Option Int} {passes : Bool}
    (h : (if passes then some (name, next) else none) = some (written, next')) :
    written = name := by
  cases passes with
  | false => cases h
  | true => cases h; rfl

theorem nextRunsWritten_reconcile (task : ScheduledTask) (bootedAt : Int) :
    NextRunsWritten
      (if (s.tasks.lookup task.name).any (·.schedule ≠ task.schedule) then
        some (task.name, computeNextRun lib task.schedule bootedAt) else none) s
      { s with
        tasks := ScheduledTaskRepository.reconcileSchedule s.tasks task.name task.schedule
          (computeNextRun lib task.schedule bootedAt) s.clock } := by
  refine nextRunsWritten_updateOne (fun doc hdoc => nextRunAt_applyWhere hdoc ?_) fun _ _ =>
    eq_of_ite_eq_some
  unfold applyWhere
  split <;> rfl

theorem nextRunsWritten_finish (row : ScheduledTaskDoc) (result : TaskRunResult)
    (schedule : Option String) (next : Option Int) :
    NextRunsWritten
      (if (s.tasks.lookup row.id).any fun doc =>
          doc.claimToken = row.claimToken ∧ doc.schedule = schedule then
        some (row.id, next) else none) s
      { s with
        tasks := ScheduledTaskRepository.finishRun s.tasks row.id row.claimToken result schedule
          next s.clock } := by
  refine nextRunsWritten_updateOne (fun doc hdoc => nextRunAt_applyWhere hdoc ?_) fun _ _ =>
    eq_of_ite_eq_some
  by_cases htoken : doc.claimToken = row.claimToken
  · rw [applyWhere_of_matches _ (by simp [htoken])]
    simp [ScheduledTaskRepository.withResult, htoken]
  · rw [applyWhere_of_not_matches _ (by simp [htoken])]
    simp [htoken]

/-- A runner writes what it is said to write. -/
theorem nextRunsWritten_move {who : ι} {choice : TaskChoice} {phase : RunnerPhase}
    (hgo : choice ≠ .fail) (hrun : choice ≠ .crash) :
    NextRunsWritten (nextRunWrite lib cfg s (.runner phase) choice) s
      (TaskScheduler.move lib cfg who choice phase s).2 := by
  cases phase with
  | booting => cases choice <;> exact nextRunsWritten_refl s
  | ensuring task rest bootedAt =>
    have hwrite : nextRunWrite lib cfg s (.runner (.ensuring task rest bootedAt)) choice = none := by
      cases choice <;> rfl
    rw [hwrite]
    refine nextRunsWritten_none (fun name doc hdoc => ?_) (fun _ => id) fun _ _ => id
    exact ⟨doc, by simp only [TaskScheduler.move]; rw [ScheduledTaskRepository.lookup_ensureTask,
      hdoc, Option.some_or], rfl⟩
  | reconciling task rest bootedAt =>
    cases choice <;> first | exact nextRunsWritten_reconcile task bootedAt | contradiction
  | polling => cases choice <;> exact nextRunsWritten_refl s
  | claiming now =>
    have hwrite : nextRunWrite lib cfg s (.runner (.claiming now)) choice = none := by
      cases choice <;> rfl
    rw [hwrite]
    simp only [TaskScheduler.move]
    rcases ScheduledTaskRepository.claimDue_cases s.tasks (cfg.registry.map (·.name))
      cfg.leaseSeconds (lib.uuid4 s.issued) now with
      hnone | ⟨doc, tasks, hdoc, -, hclaim, hclaimed, hothers⟩
    · rw [hnone]
      exact nextRunsWritten_refl s
    · rw [hclaim]
      refine nextRunsWritten_none (fun name old hold => ?_)
        (fun _ hmem => List.mem_cons_of_mem _ hmem) fun name t hmem => ?_
      · by_cases hname : name = doc.id
        · subst hname
          rw [hdoc] at hold
          cases hold
          exact ⟨_, hclaimed, rfl⟩
        · exact ⟨old, (hothers name hname).trans hold, rfl⟩
      · rcases List.mem_cons.1 hmem with heq | hold
        · cases heq
        · exact hold
  | claimed row =>
    have hwrite : nextRunWrite lib cfg s (.runner (.claimed row)) choice = none := by
      cases choice <;> rfl
    rw [hwrite]
    simp only [TaskScheduler.move]
    cases cfg.get row.id with
    | none => exact nextRunsWritten_refl s
    | some task =>
      refine nextRunsWritten_none (fun _ doc hdoc => ⟨doc, hdoc, rfl⟩)
        (fun _ hmem => List.mem_cons_of_mem _ hmem) fun name t hmem => ?_
      rcases List.mem_cons.1 hmem with heq | hold
      · cases heq
      · exact hold
  | running row startedAt => cases choice <;> exact nextRunsWritten_refl s
  | finishing row result =>
    have hwrite : nextRunWrite lib cfg s (.runner (.finishing row result)) choice =
        match cfg.get row.id with
        | none => none
        | some task =>
          if (s.tasks.lookup row.id).any fun doc =>
              doc.claimToken = row.claimToken ∧ doc.schedule = task.schedule then
            some (row.id, computeNextRun lib task.schedule result.finishedAt)
          else none := by
      cases choice <;> first | rfl | contradiction
    rw [hwrite]
    simp only [TaskScheduler.move]
    cases cfg.get row.id with
    | none => exact nextRunsWritten_refl s
    | some task => exact nextRunsWritten_finish row result task.schedule _

/-- A time that an operator is writing is not ahead of the clock. -/
def RequestPast (agent : TaskAgent) (s : TaskWorld ι) : Prop :=
  ∀ name now, agent = .operator (some (name, now)) → now ≤ s.clock

theorem nextRunsWritten_agent {cfg : ι → RunnerConfig} {who : ι} {answer : TaskAnswer}
    {agent : TaskAgent} (hpast : RequestPast agent s) :
    NextRunsWritten (nextRunWrite lib (cfg who) s agent answer.choice) (s.wait answer.delay)
      (TaskAgent.move lib cfg who answer agent s).2 := by
  have hwait : nextRunWrite lib (cfg who) s agent answer.choice =
      nextRunWrite lib (cfg who) (s.wait answer.delay) agent answer.choice := rfl
  rw [hwait]
  cases agent with
  | operator request =>
    unfold TaskAgent.move
    cases request with
    | none => cases answer.choice <;> exact nextRunsWritten_refl _
    | some request =>
      obtain ⟨name, now⟩ := request
      cases answer.choice with
      | go =>
        refine nextRunsWritten_invoke name ((hpast name now rfl).trans ?_)
        show s.clock ≤ s.clock + answer.delay
        omega
      | _ => exact nextRunsWritten_refl _
  | runner phase =>
    unfold TaskAgent.move
    cases answer.choice with
    | crash => cases phase <;> exact nextRunsWritten_refl _
    | fail => cases phase <;> exact nextRunsWritten_refl _
    | _ => exact nextRunsWritten_move (by simp) (by simp)

@[simp] theorem clock_invoke (name : String) (now : Int) (s : TaskWorld ι) :
    (TaskScheduler.invoke name now s).clock = s.clock := by
  unfold TaskScheduler.invoke
  split <;> rfl

@[simp] theorem clock_move (who : ι) (choice : TaskChoice) (phase : RunnerPhase)
    (s : TaskWorld ι) : (TaskScheduler.move lib cfg who choice phase s).2.clock = s.clock := by
  cases phase with
  | running row startedAt => cases choice <;> rfl
  | claiming now =>
    simp only [TaskScheduler.move]
    split <;> rfl
  | claimed row =>
    simp only [TaskScheduler.move]
    split <;> rfl
  | finishing row result =>
    simp only [TaskScheduler.move]
    split <;> rfl
  | _ => rfl

theorem clock_agent_move (cfg : ι → RunnerConfig) (who : ι) (answer : TaskAnswer)
    (agent : TaskAgent) (s : TaskWorld ι) :
    (TaskAgent.move lib cfg who answer agent s).2.clock = s.clock + answer.delay := by
  unfold TaskAgent.move
  split <;> simp [TaskWorld.wait]

theorem requestPast_move (cfg : ι → RunnerConfig) (who : ι) (answer : TaskAnswer)
    (agent : TaskAgent) (s : TaskWorld ι) :
    RequestPast (TaskAgent.move lib cfg who answer agent s).1
      (TaskAgent.move lib cfg who answer agent s).2 := by
  intro name now hmoved
  rw [clock_agent_move]
  unfold TaskAgent.move at hmoved
  split at hmoved <;> cases hmoved
  exact le_rfl

end

/-- In a run no request is lost exactly when every write of a next run leaves the tasks due that
requests wait for. -/
theorem requestsKept_iff_careful [DecidableEq ι] (lib : SchedulerLib) (cfg : ι → RunnerConfig)
    (pool : Pool ι TaskAgent (TaskWorld ι)) (events : List (ι × TaskAnswer))
    (hstart : pool.shared.RequestsKept) (hpast : ∀ who, RequestPast (pool.agents who) pool.shared) :
    (∀ t ∈ List.scanl (Pool.step (TaskAgent.move lib cfg)) pool events, t.shared.RequestsKept) ↔
      Run.Guarded (Pool.step (TaskAgent.move lib cfg)) (CarefulWrites lib cfg) pool events := by
  let Past : Pool ι TaskAgent (TaskWorld ι) → Prop :=
    Pool.Sound (fun _ => True) fun _ agent s => RequestPast agent s
  have hpast_step (pool : Pool ι TaskAgent (TaskWorld ι)) (event : ι × TaskAnswer)
      (h : Past pool) : Past (pool.step (TaskAgent.move lib cfg) event) := by
    refine h.step ⟨trivial, requestPast_move cfg _ _ _ _, fun i agent _ hagent name now heq => ?_⟩
    rw [clock_agent_move]
    have := hagent name now heq
    omega
  have hwrites (pool : Pool ι TaskAgent (TaskWorld ι)) (event : ι × TaskAnswer) (h : Past pool)
      (hkept : pool.shared.RequestsKept) :
      (pool.step (TaskAgent.move lib cfg) event).shared.RequestsKept ↔ CarefulWrites lib cfg pool event :=
    (nextRunsWritten_agent (h.agents event.1)).requestsKept_iff hkept
  exact Run.forall_mem_scanl_iff_of_invariant
    (P := fun pool : Pool ι TaskAgent (TaskWorld ι) => pool.shared.RequestsKept) Past
    (fun pool event h hkept hnext => (hwrites pool event h hkept).1 hnext)
    (fun pool event h hkept hcareful => ⟨hpast_step pool event h, (hwrites pool event h hkept).2 hcareful⟩)
    ⟨trivial, hpast⟩ hstart

/-- A runner that polls, and an operator. -/
def runnerAndOperator : Pool Bool TaskAgent (TaskWorld Bool) where
  agents who := if who then .runner .polling else .operator none
  shared := { tasks := .single purgeDoc, clock := 0 }

/-- The run starts, the task is asked for a second later, and the run ends. -/
def askedDuringRun : List (Bool × TaskAnswer) :=
  [(true, ⟨0, .go⟩), (true, ⟨0, .go⟩), (true, ⟨0, .go⟩), (false, ⟨1000, .invoke "purge"⟩),
    (false, ⟨0, .go⟩), (true, ⟨1000, .return .ok 2000 none⟩), (true, ⟨0, .go⟩)]

theorem requestsKept_iff_careful_purge :
    (∀ t ∈ List.scanl (Pool.step (TaskAgent.move numberedIds fun _ => purgeConfig))
        runnerAndOperator askedDuringRun, t.shared.RequestsKept) ↔
      Run.Guarded (Pool.step (TaskAgent.move numberedIds fun _ => purgeConfig))
        (CarefulWrites numberedIds fun _ => purgeConfig) runnerAndOperator askedDuringRun :=
  requestsKept_iff_careful _ _ _ _ (fun _ _ hmem => nomatch hmem) fun who _ _ heq => by
    cases who <;> cases heq

/-- Where that run ends. -/
def afterAskedDuringRun : Pool Bool TaskAgent (TaskWorld Bool) :=
  askedDuringRun.foldl (Pool.step (TaskAgent.move numberedIds fun _ => purgeConfig))
    runnerAndOperator

theorem log_afterAskedDuringRun : afterAskedDuringRun.shared.log =
    [.invoked "purge" 1000, .started true "purge" 0, .claimed true "purge" "0"] := by
  decide +kernel

/-- The end of the run disarms the task, and no run has started since it was asked for. -/
theorem request_lost_during_run :
    ∃ t ∈ List.scanl (Pool.step (TaskAgent.move numberedIds fun _ => purgeConfig))
        runnerAndOperator askedDuringRun,
      .invoked "purge" 1000 ∈ t.shared.log ∧ ¬ t.shared.Served "purge" 1000 ∧
        ¬ t.shared.Armed "purge" 1000 := by
  refine ⟨afterAskedDuringRun, by simp [askedDuringRun, afterAskedDuringRun], ?_, ?_, ?_⟩
  · rw [log_afterAskedDuringRun]
    exact List.mem_cons_self
  · rintro ⟨who, t, hmem, ht⟩
    rw [log_afterAskedDuringRun] at hmem
    obtain ⟨-, -, rfl⟩ : who = true ∧ True ∧ t = 0 := by simpa using hmem
    omega
  · rintro ⟨doc, hdoc, u, hu, -⟩
    have hnone : (afterAskedDuringRun.shared.tasks.lookup "purge").bind (·.nextRunAt) = none := by
      decide +kernel
    rw [hdoc, Option.bind_some, hu] at hnone
    cases hnone

end Spoo
