import Spoo.Proofs.PerLinkBlocks
import Spoo.Services.Safety.Investigation

/-!
# Human verdicts and running automation

Analyses, investigations and the verdicts of humans interleave at their repository calls. A
human's call stands as long as it is not stored in the gap between the read of a verdict and the
block that follows from it.
-/

namespace Spoo

open Program

/-- A human has decided that the host is not toxic. -/
def VerdictStore.Cleared (verdicts : VerdictStore) (host : String) : Prop :=
  ∃ verdict, VerdictRepository.findByHost verdicts host = some verdict ∧
    verdict.isHuman = true ∧ verdict.tier ≠ .toxic

/-- The links of the three collections. -/
def Stores.links (s : Stores) : UrlStore × LegacyUrlStore × LegacyUrlStore :=
  (s.urls, s.legacy, s.emoji)

/-- `find_by_host`. -/
def SafetyLabel.IsRead : SafetyLabel → Prop
  | reads _ => True
  | _ => False

/-- In some states the program blocks links of the host without reading a verdict before. -/
abbrev MayBlock {α : Type} (host : String) (p : SafetyProgram α) : Prop :=
  p.MayTake (· = .blocks host) SafetyLabel.IsRead

/-! ## What the calls do -/

/-- Only a human clears a host, and only a block changes links. -/
structure Honest (label : SafetyLabel) (write : SafetyState → SafetyState) : Prop where
  cleared : ∀ s host, (write s).verdicts.Cleared host →
    s.verdicts.Cleared host ∨ ∃ tier, tier ≠ .toxic ∧ label = .decides host tier
  links : (∀ host, label ≠ .blocks host) → ∀ s, (write s).stores.links = s.stores.links

/-- Such a call that is not the read of a verdict. -/
def Blind (label : SafetyLabel) (write : SafetyState → SafetyState) : Prop :=
  ¬label.IsRead ∧ Honest label write

/-- What the program makes of a verdict of its next read does not block against a human. -/
def HeedsRead {α : Type} : SafetyProgram α → Prop
  | .act (.reads host) _ next => ∀ s, MayBlock host (next s) → ¬s.verdicts.Cleared host
  | _ => True

/-- The programs of the safety tiers. -/
structure Careful (p : SafetyProgram Unit) : Prop where
  honest : p.Every Honest
  heeds : p.Throughout HeedsRead

section

variable {α : Type} {p : SafetyProgram α} {label : SafetyLabel} {s : SafetyState}
  {host other : String} {now : Int}

theorem honest_of_frame {write : SafetyState → SafetyState}
    (hverdicts : ∀ s, (write s).verdicts = s.verdicts)
    (hlinks : (∀ host, label ≠ .blocks host) → ∀ s, (write s).stores.links = s.stores.links) :
    Honest label write where
  cleared s _ hcleared := .inl (hverdicts s ▸ hcleared)
  links := hlinks

theorem honest_read : Honest (.reads host) fun s => s :=
  honest_of_frame (fun _ => rfl) fun _ _ => rfl

theorem throughout_heedsRead_of_blind (h : p.Every Blind) : p.Throughout HeedsRead := by
  refine h.throughout (fun _ => trivial) fun label write next hblind => ?_
  cases label with
  | reads host => exact absurd trivial hblind.1
  | _ => trivial

/-- A read, and what follows from it without another read. -/
theorem careful_of_read {f : Option VerdictDoc → SafetyProgram Unit}
    (hblind : ∀ found, (f found).Every Blind)
    (hheeds : ∀ verdict, verdict.isHuman = true → verdict.tier ≠ .toxic →
      ¬MayBlock host (f (some verdict))) :
    Careful (readVerdict host >>= f) where
  honest := every_ask_bind honest_read fun s =>
    (hblind _).mono fun _ _ h => h.2
  heeds := by
    refine ⟨fun s hmay => ?_, fun s => throughout_heedsRead_of_blind (hblind _)⟩
    rintro ⟨verdict, hfound, hhuman, htier⟩
    refine hheeds verdict hhuman htier ?_
    rw [← hfound]
    exact hmay

/-- The system clears no host. -/
theorem cleared_upsertVerdict {verdicts : VerdictStore} {fields : VerdictRepository.VerdictFields}
    (hcleared : (VerdictRepository.upsertVerdict verdicts host fields now).1.Cleared other) :
    verdicts.Cleared other ∨
      other = host ∧ fields.decidedBy ≠ "system" ∧ fields.tier ≠ .toxic := by
  obtain ⟨verdict, hfound, hhuman, htier⟩ := hcleared
  unfold VerdictRepository.upsertVerdict at hfound
  dsimp only at hfound
  split at hfound
  · exact .inl ⟨verdict, hfound, hhuman, htier⟩
  · simp only [VerdictRepository.findByHost] at hfound
    split at hfound
    · rename_i heq
      cases hfound
      exact .inr ⟨heq, of_decide_eq_true hhuman, htier⟩
    · exact .inl ⟨verdict, hfound, hhuman, htier⟩

theorem blind_recordVerdict {fields : VerdictRepository.VerdictFields}
    (hsystem : fields.decidedBy = "system") : (recordVerdict host fields now).Every Blind := by
  refine every_call ⟨id, fun s other hcleared => ?_, fun _ _ => rfl⟩
  rcases cleared_upsertVerdict hcleared with hbefore | ⟨-, hhuman, -⟩
  · exact .inl hbefore
  · exact absurd hsystem hhuman

theorem blind_serves {write : SafetyState → SafetyState}
    (hverdicts : ∀ s, (write s).verdicts = s.verdicts)
    (hlinks : ∀ s, (write s).stores.links = s.stores.links) : Blind .serves write :=
  ⟨id, honest_of_frame hverdicts fun _ => hlinks⟩

theorem blind_blocks {write : SafetyState → SafetyState}
    (hverdicts : ∀ s, (write s).verdicts = s.verdicts) : Blind (.blocks host) write :=
  ⟨id, honest_of_frame hverdicts fun hno => absurd rfl (hno host)⟩

/-- A block writes no verdict. -/
theorem blind_enforce {cfg : EnforcerConfig} {re : RegexLib} {reason : String}
    {enforcement : Enforcement} :
    (enforce cfg re host reason now enforcement).Every Blind := by
  refine Every.bind (every_calls ?_ _) fun _ => trivial
  intro action haction v
  cases enforcement with
  | blockHost =>
    simp only [Enforcement.calls, SafetyEnforcer.blockHostCalls, List.zip_cons_cons,
      List.zip_nil_right, List.mem_cons, List.not_mem_nil, or_false] at haction
    rcases haction with rfl | rfl | rfl | rfl | rfl | rfl | rfl | rfl | rfl
    all_goals first
      | exact blind_blocks fun _ => rfl
      | exact blind_serves (fun _ => rfl) fun _ => rfl
  | blockMatching matcher =>
    simp only [Enforcement.calls, SafetyEnforcer.blockMatchingCalls, List.zip_cons_cons,
      List.zip_nil_right, List.mem_cons, List.not_mem_nil, or_false] at haction
    rcases haction with rfl | rfl | rfl | rfl | rfl | rfl | rfl | rfl | rfl
    all_goals first
      | exact blind_blocks fun _ => rfl
      | exact blind_serves (fun _ => rfl) fun _ => rfl
  | blockAliases pairs =>
    simp only [Enforcement.calls, SafetyEnforcer.blockAliasesCalls, List.zip_cons_cons,
      List.zip_nil_right, List.mem_cons, List.not_mem_nil, or_false] at haction
    rcases haction with rfl | rfl | rfl | rfl
    all_goals first
      | exact blind_blocks fun _ => rfl
      | exact blind_serves (fun _ => rfl) fun _ => rfl

/-- A program that starts with a read blocks nothing before it. -/
theorem not_mayBlock_readVerdict {f : Option VerdictDoc → SafetyProgram α} :
    ¬MayBlock other (readVerdict host >>= f) := by
  rintro (hlabel | ⟨hread, -⟩)
  · cases hlabel
  · exact hread trivial

/-- Careful programs that read first can follow one another. -/
theorem Careful.bind_readVerdict {p : SafetyProgram Unit} (hp : Careful p)
    {f : Option VerdictDoc → SafetyProgram Unit} (hf : Careful (readVerdict host >>= f)) :
    Careful (p >>= fun _ => readVerdict host >>= f) := by
  refine ⟨hp.honest.bind fun _ => hf.honest, hp.heeds.bind (fun q hq => ?_) fun _ => hf.heeds⟩
  cases q with
  | ret _ => exact hf.heeds.1
  | act label write next =>
    cases label with
    | reads host =>
      intro s hmay
      rcases mayTake_bind hmay with hmay | ⟨_, hmay⟩
      · exact hq s hmay
      · exact absurd hmay not_mayBlock_readVerdict
    | _ => trivial

end

/-! ## The programs of the tiers -/

namespace SafetyAnalyzer

variable {a : SafetyAnalyzer} {event : SafetyAnalyzeEvent} {now : Int}

theorem blind_handleToxic {source : String} {verdict : ProviderVerdict} :
    (a.handleToxic event source verdict now).Every Blind :=
  blind_enforce.bind fun _ => (blind_recordVerdict rfl).bind fun _ => trivial

theorem blind_screen : (a.screen event now).Every Blind := by
  refine every_ask_bind (blind_serves (fun _ => rfl) fun _ => rfl) fun s => ?_
  split
  · split
    · exact blind_handleToxic
    · exact (blind_recordVerdict rfl).bind fun _ => trivial
  · exact (blind_recordVerdict rfl).bind fun _ => trivial

theorem blind_settles {existing : VerdictDoc} : (a.settles event existing now).Every Blind := by
  unfold settles
  split
  · unfold reenforce
    dsimp only
    split
    · exact blind_enforce.bind fun _ => trivial
    · split
      · split
        · trivial
        · exact blind_enforce.bind fun _ => trivial
      · trivial
    · trivial
  · trivial

/-- An analysis leaves the host of a human's verdict alone, unless that verdict is toxic. -/
theorem careful_judge : Careful (a.judge event now) := by
  refine careful_of_read (fun found => ?_) fun verdict hhuman htier => ?_
  · split
    · exact blind_screen
    · refine blind_settles.bind fun settled => ?_
      split
      · trivial
      · split
        · trivial
        · exact blind_screen
  · have hskips : a.skips event verdict now = true := by simp [skips, hhuman]
    have hsettles : a.settles event verdict now = .ret false := if_neg htier
    simp only [hsettles, ret_bind, Bool.false_eq_true, if_false, hskips, if_true]
    exact id

theorem careful_analyze : Careful (a.analyze event now) := by
  unfold analyze
  split
  swap
  · exact careful_judge
  unfold screenRedirect
  split
  · exact ⟨trivial, trivial⟩
  rename_i terminal hterminal
  refine careful_judge.bind_readVerdict (careful_of_read (fun found => ?_) ?_)
  · split
    · trivial
    · split
      · exact blind_enforce.bind fun _ => trivial
      · trivial
  · intro verdict _ htier
    dsimp only
    rw [if_neg fun hcovers => htier hcovers.1]
    exact id

theorem not_mayBlock_judge {host : String} : ¬MayBlock host (a.judge event now) :=
  not_mayBlock_readVerdict

theorem not_mayBlock_analyze {host : String} : ¬MayBlock host (a.analyze event now) := by
  unfold analyze
  split
  · unfold screenRedirect
    split
    · exact id
    · intro hmay
      rcases mayTake_bind hmay with hmay | ⟨_, hmay⟩
      · exact not_mayBlock_judge hmay
      · exact not_mayBlock_readVerdict hmay
  · exact not_mayBlock_judge

end SafetyAnalyzer

/-- An investigation leaves the host of a human's verdict alone. -/
theorem DeepInvestigator.careful_investigate {d : DeepInvestigator} {event : SafetyAnalyzeEvent}
    {answer : ModelAnswer} {now : Int} : Careful (d.investigate event answer now) := by
  refine careful_of_read (fun found => ?_) fun verdict hhuman _ => ?_
  · split
    · trivial
    · split
      · exact (blind_recordVerdict rfl).bind fun _ => trivial
      · refine (blind_recordVerdict rfl).bind fun _ => ?_
        unfold enact
        split
        · exact blind_enforce.bind fun _ => trivial
        · trivial
  · rw [Option.any_some, if_pos hhuman]
    exact id

/-! ## Interleavings -/

/-- What runs at the same time: automation, and humans who store verdicts. -/
inductive SafetyJob where
  | analyze (a : SafetyAnalyzer) (event : SafetyAnalyzeEvent) (now : Int)
  | investigate (d : DeepInvestigator) (event : SafetyAnalyzeEvent) (answer : ModelAnswer)
      (now : Int)
  | decide (host : String) (fields : VerdictRepository.VerdictFields)
      (human : fields.decidedBy ≠ "system") (now : Int)

namespace SafetyJob

/-- The repository calls of a job. -/
def program : SafetyJob → SafetyProgram Unit
  | analyze a event now => a.analyze event now
  | investigate d event answer now => d.investigate event answer now
  | decide host fields _ now =>
    .call (.decides host fields.tier) fun s =>
      ((), { s with verdicts := (VerdictRepository.upsertVerdict s.verdicts host fields now).1 })

theorem careful_program (job : SafetyJob) : Careful job.program := by
  cases job with
  | analyze a event now => exact SafetyAnalyzer.careful_analyze
  | investigate d event answer now => exact DeepInvestigator.careful_investigate
  | decide host fields human now =>
    refine ⟨every_call ⟨fun s other hcleared => ?_, fun _ _ => rfl⟩, trivial, fun _ => trivial⟩
    rcases cleared_upsertVerdict hcleared with hbefore | ⟨rfl, -, htier⟩
    · exact .inl hbefore
    · exact .inr ⟨fields.tier, htier, rfl⟩

/-- Every job of automation reads a verdict before it blocks. -/
theorem not_mayBlock_program (job : SafetyJob) (host : String) : ¬MayBlock host job.program := by
  cases job with
  | analyze a event now => exact SafetyAnalyzer.not_mayBlock_analyze
  | investigate d event answer now => exact not_mayBlock_readVerdict
  | decide other fields human now =>
    rintro (hlabel | ⟨-, _, hnext⟩)
    · cases hlabel
    · exact hnext

end SafetyJob

section

variable {ι : Type}

abbrev SafetyPool (ι : Type) : Type := Pool ι SafetyLabel SafetyState Unit

/-- The jobs before any of them has made a call. -/
def startJobs (jobs : ι → SafetyJob) (s : SafetyState) : SafetyPool ι where
  threads i := (jobs i).program
  shared := s

/-- The next step of the thread meets no job halfway. A human who stores a verdict that is not
toxic finds none that has read the verdict of the host and may still block. A job that goes on
from a verdict it reads blocks on account of no other host that a human has cleared. -/
def MeetsNone (pool : SafetyPool ι) (i : ι) : Prop :=
  match pool.threads i with
  | .act (.decides host tier) _ _ => tier ≠ .toxic → ∀ j, ¬MayBlock host (pool.threads j)
  | .act (.reads host) _ next =>
    ∀ other, other ≠ host → MayBlock other (next pool.shared) →
      ¬pool.shared.verdicts.Cleared other
  | _ => True

/-- No job is about to block against a human. -/
structure HumansHeeded (pool : SafetyPool ι) : Prop where
  careful : ∀ i, Careful (pool.threads i)
  blocks : ∀ i host, MayBlock host (pool.threads i) → ¬pool.shared.verdicts.Cleared host

theorem humansHeeded_startJobs (jobs : ι → SafetyJob) (s : SafetyState) :
    HumansHeeded (startJobs jobs s) where
  careful i := (jobs i).careful_program
  blocks i host hmay := absurd hmay ((jobs i).not_mayBlock_program host)

/-- What one step of one job preserves. -/
theorem HumansHeeded.step [DecidableEq ι] {pool : SafetyPool ι} {i : ι} (hinv : HumansHeeded pool)
    (hmeets : MeetsNone pool i) : HumansHeeded (pool.step i) := by
  rcases pool.step_cases i with hsame | ⟨label, write, next, hthread, hshared, hself, hothers⟩
  · rw [hsame]
    exact hinv
  have hcareful : Careful (.act label write next) := hthread ▸ hinv.careful i
  have hblocks : ∀ host, MayBlock host (.act label write next) →
      ¬pool.shared.verdicts.Cleared host := hthread ▸ hinv.blocks i
  unfold MeetsNone at hmeets
  rw [hthread] at hmeets
  refine ⟨fun j => ?_, fun j host hmay hcleared => ?_⟩
  · by_cases hj : j = i
    · rw [hj, hself]
      exact ⟨hcareful.honest.2 _, hcareful.heeds.2 _⟩
    · rw [hothers j hj]
      exact hinv.careful j
  rw [hshared] at hcleared
  rcases hcareful.honest.1.cleared _ _ hcleared with hbefore | ⟨tier, htier, rfl⟩
  · by_cases hj : j = i
    · rw [hj, hself] at hmay
      cases label with
      | reads source =>
        by_cases hsource : host = source
        · subst hsource
          exact hcareful.heeds.1 _ hmay hbefore
        · exact hmeets host hsource hmay hbefore
      | _ => exact hblocks host (.inr ⟨id, _, hmay⟩) hbefore
    · rw [hothers j hj] at hmay
      exact hinv.blocks j host hmay hbefore
  -- The step has cleared the host: no job, itself included, was about to block.
  · by_cases hj : j = i
    · rw [hj, hself] at hmay
      refine hmeets htier i ?_
      rw [hthread]
      exact .inr ⟨id, _, hmay⟩
    · rw [hothers j hj] at hmay
      exact hmeets htier j hmay

end

/-- In every interleaving in which no human's verdict meets a job halfway, what blocks links
blocks on account of a host that no human has cleared. Nothing else changes the links. -/
theorem human_verdicts_stand {ι : Type} [DecidableEq ι] (jobs : ι → SafetyJob) (s : SafetyState)
    (schedule : List ι) (hmeets : Run.Guarded Pool.step MeetsNone (startJobs jobs s) schedule) :
    ∀ pool ∈ List.scanl Pool.step (startJobs jobs s) schedule, ∀ i,
      (∀ host, (pool.threads i).label? = some (.blocks host) →
        ¬pool.shared.verdicts.Cleared host) ∧
      ((∀ host, (pool.threads i).label? ≠ some (.blocks host)) →
        (pool.step i).shared.stores.links = pool.shared.stores.links) := by
  intro pool hpool i
  have hinv : HumansHeeded pool :=
    Run.forall_mem_scanl (P := HumansHeeded) (fun _ _ hinv hmeets => hinv.step hmeets)
      (humansHeeded_startJobs jobs s) hmeets pool hpool
  refine ⟨fun host hlabel => hinv.blocks i host ?_, fun hno => ?_⟩
  · cases hthread : pool.threads i with
    | ret _ => rw [hthread] at hlabel; cases hlabel
    | act label write next =>
      rw [hthread] at hlabel
      exact .inl (Option.some.inj hlabel)
  · rcases pool.step_cases i with hsame | ⟨label, write, next, hthread, hshared, -⟩
    · rw [hsame]
    · have hhonest := (hinv.careful i).honest
      rw [hthread] at hhonest hno
      rw [hshared]
      exact hhonest.1.links (fun host heq => hno host (congrArg some heq)) _

/-- A blocklist that knows every host. -/
def everythingListed : AnalysisProvider where
  name := "blocked_pattern"
  analyze _ _ _ _ := some { tier := .toxic, reason := "listed" }

/-- An analyzer with that blocklist. -/
def listedAnalyzer : SafetyAnalyzer where
  enforcer := SafetyEnforcer.plainConfig
  re := { compiles := fun _ => false, search := fun _ _ => none }
  lib := asciiUrlLib
  providers := [everythingListed]
  reverdictTtl := 604800000000
  resolveTerminalUrl _ := none
  named := by decide

/-- A report about the host, and a human who has looked at it. -/
def reportAndHuman : Bool → SafetyJob
  | true => .analyze listedAnalyzer { url := "https://a.example/page", host := "a.example" } 2
  | false => .decide "a.example" {
      registrableDomain := "a.example"
      tier := .benign
      reason := some "shop"
      source := "human"
      trigger := "report"
      decidedBy := "operator" } (by decide) 1

/-- A link on the host, and no verdict. -/
def reportedState : SafetyState where
  verdicts := ⟨fun _ => none⟩
  stores := {
    urls := { docs := [UrlRepository.linkOn 1 "aaa" "a.example"], nodup_id := by decide, nodup_key := by decide }
    legacy := .empty
    emoji := .empty }

theorem human_verdicts_stand_humanFirst :
    Run.Guarded Pool.step MeetsNone (startJobs reportAndHuman reportedState) [false, true] ∧
    ∀ pool ∈ List.scanl Pool.step (startJobs reportAndHuman reportedState) [false, true], ∀ i,
      (∀ host, (pool.threads i).label? = some (.blocks host) →
        ¬pool.shared.verdicts.Cleared host) ∧
      ((∀ host, (pool.threads i).label? ≠ some (.blocks host)) →
        (pool.step i).shared.stores.links = pool.shared.stores.links) := by
  have hmeets : Run.Guarded Pool.step MeetsNone (startJobs reportAndHuman reportedState)
      [false, true] := by
    refine ⟨?_, ?_, trivial⟩
    · exact fun _ j => (reportAndHuman j).not_mayBlock_program "a.example"
    · exact fun other _ hmay => hmay.elim
  exact ⟨hmeets, human_verdicts_stand reportAndHuman reportedState [false, true] hmeets⟩

/-- The human decides while the analysis has read that there is no verdict. The link is blocked
against that decision. -/
theorem analysis_blocks_after_human :
    ∃ pool ∈ List.scanl Pool.step (startJobs reportAndHuman reportedState)
        [true, true, false, true, true, true, true],
      (pool.threads true).label? = some (.blocks "a.example") ∧
        pool.shared.verdicts.Cleared "a.example" ∧
        (∃ row ∈ pool.shared.stores.urls.docs, row.status = .active) ∧
        ∃ row ∈ (pool.step true).shared.stores.urls.docs, row.status = .blocked := by
  refine ⟨_, List.mem_of_getLast? rfl, rfl, ⟨_, rfl, rfl, by decide⟩, ?_, ?_⟩
  · exact ⟨_, List.mem_singleton.2 rfl, rfl⟩
  · exact ⟨_, List.mem_singleton.2 rfl, rfl⟩

end Spoo
