import Spoo.Proofs.PerLinkBlocks
import Spoo.Services.Safety.Investigation

/-!
# Patterns the model proposed

A path pattern of the deep tier lies in the same stored verdict that the create gate and the
re-enforcement read. It waits for a human as long as the verdict that holds it is not toxic.
-/

namespace Spoo

open Program

/-- The reach of the verdict is a pattern of the deep tier that no human has decided on. -/
def VerdictDoc.IsUnapprovedPattern (verdict : VerdictDoc) : Prop :=
  verdict.isHuman = false ∧ verdict.source = "llm" ∧ verdict.scope = some .pathPattern

instance : DecidablePred VerdictDoc.IsUnapprovedPattern := fun verdict =>
  inferInstanceAs (Decidable (verdict.isHuman = false ∧ verdict.source = "llm" ∧
    verdict.scope = some .pathPattern))

/-- No unapproved pattern is in force. -/
def VerdictStore.PatternsWait (verdicts : VerdictStore) : Prop :=
  ∀ host verdict, VerdictRepository.findByHost verdicts host = some verdict →
    verdict.IsUnapprovedPattern → verdict.tier ≠ .toxic

/-! ## What the tiers write -/

section

variable {verdicts : VerdictStore} {host other : String}
  {fields : VerdictRepository.VerdictFields} {now : Int}

/-- A verdict found after an upsert was there before, or is the one that was written. -/
theorem findByHost_upsertVerdict {verdict : VerdictDoc}
    (h : VerdictRepository.findByHost
      (VerdictRepository.upsertVerdict verdicts host fields now).1 other = some verdict) :
    VerdictRepository.findByHost verdicts other = some verdict ∨
      other = host ∧ verdict = fields.doc host (verdicts.entries host) now := by
  unfold VerdictRepository.upsertVerdict at h
  dsimp only at h
  split at h
  · exact .inl h
  · simp only [VerdictRepository.findByHost] at h
    split at h
    · rename_i heq
      exact .inr ⟨heq, (Option.some.inj h).symm⟩
    · exact .inl h

/-- Unless a human's verdict keeps it out, the verdict that was written is found. -/
theorem findByHost_upsertVerdict_self
    (h : ¬(fields.decidedBy = "system" ∧ (verdicts.entries host).any (·.isHuman) = true)) :
    VerdictRepository.findByHost
        (VerdictRepository.upsertVerdict verdicts host fields now).1 host =
      some (fields.doc host (verdicts.entries host) now) := by
  rw [VerdictRepository.upsertVerdict, if_neg h]
  exact if_pos rfl

theorem VerdictStore.PatternsWait.upsertVerdict (hwait : verdicts.PatternsWait)
    (hfields : ∀ before, (fields.doc host before now).IsUnapprovedPattern →
      fields.tier ≠ .toxic) :
    (VerdictRepository.upsertVerdict verdicts host fields now).1.PatternsWait := by
  intro other verdict hfound hpattern
  rcases findByHost_upsertVerdict hfound with hold | ⟨-, rfl⟩
  · exact hwait other verdict hold hpattern
  · exact hfields _ hpattern

end

/-- A block writes no verdict. -/
theorem verdicts_enforce {cfg : EnforcerConfig} {re : RegexLib} {host reason : String}
    {now : Int} {enforcement : Enforcement} (s : SafetyState) :
    ((enforce cfg re host reason now enforcement).run s).2.verdicts = s.verdicts := by
  have hkeeps : (enforce cfg re host reason now enforcement).Every
      fun _ write => ∀ s' : SafetyState, s'.verdicts = s.verdicts →
        (write s').verdicts = s.verdicts :=
    (every_calls (fun _ _ _ _ hsame => hsame) _).bind fun _ => trivial
  exact hkeeps.run (P := fun s' : SafetyState => s'.verdicts = s.verdicts) s rfl

namespace SafetyAnalyzer

variable {a : SafetyAnalyzer} {event : SafetyAnalyzeEvent} {now : Int}

end SafetyAnalyzer

namespace DeepInvestigator

variable {d : DeepInvestigator} {event : SafetyAnalyzeEvent} {answer : ModelAnswer} {now : Int}

/-- The decision on the claim blocks by a pattern the model proposed. -/
def EnactsPattern (d : DeepInvestigator) (event : SafetyAnalyzeEvent) (answer : ModelAnswer)
    (verdict : InvestigationVerdict) : Prop :=
  (d.decision event answer verdict).action = .blockAliases ∧ verdict.scope = .pathPattern ∧
    isValidPattern d.re (verdict.pathPattern.getD "") = true

end DeepInvestigator

/-! ## Who reads the stored verdicts -/

namespace SafetyAnalyzer

variable {a : SafetyAnalyzer} {event : SafetyAnalyzeEvent} {now : Int} {s : SafetyState}
  {verdict : VerdictDoc}

/-- The event an analysis judges: that of the URL a redirect ends at, or its own. -/
def judged (a : SafetyAnalyzer) (event : SafetyAnalyzeEvent) : Option SafetyAnalyzeEvent :=
  if event.trigger = "redirect" ∧ event.context.terminal = false then a.terminalEvent event
  else some event

end SafetyAnalyzer

/-! ## Runs -/

/-- What may happen while no human decides: analyses, investigations, and any change of the
links. The checks of the create gate only read. -/
inductive SafetyOp where
  | analyze (a : SafetyAnalyzer) (event : SafetyAnalyzeEvent) (now : Int)
  | investigate (d : DeepInvestigator) (event : SafetyAnalyzeEvent) (answer : ModelAnswer)
      (now : Int)
  | links (change : Stores → Stores)

namespace SafetyOp

/-- Run one operation. -/
def run (s : SafetyState) : SafetyOp → SafetyState
  | analyze a event now => ((a.analyze event now).run s).2
  | investigate d event answer now => ((d.investigate event answer now).run s).2
  | links change => { s with stores := change s.stores }

/-- It is an investigation that blocks by a pattern the model proposed. -/
def EnactsPattern (s : SafetyState) : SafetyOp → Prop
  | investigate d event answer _ =>
    (VerdictRepository.findByHost s.verdicts event.host).any (·.isHuman) = false ∧
      ∃ verdict, answer.outcome = .ok verdict ∧ d.EnactsPattern event answer verdict
  | _ => False

end SafetyOp

section

variable {d : DeepInvestigator} {event : SafetyAnalyzeEvent} {answer : ModelAnswer}
  {verdict : InvestigationVerdict} {s : SafetyState} {now : Int}

theorem toxic_of_blockAliases {corroborated : Bool} {policy : AutoBlockPolicy}
    (h : (decideAuthority verdict corroborated policy).action = .blockAliases) :
    (decideAuthority verdict corroborated policy).tier = .toxic ∧
      (decideAuthority verdict corroborated policy).auto = true := by
  revert h
  unfold decideAuthority
  dsimp only
  repeat' split
  all_goals simp

theorem DeepInvestigator.EnactsPattern.recorded (henacts : d.EnactsPattern event answer verdict) :
    storedTier (d.decision event answer verdict) = .toxic ∧
      d.storedScope verdict (d.decision event answer verdict) =
        (.pathPattern, verdict.pathPattern) := by
  obtain ⟨haction, hscope, hvalid⟩ := henacts
  constructor
  · obtain ⟨htier, hauto⟩ := toxic_of_blockAliases haction
    have hauto' : (d.decision event answer verdict).auto = true := hauto
    rw [storedTier, if_neg (by simp [hauto'])]
    exact htier
  · simp [storedScope, haction, hscope, hvalid]

theorem verdicts_enact (decision : AuthorityDecision) :
    ((d.enact event verdict decision now).run s).2.verdicts = s.verdicts := by
  unfold DeepInvestigator.enact
  split
  · rw [run_bind]
    exact verdicts_enforce s
  · rfl

/-- An investigation that enacts a pattern puts it in force: the gate refuses every URL of the
host that it matches. -/
theorem refuses_of_enactsPattern
    (hhuman : (VerdictRepository.findByHost s.verdicts event.host).any (·.isHuman) = false)
    (houtcome : answer.outcome = .ok verdict) (henacts : d.EnactsPattern event answer verdict)
    {policy : UrlPolicyService} {url : String}
    (hhost : destinationHost policy.lib url = some event.host)
    (hmatch : patternMatcher d.re (verdict.pathPattern.getD "") url = true) :
    policy.refuses ((d.investigate event answer now).run s).2.verdicts url
      (toxicVerdictProvider d.re) = true := by
  obtain ⟨htier, hscope⟩ := henacts.recorded
  obtain ⟨pattern, hpattern, hne⟩ : ∃ pattern, verdict.pathPattern = some pattern ∧
      pattern ≠ "" := by
    cases hpattern : verdict.pathPattern with
    | none =>
      have hvalid := henacts.2.2
      simp [hpattern, isValidPattern] at hvalid
    | some pattern =>
      refine ⟨pattern, rfl, ?_⟩
      rintro rfl
      have hvalid := henacts.2.2
      simp [hpattern, isValidPattern] at hvalid
  have hverdicts : ((d.investigate event answer now).run s).2.verdicts =
      (VerdictRepository.upsertVerdict s.verdicts event.host
        (d.recorded event verdict (d.decision event answer verdict)) now).1 := by
    simp only [DeepInvestigator.investigate, readVerdict, ask_bind, run_act, hhuman,
      Bool.false_eq_true, if_false, houtcome, recordVerdict, call_bind]
    rw [verdicts_enact]
  rw [hverdicts]
  have hsystem : ¬((d.recorded event verdict (d.decision event answer verdict)).decidedBy =
      "system" ∧ (s.verdicts.entries event.host).any (·.isHuman) = true) := by
    intro hrefused
    exact Bool.false_ne_true (hhuman.symm.trans hrefused.2)
  rw [UrlPolicyService.refuses_toxicVerdictProvider (findByHost_upsertVerdict_self hsystem)
    hhost]
  refine decide_eq_true ⟨htier, ?_⟩
  rw [hpattern] at hmatch hscope
  have hreach : (d.recorded event verdict (d.decision event answer verdict)).reach
      (s.verdicts.entries event.host) = (some .pathPattern, some pattern) := by
    simp only [VerdictRepository.VerdictFields.reach, DeepInvestigator.recorded, hscope]
  simp only [verdictCovers, VerdictRepository.VerdictFields.doc, hreach, Option.getD_some]
  simpa [hne] using hmatch

end

/-! ## A pattern enacted -/

/-- What `regex` does on patterns without special characters. -/
def literalRegex : RegexLib where
  compiles _ := true
  search pattern url := some (decide (pattern.toList <:+: url.toList))

/-- The deep tier under a policy. -/
def deepTier (policy : AutoBlockPolicy) : DeepInvestigator where
  enforcer := SafetyEnforcer.plainConfig
  re := literalRegex
  lib := asciiUrlLib
  policy

/-- The create gate over the verdict store. -/
def verdictGate : UrlPolicyService where
  lib := asciiUrlLib
  validateUrl _ := true
  providers := [toxicVerdictProvider literalRegex]
  publicMessages := PyDict.empty

/-- A report about a page of the host. -/
def reportOf (url : String) : SafetyAnalyzeEvent where
  url
  host := "a.example"
  registrableDomain := "a.example"

/-- No verdict and no link. -/
def blankSafety : SafetyState where
  verdicts := ⟨fun _ => none⟩
  stores := {
    urls := .empty
    legacy := .empty
    emoji := .empty }

end Spoo
