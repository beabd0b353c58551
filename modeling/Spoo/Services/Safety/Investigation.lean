import Mathlib.Data.List.Infix
import Spoo.Services.Safety.Analyzer

/-!
# DeepInvestigator (`services/safety/investigation.py`)

The model classifies a destination, and code decides how far the classification reaches. What the
model answers is a parameter of an investigation.
-/

namespace Spoo

/-- `Classification`. -/
inductive Classification where
  | scamHost
  | compromisedLegit
  | redirectorService
  | legitRelay
  | spamGray
  | benign
  | uncertain
  deriving DecidableEq, Repr

/-- `Confidence`. -/
inductive Confidence where
  | low
  | medium
  | high
  deriving DecidableEq, Repr

/-- The lists a `ListProposal` may name. -/
inductive ProposedList where
  | shorteners
  | redirectors
  deriving DecidableEq, Repr

/-- `ListProposal`. -/
structure ListProposal where
  list : ProposedList
  domain : String
  deriving DecidableEq, Repr

/-- `InvestigationVerdict`: the model's claim. -/
structure InvestigationVerdict where
  classification : Classification
  confidence : Confidence
  reason : String
  scope : VerdictScope := .host
  pathPattern : Option String := none
  proposals : List ListProposal := []
  deriving DecidableEq, Repr

/-- `AutoBlockPolicy`. -/
inductive AutoBlockPolicy where
  | corroborated
  | confident
  | both
  | off
  deriving DecidableEq, Repr

/-- The `action` of an `AuthorityDecision`. -/
inductive AuthorityAction where
  | blockHost
  | blockAliases
  | applyList
  | propose
  | benign
  | review
  deriving DecidableEq, Repr

/-- `AuthorityDecision`. -/
structure AuthorityDecision where
  action : AuthorityAction
  tier : VerdictTier
  auto : Bool
  deriving DecidableEq, Repr

/-- `_may_auto_block` (`investigation.py:196-204`). -/
def mayAutoBlock (high corroborated : Bool) : AutoBlockPolicy → Bool
  | .off => false
  | .corroborated => corroborated && high
  | .confident => high
  | .both => high && corroborated

/-- `decide_authority` (`investigation.py:134-193`). -/
def decideAuthority (verdict : InvestigationVerdict) (corroborated : Bool)
    (policy : AutoBlockPolicy) : AuthorityDecision :=
  let high := decide (verdict.confidence = .high)
  let toxic : AuthorityDecision :=
    if !mayAutoBlock high corroborated policy then ⟨.review, .toxic, false⟩
    else if verdict.classification = .compromisedLegit then ⟨.blockAliases, .toxic, true⟩
    else match verdict.scope with
      | .links => ⟨.blockAliases, .toxic, true⟩
      | .pathPattern => ⟨.blockAliases, .toxic, true⟩
      | .host => ⟨.blockHost, .toxic, true⟩
  match verdict.classification with
  | .benign => ⟨.benign, .benign, true⟩
  | .legitRelay => ⟨.benign, .benign, true⟩
  | .redirectorService =>
    if verdict.proposals = [] then ⟨.benign, .gray, true⟩
    else if high && verdict.proposals.all (·.list = .redirectors) && decide (policy ≠ .off) then
      ⟨.applyList, .gray, true⟩
    else ⟨.propose, .gray, false⟩
  | .spamGray => ⟨.benign, .gray, true⟩
  | .scamHost => toxic
  | .compromisedLegit => toxic
  | .uncertain => ⟨.review, .uncertain, false⟩

/-- What comes back from the model: its claim, or why there is none. `hardHit` is what
`saw_hard_hit` tells of the run. -/
structure ModelAnswer where
  outcome : Except String InvestigationVerdict
  hardHit : Bool := false

/-- What a `DeepInvestigator` is built from. -/
structure DeepInvestigator where
  enforcer : EnforcerConfig
  re : RegexLib
  lib : UrlLib
  policy : AutoBlockPolicy

namespace DeepInvestigator

variable (d : DeepInvestigator)

/-- `_corroborated` (`investigation.py:393-401`). -/
def corroborated (event : SafetyAnalyzeEvent) (hardHit : Bool) : Bool :=
  let screening := (d.lib.lower (event.context.screening.getD "")).toList
  ["feed", "web_risk", "blocked_pattern"].any (fun src => decide (src.toList <:+: screening)) ||
    hardHit

/-- The tier that is stored: a toxic claim that did not enforce itself is stored as uncertain. -/
def storedTier (decision : AuthorityDecision) : VerdictTier :=
  if decision.tier = .toxic ∧ decision.auto = false then .uncertain else decision.tier

/-- The scope and the pattern that are stored (`investigation.py:337-352`). -/
def storedScope (verdict : InvestigationVerdict) (decision : AuthorityDecision) :
    VerdictScope × Option String :=
  let claimed :=
    if verdict.scope = .pathPattern ∧ isValidPattern d.re (verdict.pathPattern.getD "") = false
    then (VerdictScope.links, none)
    else (verdict.scope, verdict.pathPattern)
  match decision.action with
  | .blockHost => (.host, claimed.2)
  | .blockAliases => if verdict.scope = .host then (.links, claimed.2) else claimed
  | _ => claimed

/-- `_aliases_to_block`: the `domain/code` entries of the report
(`investigation.py:505-517`). -/
def aliasesToBlock (event : SafetyAnalyzeEvent) : List (String × String) :=
  event.context.reportedCodes.filterMap fun entry =>
    let domain := entry.toList.takeWhile (· ≠ '/')
    match entry.toList.drop domain.length with
    | _ :: code => some (String.ofList code, String.ofList domain)
    | [] => none

/-- The block a decision enacts, if any (`_enact`, `investigation.py:403-503`). -/
def enactment (event : SafetyAnalyzeEvent) (verdict : InvestigationVerdict)
    (decision : AuthorityDecision) : Option Enforcement :=
  match decision.action with
  | .blockHost => some .blockHost
  | .blockAliases =>
    if verdict.scope = .pathPattern ∧ isValidPattern d.re (verdict.pathPattern.getD "") = true
    then some (.blockMatching (.pattern (verdict.pathPattern.getD "")))
    else if aliasesToBlock event ≠ [] then some (.blockAliases (aliasesToBlock event))
    else some (.blockMatching (.sameDestination event.url))
  | _ => none

/-- `_enact`. Adding to a list and asking for a review write neither a verdict nor a link. -/
def enact (event : SafetyAnalyzeEvent) (verdict : InvestigationVerdict)
    (decision : AuthorityDecision) (now : Int) : SafetyProgram Unit :=
  match d.enactment event verdict decision with
  | some enforcement => do
    let _ ← enforce d.enforcer d.re event.host verdict.reason now enforcement
    pure ()
  | none => pure ()

/-- What an investigation stores of a claim (`investigation.py:353-376`). -/
def recorded (event : SafetyAnalyzeEvent) (verdict : InvestigationVerdict)
    (decision : AuthorityDecision) : VerdictRepository.VerdictFields where
  registrableDomain := event.registrableDomain
  tier := storedTier decision
  reason := some verdict.reason
  source := "llm"
  trigger := event.trigger
  sampleUrl := some event.url
  provenance := some (d.storedScope verdict decision)

/-- What `_record_and_review` stores where the model gives no verdict. -/
def unjudged (event : SafetyAnalyzeEvent) (reason : String) :
    VerdictRepository.VerdictFields where
  registrableDomain := event.registrableDomain
  tier := .uncertain
  reason := some ("investigation " ++ reason)
  source := "llm"
  trigger := event.trigger
  sampleUrl := some event.url

/-- The decision on a claim. -/
def decision (event : SafetyAnalyzeEvent) (answer : ModelAnswer)
    (verdict : InvestigationVerdict) : AuthorityDecision :=
  decideAuthority verdict (d.corroborated event answer.hardHit) d.policy

/-- `investigate`: the verdict first, then the block (`investigation.py:298-391`). -/
def investigate (event : SafetyAnalyzeEvent) (answer : ModelAnswer) (now : Int) :
    SafetyProgram Unit := do
  let existing ← readVerdict event.host
  if existing.any (·.isHuman) then pure ()
  else match answer.outcome with
    | .error reason => do
      let _ ← recordVerdict event.host (unjudged event reason) now
      pure ()
    | .ok verdict => do
      let decision := d.decision event answer verdict
      let _ ← recordVerdict event.host (d.recorded event verdict decision) now
      d.enact event verdict decision now

end DeepInvestigator

end Spoo
