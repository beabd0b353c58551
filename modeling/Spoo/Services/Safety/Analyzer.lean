import Spoo.Lib.Program
import Spoo.Services.Safety.Enforcer
import Spoo.Services.Safety.Policy

/-!
# SafetyAnalyzer (`services/safety/analyzer.py`)

Every trigger ends in `analyze`: stored verdict, provider chain, enforcement, new verdict. An
analysis is a program whose steps are its repository calls. The escalation to the deep tier and
the notifications are left out: they change neither verdicts nor links.
-/

namespace Spoo

/-- The verdicts and the links. -/
structure SafetyState where
  verdicts : VerdictStore
  stores : Stores

/-- What a repository call of the safety tiers does. -/
inductive SafetyLabel where
  /-- `verdict_repo.find_by_host`. -/
  | reads (host : String)
  /-- Neither a verdict nor a link is written. -/
  | serves
  /-- Links are blocked on account of the host. -/
  | blocks (host : String)
  /-- An `upsert_verdict` by the system. -/
  | records (host : String)
  /-- An `upsert_verdict` by a human. -/
  | decides (host : String) (tier : VerdictTier)
  deriving DecidableEq, Repr

abbrev SafetyProgram (α : Type) : Type := Program SafetyLabel SafetyState α

/-- `verdict_repo.find_by_host`, as a call. -/
def readVerdict (host : String) : SafetyProgram (Option VerdictDoc) :=
  .ask (.reads host) fun s => VerdictRepository.findByHost s.verdicts host

/-- `verdict_repo.upsert_verdict`, as a call of the system. -/
def recordVerdict (host : String) (fields : VerdictRepository.VerdictFields) (now : Int) :
    SafetyProgram Bool :=
  .call (.records host) fun s =>
    let r := VerdictRepository.upsertVerdict s.verdicts host fields now
    (r.2, { s with verdicts := r.1 })

/-! ## Enforcement -/

/-- The matchers the tiers hand to `block_matching`. -/
inductive UrlMatcher where
  | pattern (pattern : String)
  | exactly (url : String)
  | sameDestination (url : String)

def UrlMatcher.test (re : RegexLib) : UrlMatcher → String → Bool
  | .pattern proposed, url => patternMatcher re proposed url
  | .exactly judged, url => decide (url = judged)
  | .sameDestination judged, url => decide (withoutQuery url = withoutQuery judged)

/-- The three ways to block. -/
inductive Enforcement where
  | blockHost
  | blockMatching (matcher : UrlMatcher)
  | blockAliases (pairs : List (String × String))

/-- The calls of a block, those that block links marked. -/
def Enforcement.calls (cfg : EnforcerConfig) (re : RegexLib) (host reason : String)
    (now : Int) : Enforcement → List (SafetyLabel × SafetyEnforcer.Call)
  | .blockHost =>
    [.serves, .serves, .serves, .serves, .blocks host, .blocks host, .blocks host, .serves,
      .serves].zip (SafetyEnforcer.blockHostCalls cfg host reason now)
  | .blockMatching matcher =>
    [.serves, .serves, .serves, .serves, .blocks host, .blocks host, .blocks host, .serves,
      .serves].zip (SafetyEnforcer.blockMatchingCalls cfg host (matcher.test re) reason now)
  | .blockAliases pairs =>
    [.serves, .blocks host, .serves, .serves].zip
      (SafetyEnforcer.blockAliasesCalls cfg pairs reason now)

/-- A block, as part of an analysis or an investigation. -/
def enforce (cfg : EnforcerConfig) (re : RegexLib) (host reason : String) (now : Int)
    (enforcement : Enforcement) : SafetyProgram EnforcementResult := do
  let v ← Program.calls SafetyState.stores (fun s stores => { s with stores })
    (enforcement.calls cfg re host reason now) {}
  pure (SafetyEnforcer.result host v)

/-! ## Events -/

/-- What the tiers read from the context of an event. -/
structure EventContext where
  terminal : Bool := false
  screening : Option String := none
  reportedCodes : List String := []
  deriving DecidableEq, Repr

/-- `SafetyAnalyzeEvent` (`events.py:38-52`). -/
structure SafetyAnalyzeEvent where
  url : String
  host : String
  registrableDomain : String := ""
  trigger : String := "report"
  context : EventContext := {}
  deriving DecidableEq, Repr

/-- `_TRIGGER_AUTHORITY.get`. -/
def triggerAuthority : String → Option Nat
  | "sweep" => some 0
  | "hot" => some 1
  | "redirect" => some 1
  | "pattern" => some 1
  | "edit" => some 2
  | "report" => some 2
  | _ => none

/-- What a `SafetyAnalyzer` is built from. Its providers are the blocklist, the feeds and Web
Risk; `llm` is the source of the deep tier. -/
structure SafetyAnalyzer where
  enforcer : EnforcerConfig
  re : RegexLib
  lib : UrlLib
  providers : List AnalysisProvider
  /-- In microseconds. -/
  reverdictTtl : Int
  /-- `resolve_terminal_url`. -/
  resolveTerminalUrl : String → Option String
  named : ∀ provider ∈ providers, provider.name ≠ "llm"

namespace SafetyAnalyzer

variable (a : SafetyAnalyzer)

/-- The first provider that does not abstain, with its name. -/
def firstVerdict (verdicts : VerdictStore) (event : SafetyAnalyzeEvent) :
    Option (String × ProviderVerdict) :=
  a.providers.findSome? fun provider =>
    (provider.analyze verdicts event.url event.host event.registrableDomain).map
      fun verdict => (provider.name, verdict)

/-- The stored verdict stands: a human's always, another one while it is fresh and of no lesser
authority (`analyzer.py:110-137`). -/
def skips (event : SafetyAnalyzeEvent) (existing : VerdictDoc) (now : Int) : Bool :=
  existing.isHuman ||
    existing.updatedAt.any fun updated =>
      decide (now - asAwareUtc updated.decode < a.reverdictTtl) &&
        decide ((triggerAuthority event.trigger).getD 0 ≤
          (triggerAuthority existing.trigger).getD 2)

/-- `_reenforce`: whether the verdict covers the URL of the event (`analyzer.py:260-282`). -/
def reenforce (event : SafetyAnalyzeEvent) (existing : VerdictDoc) (now : Int) :
    SafetyProgram Bool :=
  let reason := (existing.reason.filter (· ≠ "")).getD "previous toxic verdict"
  let onLinks : SafetyProgram Bool := pure (decide (some event.url = existing.sampleUrl))
  match existing.scope.getD .host with
  | .host => do
    let _ ← enforce a.enforcer a.re event.host reason now .blockHost
    pure true
  | .pathPattern =>
    match existing.pathPattern with
    | some pattern =>
      if pattern = "" then onLinks
      else do
        let _ ← enforce a.enforcer a.re event.host reason now
          (.blockMatching (.pattern pattern))
        pure (patternMatcher a.re pattern event.url)
    | none => onLinks
  | .links => onLinks

/-- The scope a toxic provider verdict is enforced with: a pattern that does not compile
narrows it to the judged link. -/
def enforcedScope (verdict : ProviderVerdict) : VerdictScope × Option String :=
  match verdict.scope with
  | .pathPattern =>
    if isValidPattern a.re (verdict.pathPattern.getD "") then
      (.pathPattern, verdict.pathPattern)
    else (.links, none)
  | scope => (scope, none)

/-- `_handle_toxic`: the block first, then the verdict (`analyzer.py:172-238`). -/
def handleToxic (event : SafetyAnalyzeEvent) (source : String) (verdict : ProviderVerdict)
    (now : Int) : SafetyProgram Unit := do
  let scope := a.enforcedScope verdict
  let enforcement : Enforcement := match scope.1 with
    | .host => .blockHost
    | .pathPattern => .blockMatching (.pattern (scope.2.getD ""))
    | .links => .blockMatching (.exactly event.url)
  let _ ← enforce a.enforcer a.re event.host verdict.reason now enforcement
  let _ ← recordVerdict event.host {
    registrableDomain := event.registrableDomain
    tier := .toxic
    reason := some verdict.reason
    source
    trigger := event.trigger
    sampleUrl := some event.url
    scope := some scope.1
    pathPattern := scope.2 } now
  pure ()

/-- The provider chain and what follows from it (`analyzer.py:139-170`). -/
def screen (event : SafetyAnalyzeEvent) (now : Int) : SafetyProgram Unit := do
  let found ← .ask .serves fun s : SafetyState => a.firstVerdict s.verdicts event
  match found with
  | some (source, verdict) =>
    if verdict.tier = .toxic then a.handleToxic event source verdict now
    else do
      let _ ← recordVerdict event.host {
        registrableDomain := event.registrableDomain
        tier := .uncertain
        reason := some verdict.reason
        source
        trigger := event.trigger
        sampleUrl := some event.url } now
      pure ()
  | none => do
    let _ ← recordVerdict event.host {
      registrableDomain := event.registrableDomain
      tier := .uncertain
      reason := none
      source := "none"
      trigger := event.trigger
      sampleUrl := some event.url } now
    pure ()

/-- Whether a stored verdict settles the event: a toxic one that covers it, which is enforced
again. -/
def settles (event : SafetyAnalyzeEvent) (existing : VerdictDoc) (now : Int) :
    SafetyProgram Bool :=
  if existing.tier = .toxic then a.reenforce event existing now else pure false

/-- `analyze`, but for redirects (`analyzer.py:105-170`). -/
def judge (event : SafetyAnalyzeEvent) (now : Int) : SafetyProgram Unit := do
  let existing ← readVerdict event.host
  match existing with
  | none => a.screen event now
  | some verdict =>
    let settled ← a.settles event verdict now
    if settled then pure ()
    else if a.skips event verdict now then pure ()
    else a.screen event now

/-- The event for the URL a redirect ends at; none where it ends nowhere else
(`analyzer.py:284-311`). -/
def terminalEvent (event : SafetyAnalyzeEvent) : Option SafetyAnalyzeEvent := do
  let terminal ← a.resolveTerminalUrl event.url
  let parts ← parseDestination a.lib terminal
  if parts.host = event.host then none
  else some {
    url := terminal
    host := parts.host
    registrableDomain := parts.registrableDomain
    trigger := "redirect"
    context := { event.context with terminal := true } }

/-- `_screen_redirect`: the URL the redirect ends at is judged, and the link that leads there is
blocked if the verdict covers it (`analyzer.py:284-336`). -/
def screenRedirect (event : SafetyAnalyzeEvent) (now : Int) : SafetyProgram Unit :=
  match a.terminalEvent event with
  | none => pure ()
  | some terminal => do
    a.judge terminal now
    let verdict ← readVerdict terminal.host
    match verdict with
    | none => pure ()
    | some verdict =>
      if verdict.tier = .toxic ∧ verdictCovers a.re verdict terminal.url then do
        let reason := (verdict.reason.filter (· ≠ "")).getD
          "redirect chain ends at a blocked host"
        let _ ← enforce a.enforcer a.re event.host (reason ++ " (via " ++ event.host ++ ")") now
          (.blockMatching (.exactly event.url))
        pure ()
      else pure ()

/-- `analyze` (`analyzer.py:105-170`). -/
def analyze (event : SafetyAnalyzeEvent) (now : Int) : SafetyProgram Unit :=
  if event.trigger = "redirect" ∧ event.context.terminal = false then a.screenRedirect event now
  else a.judge event now

end SafetyAnalyzer

end Spoo
