import Spoo.Repositories.VerdictRepository
import Spoo.Services.UrlService.Handlers
import Spoo.Shared.Validators

/-!
# UrlPolicyService (`services/safety/policy.py`, `services/safety/providers.py`)

The gate every destination passes at creation and on an edit. A provider looks at one signal and gives a verdict
or abstains. The provider over the verdict store is defined here; blocklists, feeds and Web Risk are providers a
chain is given.
-/

namespace Spoo

/-! ## Providers -/

/-- `ProviderVerdict`. -/
structure ProviderVerdict where
  tier : VerdictTier
  reason : String
  scope : VerdictScope := .host
  pathPattern : Option String := none
  deriving DecidableEq, Repr

/-- `AnalysisProvider`: asked about a URL, its host and its registrable domain, over the
verdicts stored by then. -/
structure AnalysisProvider where
  name : String
  analyze : VerdictStore → String → String → String → Option ProviderVerdict

/-- `without_query`: scheme, host and path (`providers.py:178-181`). -/
def withoutQuery (url : String) : String :=
  let path := (url.toList.takeWhile (· ≠ '?')).takeWhile (· ≠ '#')
  String.ofList (path.reverse.dropWhile (· = '/')).reverse

/-- `verdict_covers` (`providers.py:165-175`). -/
def verdictCovers (re : RegexLib) (verdict : VerdictDoc) (url : String) : Bool :=
  match verdict.scope.getD .host with
  | .host => true
  | .pathPattern =>
    match verdict.pathPattern with
    | some pattern => pattern ≠ "" && patternMatcher re pattern url
    | none => false
  | .links =>
    match verdict.sampleUrl with
    | some sampleUrl => sampleUrl ≠ "" && withoutQuery url = withoutQuery sampleUrl
    | none => false

/-- `ToxicVerdictProvider` (`providers.py:184-217`). -/
def toxicVerdictProvider (re : RegexLib) : AnalysisProvider where
  name := "toxic_verdict"
  analyze verdicts url host _ :=
    match VerdictRepository.findByHost verdicts host with
    | some verdict =>
      if verdict.tier = .toxic ∧ verdictCovers re verdict url then
        some {
          tier := .toxic
          reason := "destination previously judged malicious (" ++
            (verdict.reason.filter (· ≠ "")).getD "no reason recorded" ++ ")" }
      else none
    | none => none

example : withoutQuery "https://a.example/p/?x=1#y" = "https://a.example/p" := by decide

/-! ## The gate -/

/-- What `UrlPolicyService` is built from. `validateUrl` is `validate_url` with the blocked
self domains. -/
structure UrlPolicyService where
  lib : UrlLib
  validateUrl : String → Bool
  providers : List AnalysisProvider
  publicMessages : PyDict String String

namespace UrlPolicyService

/-- The rejection of a provider's verdict: coarse unless the policy is published. -/
def rejection (policy : UrlPolicyService) (provider : AnalysisProvider) : PolicyRejection where
  code := provider.name
  publicMessage := (policy.publicMessages.get? provider.name).getD "URL is blocked"

/-- The provider judges the URL toxic. -/
def refuses (policy : UrlPolicyService) (verdicts : VerdictStore) (url : String)
    (provider : AnalysisProvider) : Bool :=
  let parts := parseDestination policy.lib url
  let host := (parts.map (·.host)).getD ""
  let registrable := (parts.map (·.registrableDomain)).getD ""
  (provider.analyze verdicts url host registrable).any (·.tier = .toxic)

/-- `check`: the first provider that refuses decides (`policy.py:78-107`). -/
def check (policy : UrlPolicyService) (verdicts : VerdictStore) (url : String) :
    Option PolicyRejection :=
  if !policy.validateUrl url then some ⟨"invalid_url", "URL is not allowed or invalid"⟩
  else (policy.providers.find? (policy.refuses verdicts url)).map policy.rejection

variable {policy : UrlPolicyService} {verdicts : VerdictStore} {url : String}

/-- A URL passes only when every provider lets it. -/
theorem not_refuses_of_check (h : policy.check verdicts url = none) :
    ∀ provider ∈ policy.providers, policy.refuses verdicts url provider = false := by
  intro provider hmem
  unfold check at h
  split at h
  · cases h
  · rw [Option.map_eq_none_iff, List.find?_eq_none] at h
    simpa using h provider hmem

/-- Whether the verdict store refuses a URL is up to the verdict on its host. -/
theorem refuses_toxicVerdictProvider {re : RegexLib} {host : String} {verdict : VerdictDoc}
    (hfound : VerdictRepository.findByHost verdicts host = some verdict)
    (hhost : destinationHost policy.lib url = some host) :
    policy.refuses verdicts url (toxicVerdictProvider re) =
      decide (verdict.tier = .toxic ∧ verdictCovers re verdict url = true) := by
  obtain ⟨parts, hparts, rfl⟩ := Option.map_eq_some_iff.1 hhost
  simp only [refuses, hparts, toxicVerdictProvider, Option.map_some, Option.getD_some, hfound]
  split
  · rename_i hcovers
    simp [hcovers]
  · rename_i hcovers
    simp [hcovers]

/-- No URL passes that a stored toxic verdict on its host covers. -/
theorem check_of_toxic_verdict {re : RegexLib} {host : String} {verdict : VerdictDoc}
    (hprovider : toxicVerdictProvider re ∈ policy.providers)
    (hverdict : VerdictRepository.findByHost verdicts host = some verdict)
    (htoxic : verdict.tier = .toxic) (hcovers : verdictCovers re verdict url = true)
    (hhost : destinationHost policy.lib url = some host) :
    policy.check verdicts url ≠ none := by
  intro hpass
  have hnot := not_refuses_of_check hpass _ hprovider
  rw [refuses_toxicVerdictProvider hverdict hhost] at hnot
  exact of_decide_eq_false hnot ⟨htoxic, hcovers⟩

end UrlPolicyService

end Spoo
