import Spoo.Proofs.ModelPatterns

/-!
# What becomes of toxic evidence, and verdicts on the judged link

A host has one verdict document. An analysis of a URL that a narrow verdict does not cover may judge the host afresh,
and what it stores takes the place of what was known. Screening blocks the links whose URL is the judged one to the
letter, and the create gate refuses every URL that comes to the same without its query, its fragment and its last
slashes.
-/

namespace Spoo

open Program

/-! ## Toxic evidence -/

/-- The stored verdict on the host is toxic and covers the URL. -/
def VerdictStore.Condemns (re : RegexLib) (verdicts : VerdictStore) (host url : String) : Prop :=
  ∃ verdict, VerdictRepository.findByHost verdicts host = some verdict ∧
    verdict.tier = .toxic ∧ verdictCovers re verdict url = true

/-- The create gate refuses what is condemned. -/
theorem VerdictStore.Condemns.check {re : RegexLib} {verdicts : VerdictStore}
    {host url : String} (h : verdicts.Condemns re host url) {policy : UrlPolicyService}
    (hprovider : toxicVerdictProvider re ∈ policy.providers)
    (hhost : destinationHost policy.lib url = some host) : policy.check verdicts url ≠ none := by
  obtain ⟨verdict, hfound, htoxic, hcovers⟩ := h
  exact UrlPolicyService.check_of_toxic_verdict hprovider hfound htoxic hcovers hhost

theorem findByHost_upsertVerdict_of_ne {verdicts : VerdictStore} {host other : String}
    {fields : VerdictRepository.VerdictFields} {now : Int} (hne : other ≠ host) :
    VerdictRepository.findByHost
        (VerdictRepository.upsertVerdict verdicts host fields now).1 other =
      VerdictRepository.findByHost verdicts other := by
  unfold VerdictRepository.upsertVerdict
  dsimp only
  split
  · rfl
  · exact if_neg hne

namespace SafetyAnalyzer

variable {a : SafetyAnalyzer} {event : SafetyAnalyzeEvent} {now : Int} {s : SafetyState}
  {verdict : VerdictDoc}

/-- Whether a toxic verdict settles the analysis of a URL: what `_reenforce` returns. A narrow
verdict settles its sample URL only as it is written. -/
def settledBy (a : SafetyAnalyzer) (verdict : VerdictDoc) (url : String) : Bool :=
  match verdict.scope.getD .host with
  | .host => true
  | .pathPattern =>
    match verdict.pathPattern with
    | some pattern =>
      if pattern = "" then decide (some url = verdict.sampleUrl)
      else patternMatcher a.re pattern url
    | none => decide (some url = verdict.sampleUrl)
  | .links => decide (some url = verdict.sampleUrl)

/-- What an analysis that judges afresh stores. -/
def outcome (a : SafetyAnalyzer) (verdicts : VerdictStore) (event : SafetyAnalyzeEvent) :
    VerdictRepository.VerdictFields :=
  match a.firstVerdict verdicts event with
  | some (source, found) =>
    if found.tier = .toxic then {
      registrableDomain := event.registrableDomain
      tier := .toxic
      reason := some found.reason
      source
      trigger := event.trigger
      sampleUrl := some event.url
      scope := some (a.enforcedScope found).1
      pathPattern := (a.enforcedScope found).2 }
    else {
      registrableDomain := event.registrableDomain
      tier := .uncertain
      reason := some found.reason
      source
      trigger := event.trigger
      sampleUrl := some event.url }
  | none => {
    registrableDomain := event.registrableDomain
    tier := .uncertain
    reason := none
    source := "none"
    trigger := event.trigger
    sampleUrl := some event.url }

theorem verdicts_screen : ((a.screen event now).run s).2.verdicts =
    (VerdictRepository.upsertVerdict s.verdicts event.host (a.outcome s.verdicts event) now).1 := by
  unfold outcome
  simp only [screen, ask_bind, run_act]
  cases a.firstVerdict s.verdicts event with
  | none => rfl
  | some found =>
    obtain ⟨source, found⟩ := found
    dsimp only
    split
    · simp only [handleToxic, recordVerdict, run_bind, run_call, pure_eq, run_ret,
        verdicts_enforce]
    · rfl

theorem run_reenforce : ((a.reenforce event verdict now).run s).1 = a.settledBy verdict event.url ∧
    ((a.reenforce event verdict now).run s).2.verdicts = s.verdicts := by
  unfold reenforce settledBy
  dsimp only
  cases verdict.scope.getD .host with
  | host =>
    simp only [run_bind, pure_eq, run_ret, verdicts_enforce]
    trivial
  | pathPattern =>
    cases verdict.pathPattern with
    | none => exact ⟨rfl, rfl⟩
    | some pattern =>
      by_cases hempty : pattern = ""
      · simp only [hempty, if_true, pure_eq, run_ret]
        trivial
      · simp only [hempty, if_false, run_bind, pure_eq, run_ret, verdicts_enforce]
        trivial
  | links => exact ⟨rfl, rfl⟩

/-- With a toxic verdict on its host, an analysis stores its own outcome unless the verdict
settles the URL or stands. -/
theorem verdicts_judge
    (hfound : VerdictRepository.findByHost s.verdicts event.host = some verdict)
    (htoxic : verdict.tier = .toxic) :
    ((a.judge event now).run s).2.verdicts =
      if a.settledBy verdict event.url = true ∨ a.skips event verdict now = true then s.verdicts
      else (VerdictRepository.upsertVerdict s.verdicts event.host (a.outcome s.verdicts event)
        now).1 := by
  have hsettles : a.settles event verdict now = a.reenforce event verdict now := if_pos htoxic
  obtain ⟨hsettled, hverdicts⟩ := @run_reenforce a event now s verdict
  simp only [judge, readVerdict, ask_bind, run_act, hfound, hsettles, run_bind, hsettled]
  cases a.settledBy verdict event.url with
  | true => exact hverdicts
  | false =>
    cases a.skips event verdict now with
    | true => exact hverdicts
    | false =>
      simp only [Bool.false_eq_true, if_false, or_self, verdicts_screen, hverdicts]

theorem verdicts_judge_of_ne {host : String} (hne : host ≠ event.host) :
    VerdictRepository.findByHost ((a.judge event now).run s).2.verdicts host =
      VerdictRepository.findByHost s.verdicts host := by
  have hscreen (s : SafetyState) :
      VerdictRepository.findByHost ((a.screen event now).run s).2.verdicts host =
        VerdictRepository.findByHost s.verdicts host := by
    rw [verdicts_screen]
    exact findByHost_upsertVerdict_of_ne hne
  simp only [judge, readVerdict, ask_bind, run_act]
  split
  · exact hscreen s
  · rename_i existing _
    have hsettles : ((a.settles event existing now).run s).2.verdicts = s.verdicts := by
      unfold settles
      split
      · exact run_reenforce.2
      · rfl
    rw [run_bind]
    split
    · exact congrArg (VerdictRepository.findByHost · host) hsettles
    · split
      · exact congrArg (VerdictRepository.findByHost · host) hsettles
      · rw [hscreen, hsettles]

/-- An analysis stores what the judgement of its event stores. -/
theorem verdicts_analyze : ((a.analyze event now).run s).2.verdicts =
    match a.judged event with
    | none => s.verdicts
    | some judged => ((a.judge judged now).run s).2.verdicts := by
  unfold analyze judged
  split
  · unfold screenRedirect
    cases a.terminalEvent event with
    | none => rfl
    | some terminal =>
      simp only [run_bind, readVerdict, ask_bind, run_act]
      split
      · rfl
      · split
        · rw [run_bind]
          exact verdicts_enforce _
        · rfl
  · rfl

end SafetyAnalyzer

/-! ## Runs of analyses -/

/-- One analysis, with the analyzer as it is configured then. -/
structure Analysis where
  analyzer : SafetyAnalyzer
  event : SafetyAnalyzeEvent
  now : Int

namespace Analysis

/-- Run the analysis. -/
def run (s : SafetyState) (op : Analysis) : SafetyState :=
  ((op.analyzer.analyze op.event op.now).run s).2

/-- The analysis judges the host afresh, on account of a URL that the stored verdict does not
settle, and the verdict is stale or of a lesser authority. -/
def Rejudges (host : String) (s : SafetyState) (op : Analysis) (judged : SafetyAnalyzeEvent) :
    Prop :=
  op.analyzer.judged op.event = some judged ∧ judged.host = host ∧
    ∀ verdict, VerdictRepository.findByHost s.verdicts host = some verdict →
      op.analyzer.settledBy verdict judged.url = false ∧
        op.analyzer.skips judged verdict op.now = false

/-- What the analysis makes of the verdict on the host. -/
theorem findByHost_run {host : String} {s : SafetyState} {op : Analysis} {verdict : VerdictDoc}
    (hfound : VerdictRepository.findByHost s.verdicts host = some verdict)
    (htoxic : verdict.tier = .toxic) :
    (∃ judged, op.Rejudges host s judged ∧
      VerdictRepository.findByHost (op.run s).verdicts host =
        some ((op.analyzer.outcome s.verdicts judged).doc host (some verdict) op.now)) ∨
    (∀ judged, ¬op.Rejudges host s judged) ∧
      VerdictRepository.findByHost (op.run s).verdicts host = some verdict := by
  unfold run
  rw [SafetyAnalyzer.verdicts_analyze]
  cases hjudged : op.analyzer.judged op.event with
  | none =>
    refine .inr ⟨fun judged h => ?_, hfound⟩
    cases hjudged.symm.trans h.1
  | some judged =>
    dsimp only
    have hsame {other : SafetyAnalyzeEvent} (h : op.Rejudges host s other) : other = judged :=
      Option.some.inj (h.1.symm.trans hjudged)
    by_cases hhost : judged.host = host
    swap
    · refine .inr ⟨fun other h => hhost (hsame h ▸ h.2.1), ?_⟩
      rw [SafetyAnalyzer.verdicts_judge_of_ne (Ne.symm hhost)]
      exact hfound
    subst hhost
    rw [SafetyAnalyzer.verdicts_judge hfound htoxic]
    split
    · rename_i hkept
      refine .inr ⟨fun other h => ?_, hfound⟩
      obtain ⟨hsettled, hskips⟩ := h.2.2 verdict hfound
      rw [hsame h] at hsettled hskips
      rcases hkept with hkept | hkept
      · exact Bool.false_ne_true (hsettled.symm.trans hkept)
      · exact Bool.false_ne_true (hskips.symm.trans hkept)
    · rename_i hnot
      obtain ⟨hsettled, hskips⟩ := not_or.1 hnot
      refine .inl ⟨judged, ⟨hjudged, rfl, fun other hother => ?_⟩, ?_⟩
      · have heq : other = verdict := Option.some.inj (hother.symm.trans hfound)
        subst heq
        exact ⟨by simpa using hsettled, by simpa using hskips⟩
      · have hsystem : ¬((op.analyzer.outcome s.verdicts judged).decidedBy = "system" ∧
            (s.verdicts.entries judged.host).any (·.isHuman) = true) := by
          rintro ⟨-, hhuman⟩
          have hentry : s.verdicts.entries judged.host = some verdict := hfound
          rw [hentry, Option.any_some] at hhuman
          simp [SafetyAnalyzer.skips, hhuman] at hskips
        rw [findByHost_upsertVerdict_self hsystem]
        have hentry : s.verdicts.entries judged.host = some verdict := hfound
        rw [hentry]

/-- A fresh judgement of the host comes to a toxic verdict that covers the URL. -/
def CondemnsAgain (re : RegexLib) (host url : String) (s : SafetyState) (op : Analysis) : Prop :=
  ∀ judged, op.Rejudges host s judged →
    (op.analyzer.outcome s.verdicts judged).tier = .toxic ∧
      verdictCovers re ((op.analyzer.outcome s.verdicts judged).doc host
        (VerdictRepository.findByHost s.verdicts host) op.now) url = true

/-- One analysis keeps a URL condemned unless it judges afresh to another effect. -/
theorem condemns_run_iff {re : RegexLib} {host url : String} {s : SafetyState} {op : Analysis}
    (h : s.verdicts.Condemns re host url) :
    (op.run s).verdicts.Condemns re host url ↔ op.CondemnsAgain re host url s := by
  obtain ⟨verdict, hfound, htoxic, hcovers⟩ := h
  rcases op.findByHost_run hfound htoxic with ⟨judged, hrejudges, hafter⟩ | ⟨hnone, hafter⟩
  · have hsame {other : SafetyAnalyzeEvent} (hother : op.Rejudges host s other) :
        other = judged := Option.some.inj (hother.1.symm.trans hrejudges.1)
    unfold VerdictStore.Condemns CondemnsAgain
    rw [hafter, hfound]
    constructor
    · rintro ⟨_, heq, htier, hcovered⟩ other hother
      cases heq
      rw [hsame hother]
      exact ⟨htier, hcovered⟩
    · intro hagain
      obtain ⟨htier, hcovered⟩ := hagain judged hrejudges
      exact ⟨_, rfl, htier, hcovered⟩
  · exact ⟨fun _ judged hrejudges => absurd hrejudges (hnone judged),
      fun _ => ⟨verdict, hafter, htoxic, hcovers⟩⟩

end Analysis

/-- Once a toxic verdict covers a URL, the stored verdict covers it through a whole run of
analyses if and only if each of them that judges the host afresh comes to a toxic verdict that
covers it. While it is covered, the create gate refuses the URL. -/
theorem toxic_evidence_kept_iff (re : RegexLib) (host url : String) (s : SafetyState)
    (ops : List Analysis) (hstart : s.verdicts.Condemns re host url) :
    ((∀ t ∈ List.scanl Analysis.run s ops, t.verdicts.Condemns re host url) ↔
      Run.Guarded Analysis.run (fun s op => op.CondemnsAgain re host url s) s ops) ∧
    ∀ t ∈ List.scanl Analysis.run s ops, t.verdicts.Condemns re host url →
      ∀ policy : UrlPolicyService, toxicVerdictProvider re ∈ policy.providers →
        destinationHost policy.lib url = some host → policy.check t.verdicts url ≠ none :=
  ⟨Run.forall_mem_scanl_iff (P := fun s : SafetyState => s.verdicts.Condemns re host url)
      (fun _ op h => op.condemns_run_iff h) hstart,
    fun _ _ hcondemns _ hprovider hhost => hcondemns.check hprovider hhost⟩

/-- Web Risk knows one page. -/
def oneListed : AnalysisProvider where
  name := "web_risk"
  analyze _ url _ _ :=
    if url = "https://a.example/evil" then
      some { tier := .toxic, reason := "flagged by Google Web Risk", scope := .links }
    else none

/-- An analyzer with that provider. -/
def webRiskAnalyzer : SafetyAnalyzer where
  enforcer := SafetyEnforcer.plainConfig
  re := literalRegex
  lib := asciiUrlLib
  providers := [oneListed]
  reverdictTtl := 86400000000
  resolveTerminalUrl _ := none
  named := by decide

/-- A sweep finds the page, and an hour later another page of the host is reported. -/
def sweepThenReport : List Analysis := [
  ⟨webRiskAnalyzer, { reportOf "https://a.example/evil" with trigger := "sweep" }, 0⟩,
  ⟨webRiskAnalyzer, reportOf "https://a.example/about", 3600000000⟩]

/-- What the sweep leaves. -/
def sweptState : SafetyState := (sweepThenReport.take 1).foldl Analysis.run blankSafety

theorem condemns_sweptState :
    sweptState.verdicts.Condemns literalRegex "a.example" "https://a.example/evil" :=
  ⟨_, rfl, rfl, by decide +kernel⟩

theorem toxic_evidence_kept_iff_sweptState :
    ((∀ t ∈ List.scanl Analysis.run sweptState (sweepThenReport.drop 1),
        t.verdicts.Condemns literalRegex "a.example" "https://a.example/evil") ↔
      Run.Guarded Analysis.run (fun s op =>
        op.CondemnsAgain literalRegex "a.example" "https://a.example/evil" s) sweptState
        (sweepThenReport.drop 1)) ∧
    ∀ t ∈ List.scanl Analysis.run sweptState (sweepThenReport.drop 1),
      t.verdicts.Condemns literalRegex "a.example" "https://a.example/evil" →
      ∀ policy : UrlPolicyService, toxicVerdictProvider literalRegex ∈ policy.providers →
        destinationHost policy.lib "https://a.example/evil" = some "a.example" →
          policy.check t.verdicts "https://a.example/evil" ≠ none :=
  toxic_evidence_kept_iff literalRegex "a.example" "https://a.example/evil" sweptState
    (sweepThenReport.drop 1) condemns_sweptState

/-- The report of the other page makes the gate forget the first. -/
theorem report_of_other_page_forgets :
    sweptState.verdicts.Condemns literalRegex "a.example" "https://a.example/evil" ∧
      verdictGate.check sweptState.verdicts "https://a.example/evil" ≠ none ∧
      ¬(sweepThenReport.foldl Analysis.run blankSafety).verdicts.Condemns literalRegex
        "a.example" "https://a.example/evil" ∧
      verdictGate.check (sweepThenReport.foldl Analysis.run blankSafety).verdicts
        "https://a.example/evil" = none := by
  refine ⟨condemns_sweptState, by decide +kernel, ?_, by decide +kernel⟩
  rintro ⟨verdict, hfound, htoxic, -⟩
  cases hfound
  cases htoxic

/-! ## Verdicts on the judged link -/

namespace SafetyAnalyzer

/-- The block that `_handle_toxic` asks for. -/
def toxicEnforcement (a : SafetyAnalyzer) (event : SafetyAnalyzeEvent) (verdict : ProviderVerdict) :
    Enforcement :=
  match (a.enforcedScope verdict).1 with
  | .host => .blockHost
  | .pathPattern => .blockMatching (.pattern ((a.enforcedScope verdict).2.getD ""))
  | .links => .blockMatching (.exactly event.url)

/-- The verdict that `_handle_toxic` stores. -/
def toxicFields (a : SafetyAnalyzer) (event : SafetyAnalyzeEvent) (source : String)
    (verdict : ProviderVerdict) : VerdictRepository.VerdictFields where
  registrableDomain := event.registrableDomain
  tier := .toxic
  reason := some verdict.reason
  source
  trigger := event.trigger
  sampleUrl := some event.url
  scope := some (a.enforcedScope verdict).1
  pathPattern := (a.enforcedScope verdict).2

variable {a : SafetyAnalyzer} {event : SafetyAnalyzeEvent} {source : String} {verdict : ProviderVerdict}
  {now : Int} {s : SafetyState}

theorem handleToxic_eq : a.handleToxic event source verdict now = (do
    let _ ← enforce a.enforcer a.re event.host verdict.reason now (a.toxicEnforcement event verdict)
    let _ ← recordVerdict event.host (a.toxicFields event source verdict) now
    pure ()) := rfl

/-- The verdict on the host after the analysis, unless it is a human's, is the one the analysis has
stored. -/
theorem stored_handleToxic {stored : VerdictDoc} (hsystem : stored.isHuman = false)
    (hstored : VerdictRepository.findByHost
      ((a.handleToxic event source verdict now).run s).2.verdicts event.host = some stored) :
    stored.scope = some (a.enforcedScope verdict).1 ∧ stored.sampleUrl = some event.url := by
  have hafter : ((a.handleToxic event source verdict now).run s).2.verdicts =
      (VerdictRepository.upsertVerdict s.verdicts event.host (a.toxicFields event source verdict)
        now).1 := by
    rw [handleToxic_eq]
    simp only [run_bind, recordVerdict, run_call, pure_eq, run_ret, verdicts_enforce]
  rw [hafter] at hstored
  by_cases hhuman : (s.verdicts.entries event.host).any (·.isHuman) = true
  · have hkept : (VerdictRepository.upsertVerdict s.verdicts event.host
        (a.toxicFields event source verdict) now).1 = s.verdicts := by
      rw [VerdictRepository.upsertVerdict, if_pos ⟨rfl, hhuman⟩]
    have hentry : s.verdicts.entries event.host = some stored := by
      rw [hkept] at hstored
      exact hstored
    rw [hentry, Option.any_some, hsystem] at hhuman
    cases hhuman
  · rw [findByHost_upsertVerdict_self fun h => hhuman h.2, Option.some.injEq] at hstored
    subst hstored
    exact ⟨rfl, rfl⟩

end SafetyAnalyzer

/-- A URL on a host is not empty. -/
theorem ne_empty_of_destinationHost {lib : UrlLib} {url host : String}
    (h : destinationHost lib url = some host) : url ≠ "" := by
  rintro rfl
  cases h

/-- A verdict on the judged link of a URL covers what comes to the same as the URL. -/
theorem verdictCovers_links {re : RegexLib} {stored : VerdictDoc} {judged url : String}
    (hscope : stored.scope = some .links) (hsample : stored.sampleUrl = some judged)
    (hjudged : judged ≠ "") :
    verdictCovers re stored url = decide (withoutQuery url = withoutQuery judged) := by
  simp [verdictCovers, hscope, hsample, hjudged]

/-- Screening has judged a URL with a verdict of links scope. The matcher that it blocks links with and
the stored verdict say the same of another URL if and only if that is the judged URL itself, or differs
from it in more than query, fragment and last slashes. -/
theorem links_blocked_iff_refused (a : SafetyAnalyzer) (event : SafetyAnalyzeEvent) (source : String)
    (verdict : ProviderVerdict) (now : Int) (s : SafetyState) (matcher : UrlMatcher)
    (stored : VerdictDoc) (url : String) (hhost : destinationHost a.lib event.url = some event.host)
    (hmatcher : a.toxicEnforcement event verdict = .blockMatching matcher)
    (hstored : VerdictRepository.findByHost
      ((a.handleToxic event source verdict now).run s).2.verdicts event.host = some stored)
    (hsystem : stored.isHuman = false) (hscope : stored.scope = some .links) :
    (matcher.test a.re url = true ↔ verdictCovers a.re stored url = true) ↔
      url = event.url ∨ withoutQuery url ≠ withoutQuery event.url := by
  obtain ⟨hscope', hsample⟩ := SafetyAnalyzer.stored_handleToxic hsystem hstored
  have hlinks : (a.enforcedScope verdict).1 = .links := by
    rw [hscope, Option.some.injEq] at hscope'
    exact hscope'.symm
  have hexactly : matcher = .exactly event.url := by
    simp only [SafetyAnalyzer.toxicEnforcement, hlinks, Enforcement.blockMatching.injEq] at hmatcher
    exact hmatcher.symm
  have hcovers := @verdictCovers_links a.re _ _ url hscope hsample (ne_empty_of_destinationHost hhost)
  have htest : matcher.test a.re url = decide (url = event.url) := by
    rw [hexactly]
    rfl
  rw [hcovers, htest, decide_eq_true_eq, decide_eq_true_eq]
  constructor
  · intro hagree
    by_cases hurl : url = event.url
    · exact .inl hurl
    · exact .inr fun hsame => hurl (hagree.2 hsame)
  · rintro (hurl | hdiffers)
    · exact ⟨fun h => by rw [h], fun _ => hurl⟩
    · exact ⟨fun h => by rw [h], fun hsame => absurd hsame hdiffers⟩

/-- Web Risk has listed the page. -/
def listedPage : ProviderVerdict where
  tier := .toxic
  reason := "flagged by Google Web Risk"
  scope := .links

/-- What the analysis leaves of the verdict. -/
def listedVerdict : VerdictDoc :=
  (webRiskAnalyzer.toxicFields (reportOf "https://a.example/evil") "web_risk" listedPage).doc "a.example"
    none 0

theorem findByHost_listedPage : VerdictRepository.findByHost
    ((webRiskAnalyzer.handleToxic (reportOf "https://a.example/evil") "web_risk" listedPage 0).run
      blankSafety).2.verdicts "a.example" = some listedVerdict := rfl

theorem links_blocked_iff_refused_other_page :
    ((UrlMatcher.exactly "https://a.example/evil").test literalRegex "https://a.example/about" = true ↔
      verdictCovers literalRegex listedVerdict "https://a.example/about" = true) ↔
      ("https://a.example/about" = "https://a.example/evil" ∨
        withoutQuery "https://a.example/about" ≠ withoutQuery "https://a.example/evil") :=
  links_blocked_iff_refused webRiskAnalyzer (reportOf "https://a.example/evil") "web_risk" listedPage 0
    blankSafety (.exactly "https://a.example/evil") listedVerdict "https://a.example/about"
    (by decide +kernel) rfl findByHost_listedPage rfl rfl

/-- The page with a query is refused at creation, and its links are not blocked. -/
theorem listed_page_with_query_not_blocked :
    webRiskAnalyzer.toxicEnforcement (reportOf "https://a.example/evil") listedPage =
        .blockMatching (.exactly "https://a.example/evil") ∧
      VerdictRepository.findByHost ((webRiskAnalyzer.handleToxic (reportOf "https://a.example/evil")
        "web_risk" listedPage 0).run blankSafety).2.verdicts "a.example" = some listedVerdict ∧
      listedVerdict.scope = some .links ∧
      destinationHost webRiskAnalyzer.lib "https://a.example/evil?utm=1" = some "a.example" ∧
      (UrlMatcher.exactly "https://a.example/evil").test literalRegex "https://a.example/evil?utm=1" =
        false ∧
      verdictCovers literalRegex listedVerdict "https://a.example/evil?utm=1" = true :=
  ⟨rfl, findByHost_listedPage, rfl, by decide +kernel, by decide +kernel, by decide +kernel⟩

end Spoo
