import Spoo.Proofs.ModelPatterns
import Spoo.Proofs.Shadowing
import Spoo.Services.ReportIntakeService

/-!
# Which reported links a decision blocks

A decision to block aliases reaches the v2 links the report spells as they are stored, or, where the claim has a
pattern, the links under it.
-/

namespace Spoo

open Mongo Mongo.Collection

/-! ## One link -/

namespace UrlRepository

theorem status_afterAliases_iff {pairs : List (String × String)} {reason : String} {now : Int} {row : UrlRow} :
    (afterAliases pairs reason now row).status = .blocked ↔
      row.status = .blocked ∨ row.status = .active ∧ (row.linkAlias, row.domain) ∈ pairs := by
  by_cases hsel : aliasesSelect pairs row = true
  · have hboth : (row.linkAlias, row.domain) ∈ pairs ∧ row.status = .active := by
      simpa [aliasesSelect] using hsel
    exact iff_of_true (held_afterAliases_of_active hboth.1 hboth.2).1 (.inr hboth.symm)
  · rw [Bool.not_eq_true] at hsel
    rw [afterAliases, applyWhere_of_not_matches _ hsel]
    refine ⟨.inl, fun h => h.resolve_right ?_⟩
    rintro ⟨hact, hmem⟩
    simp [aliasesSelect, hact, hmem] at hsel

end UrlRepository

namespace LegacyUrlRepository

theorem isBlocked_blockByIds_iff {store : LegacyUrlStore} {codes : List String} {code reason : String}
    {now : Int} {row : LegacyUrlRow} (hrow : row ∈ store.lookup code) :
    IsBlocked (blockByIds store codes reason now).1 code ↔ IsBlocked store code ∨ code ∈ codes := by
  refine ⟨fun h => ?_, fun h => h.elim isBlocked_blockByIds (isBlocked_blockByIds_of_mem hrow)⟩
  unfold blockByIds at h
  split at h
  · exact .inl h
  · obtain ⟨after, hafter, hblocked⟩ := h
    rw [lookup_updateMany, hrow, Option.map_some, Option.mem_some] at hafter
    subst hafter
    have hid : row.code = code := (lookup_eq_some_iff.1 hrow).2
    unfold applyWhere at hblocked
    split at hblocked
    · rename_i hsel
      rw [matches_blockIdsFilter, hid] at hsel
      exact .inr (of_decide_eq_true (Bool.and_eq_true_iff.1 hsel).1)
    · exact .inl ⟨row, hrow, hblocked⟩

end LegacyUrlRepository

/-! ## The links an event names -/

namespace DeepInvestigator

private theorem drop_length_takeWhile (p : Char → Bool) (text : List Char) :
    text.drop (text.takeWhile p).length = text.dropWhile p := by
  induction text with
  | nil => rfl
  | cons c text ih => cases hc : p c <;> simp [hc, ih]

/-- An event names a link by its domain and its alias. -/
theorem mem_aliasesToBlock {event : SafetyAnalyzeEvent} {linkAlias domain : String} :
    (linkAlias, domain) ∈ aliasesToBlock event ↔
      '/' ∉ domain.toList ∧ domain ++ "/" ++ linkAlias ∈ event.context.reportedCodes := by
  simp only [aliasesToBlock, List.mem_filterMap, drop_length_takeWhile]
  constructor
  · rintro ⟨entry, hentry, hpair⟩
    split at hpair
    · rename_i c code hrest
      obtain ⟨rfl, rfl⟩ := Prod.mk.inj (Option.some.inj hpair)
      have hc : c = '/' := by
        have hhead := List.head?_dropWhile_not (fun c => decide (c ≠ '/')) entry.toList
        rw [hrest] at hhead
        simpa using hhead
      have hentry' : String.ofList (entry.toList.takeWhile (· ≠ '/')) ++ "/" ++ String.ofList code = entry := by
        refine String.toList_injective ?_
        have hjoin := List.takeWhile_append_dropWhile (p := fun c => decide (c ≠ '/')) (l := entry.toList)
        rw [hrest, hc] at hjoin
        simpa using hjoin
      refine ⟨fun hslash => ?_, hentry'.symm ▸ hentry⟩
      rw [String.toList_ofList] at hslash
      simpa using List.mem_takeWhile_imp hslash
    · cases hpair
  · rintro ⟨hslash, hmem⟩
    refine ⟨_, hmem, ?_⟩
    have hbefore : ∀ c ∈ domain.toList, decide (c ≠ '/') = true := by
      intro c hc
      exact decide_eq_true fun heq => hslash (heq ▸ hc)
    have hcut : (domain ++ "/" ++ linkAlias).toList = domain.toList ++ ('/' :: linkAlias.toList) := by simp
    rw [hcut, List.takeWhile_append_of_pos hbefore, List.dropWhile_append_of_pos hbefore]
    simp

/-- A text with a slash in it names a link. -/
theorem aliasesToBlock_ne_nil {event : SafetyAnalyzeEvent} {text : String}
    (htext : text ∈ event.context.reportedCodes) (hslash : '/' ∈ text.toList) : aliasesToBlock event ≠ [] := by
  obtain ⟨domain, code, hsplit, hdomain⟩ := List.eq_append_cons_of_mem hslash
  have hjoin : String.ofList domain ++ "/" ++ String.ofList code = text := by
    refine String.toList_injective ?_
    rw [hsplit]
    simp
  refine List.ne_nil_of_mem (a := (String.ofList code, String.ofList domain)) ?_
  rw [mem_aliasesToBlock, String.toList_ofList, hjoin]
  exact ⟨hdomain, htext⟩

/-- The claim has a pattern to block by. -/
def BlocksPattern (d : DeepInvestigator) (verdict : InvestigationVerdict) : Prop :=
  verdict.scope = .pathPattern ∧ isValidPattern d.re (verdict.pathPattern.getD "") = true

instance (d : DeepInvestigator) (verdict : InvestigationVerdict) : Decidable (d.BlocksPattern verdict) :=
  inferInstanceAs (Decidable (_ ∧ _))

/-- The event names the link as it is stored, and it can be blocked. -/
def NamesActive (event : SafetyAnalyzeEvent) : SelectedLink → Prop
  | .v2 doc => doc.status = .active ∧ '/' ∉ doc.domain.toList ∧
      doc.domain ++ "/" ++ doc.linkAlias ∈ event.context.reportedCodes
  | _ => False

/-- The link is listed under the host of the event, and the pattern of the claim matches its URL. -/
def MatchesPattern (d : DeepInvestigator) (s : Stores) (event : SafetyAnalyzeEvent)
    (verdict : InvestigationVerdict) : SelectedLink → Prop
  | .v2 doc => doc.status = .active ∧ (doc.linkAlias, doc.domain) ∈
      SafetyEnforcer.matchingPairs s.urls event.host (patternMatcher d.re (verdict.pathPattern.getD ""))
  | .v1 row => row.code ∈
      SafetyEnforcer.matchingCodes s.legacy event.host (patternMatcher d.re (verdict.pathPattern.getD ""))
  | .emoji row => row.code ∈
      SafetyEnforcer.matchingCodes s.emoji event.host (patternMatcher d.re (verdict.pathPattern.getD ""))

/-- A decision to block aliases reaches the link. -/
def Reaches (d : DeepInvestigator) (s : Stores) (event : SafetyAnalyzeEvent) (verdict : InvestigationVerdict)
    (link : SelectedLink) : Prop :=
  if d.BlocksPattern verdict then d.MatchesPattern s event verdict link else NamesActive event link

end DeepInvestigator

/-- The link is a document of its collection. -/
def SelectedLink.IsIn (s : Stores) : SelectedLink → Prop
  | .v2 doc => ∃ row ∈ s.urls.lookup doc.id, doc = UrlV2Doc.fromMongo row
  | .v1 row => row ∈ s.legacy.lookup row.code
  | .emoji row => row ∈ s.emoji.lookup row.code

section

variable {s : Stores} {cfg : DispatchConfig} {link : SelectedLink} {code : String}

theorem isIn_of_findByAlias {domain : String}
    (h : (UrlRepository.findByAlias s.urls code domain).map SelectedLink.v2 = some link) : link.IsIn s := by
  obtain ⟨doc, hdoc, rfl⟩ := Option.map_eq_some_iff.1 h
  obtain ⟨row, hrow, rfl⟩ := Option.map_eq_some_iff.1 hdoc
  exact ⟨row, lookup_eq_some_iff.2 ⟨List.mem_of_find?_eq_some hrow, rfl⟩, rfl⟩

private theorem lookup_of_findById {store : LegacyUrlStore} {row : LegacyUrlRow}
    (h : LegacyUrlRepository.findById store code = some row) : row ∈ store.lookup row.code :=
  lookup_eq_some_iff.2 ⟨List.mem_of_find?_eq_some h, rfl⟩

theorem isIn_of_selectV1 (h : selectV1 s code = some link) : link.IsIn s := by
  obtain ⟨row, hrow, rfl⟩ := Option.map_eq_some_iff.1 h
  exact lookup_of_findById hrow

theorem isIn_of_selectEmoji (h : selectEmoji s code = some link) : link.IsIn s := by
  obtain ⟨row, hrow, rfl⟩ := Option.map_eq_some_iff.1 h
  exact lookup_of_findById hrow

theorem isIn_of_resolve (h : PublicLinkResolver.resolve cfg s code = some link) : link.IsIn s := by
  obtain ⟨generation, -, hfound⟩ := List.exists_of_findSome?_eq_some h
  cases generation with
  | v2 => exact isIn_of_findByAlias hfound
  | emoji =>
    obtain ⟨candidate, -, hfound⟩ := List.exists_of_findSome?_eq_some hfound
    exact isIn_of_selectEmoji hfound
  | v1 => exact isIn_of_selectV1 hfound

end

/-! ## The enactment -/

namespace DeepInvestigator

variable {d : DeepInvestigator} {event : SafetyAnalyzeEvent} {verdict : InvestigationVerdict}
  {decision : AuthorityDecision} {now : Int} {s : SafetyState} {link : SelectedLink}

theorem stores_enact_of_pattern (haction : decision.action = .blockAliases)
    (hpattern : d.BlocksPattern verdict) :
    ((d.enact event verdict decision now).run s).2.stores =
      (SafetyEnforcer.blockMatching d.enforcer event.host
        (patternMatcher d.re (verdict.pathPattern.getD "")) verdict.reason now s.stores).1 := by
  have henact : d.enactment event verdict decision =
      some (.blockMatching (.pattern (verdict.pathPattern.getD ""))) := by
    rw [enactment, haction]
    exact if_pos hpattern
  rw [enact, henact]
  rfl

theorem stores_enact_of_not_pattern (haction : decision.action = .blockAliases)
    (hpattern : ¬d.BlocksPattern verdict) (hnamed : aliasesToBlock event ≠ []) :
    ((d.enact event verdict decision now).run s).2.stores =
      (SafetyEnforcer.blockAliases d.enforcer (aliasesToBlock event) event.host verdict.reason now
        s.stores).1 := by
  have henact : d.enactment event verdict decision = some (.blockAliases (aliasesToBlock event)) := by
    rw [enactment, haction]
    exact (if_neg hpattern).trans (if_pos hnamed)
  rw [enact, henact]
  rfl

/-- A v2 link after a block of aliases, whatever else was blocked. -/
private theorem isBlocked_v2_iff {s s' : Stores} {pairs : List (String × String)} {reason : String}
    {row : UrlRow} (hurls : s'.urls = (UrlRepository.blockActiveByAliases s.urls pairs reason now).1)
    (hrow : row ∈ s.urls.lookup row.id) :
    SafetyEnforcer.IsBlocked s' (.v2 row.id) ↔ SafetyEnforcer.IsBlocked s (.v2 row.id) ∨
      row.status = .active ∧ (row.linkAlias, row.domain) ∈ pairs := by
  have hbefore : SafetyEnforcer.IsBlocked s (.v2 row.id) ↔ row.status = .blocked := by
    simp [SafetyEnforcer.IsBlocked, Option.mem_def.1 hrow]
  have hafter : SafetyEnforcer.IsBlocked s' (.v2 row.id) ↔
      (UrlRepository.afterAliases pairs reason now row).status = .blocked := by
    simp [SafetyEnforcer.IsBlocked, hurls, UrlRepository.lookup_blockActiveByAliases, Option.mem_def.1 hrow]
  rw [hbefore, hafter, UrlRepository.status_afterAliases_iff]

/-- A link is BLOCKED after a decision to block aliases, if it was before or the decision reaches it. -/
theorem isBlocked_enact_iff (haction : decision.action = .blockAliases) (hnamed : aliasesToBlock event ≠ [])
    (hin : link.IsIn s.stores) :
    SafetyEnforcer.IsBlocked ((d.enact event verdict decision now).run s).2.stores link.ref ↔
      SafetyEnforcer.IsBlocked s.stores link.ref ∨ d.Reaches s.stores event verdict link := by
  unfold Reaches
  by_cases hpattern : d.BlocksPattern verdict
  · rw [stores_enact_of_pattern haction hpattern, if_pos hpattern]
    cases link with
    | v2 doc =>
      obtain ⟨row, hrow, rfl⟩ := hin
      exact isBlocked_v2_iff rfl hrow
    | v1 row => exact LegacyUrlRepository.isBlocked_blockByIds_iff hin
    | emoji row => exact LegacyUrlRepository.isBlocked_blockByIds_iff hin
  · rw [stores_enact_of_not_pattern haction hpattern hnamed, if_neg hpattern]
    cases link with
    | v2 doc =>
      obtain ⟨row, hrow, rfl⟩ := hin
      exact (isBlocked_v2_iff rfl hrow).trans
        (or_congr_right (and_congr_right fun _ => mem_aliasesToBlock))
    | v1 row => exact (or_false _).symm.to_iff
    | emoji row => exact (or_false _).symm.to_iff

end DeepInvestigator

namespace ReportIntake

open SafetyEnforcer (IsBlocked)

variable {cfg : IntakeConfig}

/-- The event names a link of a report. -/
def NamesOne (event : SafetyAnalyzeEvent) : Prop :=
  ∃ text ∈ event.context.reportedCodes, '/' ∈ text.toList

theorem slash_mem_reportedText (target : ReportTarget) : '/' ∈ (reportedText cfg target).toList := by
  simp [reportedText]

theorem namesOne_addDestination {target : ReportTarget} {byHost : PyDict String SafetyAnalyzeEvent}
    (h : ∀ event ∈ byHost.values, NamesOne event) (url : String) :
    ∀ event ∈ (addDestination cfg (reportedText cfg target) byHost url).values, NamesOne event := by
  unfold addDestination
  cases parseDestination cfg.url url with
  | none => exact h
  | some parts =>
    dsimp only
    cases hfound : byHost.get? parts.host with
    | some existing =>
      refine PyDict.forall_values_assign h ?_
      obtain ⟨text, htext, hslash⟩ :=
        h existing (List.mem_map_of_mem (f := Prod.snd) (PyDict.mem_entries_of_get? hfound))
      refine ⟨text, ?_, hslash⟩
      dsimp only
      split
      · exact htext
      · exact List.mem_append_left _ htext
    | none =>
      exact PyDict.forall_values_assign h
        ⟨_, List.mem_singleton_self _, slash_mem_reportedText target⟩

theorem namesOne_addReport (entry : AcceptedItem) {byHost : PyDict String SafetyAnalyzeEvent}
    (h : ∀ event ∈ byHost.values, NamesOne event) :
    ∀ event ∈ (addReport cfg byHost entry).values, NamesOne event := by
  unfold addReport
  induction entry.destinations generalizing byHost with
  | nil => exact h
  | cons url urls ih => exact ih (namesOne_addDestination h url)

/-- Every analysis a submission asks for names a link. -/
theorem namesOne_of_mem_safetyEvents {accepted : List AcceptedItem} {event : SafetyAnalyzeEvent}
    (h : event ∈ safetyEvents cfg accepted) : NamesOne event := by
  have hfold : ∀ (entries : List AcceptedItem) (byHost : PyDict String SafetyAnalyzeEvent),
      (∀ event ∈ byHost.values, NamesOne event) →
        ∀ event ∈ (entries.foldl (addReport cfg) byHost).values, NamesOne event := by
    intro entries
    induction entries with
    | nil => exact fun _ hbefore => hbefore
    | cons entry entries ih => exact fun _ hbefore => ih _ (namesOne_addReport entry hbefore)
  exact hfold accepted PyDict.empty (fun _ hnone => absurd hnone List.not_mem_nil) event h

theorem isIn_of_selectTarget {s : Stores} {target : ReportTarget} {link : SelectedLink}
    (h : selectTarget cfg s target = some link) : link.IsIn s := by
  unfold selectTarget at h
  split at h
  · exact isIn_of_resolve h
  · exact isIn_of_findByAlias h

/-- The links an event names, among those the submission reported. -/
def NamedBy (cfg : IntakeConfig) (s : Stores) (accepted : List AcceptedItem) (event : SafetyAnalyzeEvent)
    (link : SelectedLink) : Prop :=
  ∃ entry ∈ accepted, reportedText cfg entry.target ∈ event.context.reportedCodes ∧
    selectTarget cfg s entry.target = some link

/-- A decision to block aliases leaves every link its event names BLOCKED, if and only if each of them is
BLOCKED already or is reached: it matches the pattern of the claim, or, without one, it is an ACTIVE v2 link
and the event has its stored alias. -/
theorem reported_links_blocked_iff (cfg : IntakeConfig) (d : DeepInvestigator) (accepted : List AcceptedItem)
    (event : SafetyAnalyzeEvent) (verdict : InvestigationVerdict) (decision : AuthorityDecision) (now : Int)
    (s : SafetyState) (hevent : event ∈ safetyEvents cfg accepted)
    (haction : decision.action = .blockAliases) :
    (∀ link, NamedBy cfg s.stores accepted event link →
        IsBlocked ((d.enact event verdict decision now).run s).2.stores link.ref) ↔
      ∀ link, NamedBy cfg s.stores accepted event link →
        IsBlocked s.stores link.ref ∨ d.Reaches s.stores event verdict link := by
  obtain ⟨text, htext, hslash⟩ := namesOne_of_mem_safetyEvents hevent
  have hnamed : DeepInvestigator.aliasesToBlock event ≠ [] :=
    DeepInvestigator.aliasesToBlock_ne_nil htext hslash
  refine forall_congr' fun link => forall_congr' fun hlink => ?_
  obtain ⟨_, -, -, hselect⟩ := hlink
  exact DeepInvestigator.isBlocked_enact_iff haction hnamed (isIn_of_selectTarget hselect)

/-- A report of a v2 link and of a v1 link on one host. -/
def mixedReport : List AcceptedItem := [
  ⟨(none, "aaa"), ⟨"aaa"⟩, ["https://a.example/page"]⟩,
  ⟨(none, "oldone"), ⟨"oldone"⟩, ["https://a.example/old"]⟩]

/-- The one analysis it asks for. -/
def mixedEvent : SafetyAnalyzeEvent where
  url := "https://a.example/page"
  host := "a.example"
  registrableDomain := "a.example"
  trigger := "report"
  context := { reportedCodes := ["spoo.me/aaa", "spoo.me/oldone"] }

/-- The model claims that single pages of the host were tampered with. -/
def tamperedClaim : InvestigationVerdict where
  classification := .compromisedLegit
  confidence := .high
  reason := "kit"
  scope := .links

/-- The links of `threeLinks`, and no verdict. -/
def threeLinksSafety : SafetyState := { blankSafety with stores := SafetyEnforcer.threeLinks }

theorem mem_safetyEvents_mixedReport : mixedEvent ∈ safetyEvents plainIntake mixedReport := by
  decide +kernel

theorem reported_links_blocked_iff_mixedReport :
    (∀ link, NamedBy plainIntake SafetyEnforcer.threeLinks mixedReport mixedEvent link →
        IsBlocked (((deepTier .confident).enact mixedEvent tamperedClaim ⟨.blockAliases, .toxic, true⟩ 0).run
          threeLinksSafety).2.stores link.ref) ↔
      ∀ link, NamedBy plainIntake SafetyEnforcer.threeLinks mixedReport mixedEvent link →
        IsBlocked SafetyEnforcer.threeLinks link.ref ∨
          (deepTier .confident).Reaches SafetyEnforcer.threeLinks mixedEvent tamperedClaim link :=
  reported_links_blocked_iff plainIntake (deepTier .confident) mixedReport mixedEvent tamperedClaim
    ⟨.blockAliases, .toxic, true⟩ 0 threeLinksSafety mem_safetyEvents_mixedReport rfl

/-- The v1 link of the report stays up. -/
theorem v1_link_left_up :
    ¬∀ (cfg : IntakeConfig) (d : DeepInvestigator) (items : List ReportItemRequest) (t : Triage)
      (event : SafetyAnalyzeEvent) (answer : ModelAnswer) (verdict : InvestigationVerdict) (now : Int)
      (s : SafetyState), triage cfg s.stores items = some t → event ∈ safetyEvents cfg t.accepted →
      (d.decision event answer verdict).action = .blockAliases →
      ∀ link, NamedBy cfg s.stores t.accepted event link →
        IsBlocked ((d.enact event verdict (d.decision event answer verdict) now).run s).2.stores link.ref := by
  intro hall
  have htriage : (triage plainIntake SafetyEnforcer.threeLinks [⟨"aaa"⟩, ⟨"oldone"⟩]).map Triage.accepted =
      some mixedReport := by
    decide +kernel
  obtain ⟨t, ht, haccepted⟩ := Option.map_eq_some_iff.1 htriage
  have hselect : (selectTarget plainIntake SafetyEnforcer.threeLinks (none, "oldone")).map SelectedLink.ref =
      some (.v1 "oldone") := by
    decide +kernel
  obtain ⟨link, hlink, href⟩ := Option.map_eq_some_iff.1 hselect
  have hblocked := hall plainIntake (deepTier .confident) [⟨"aaa"⟩, ⟨"oldone"⟩] t mixedEvent
    ⟨.ok tamperedClaim, false⟩ tamperedClaim 0 threeLinksSafety ht
    (haccepted ▸ mem_safetyEvents_mixedReport) rfl link
    ⟨⟨(none, "oldone"), ⟨"oldone"⟩, ["https://a.example/old"]⟩, haccepted ▸ by decide, by decide, hlink⟩
  rw [href] at hblocked
  revert hblocked
  show ¬LegacyUrlRepository.IsBlocked _ _
  decide +kernel

end ReportIntake

end Spoo
