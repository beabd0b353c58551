import Spoo.Edge.Worker
import Spoo.Proofs.EdgeEligibility
import Spoo.Proofs.PublicPreview

/-!
# The Worker and the route

A promoted entry holds what the route would answer, so that the Worker answers alike. The two part where the visitor's
country is blank or padded, and where a link has the epoch as its expiry. An `og_only` entry says nothing about when
its link starts and ends. It lives as long as it was written for, and the Worker shows its card all that time.
-/

namespace Spoo

open UrlService EdgeWorker

/-! ## Preview entries and the window of their link -/

namespace UrlV2Doc

/-- The redirect has the link live from `start` to `stop`: in whole seconds, it has started and does
not lapse before. -/
structure OpenFor (doc : UrlV2Doc) (start stop : Int) : Prop where
  started : ∀ startsAt ∈ doc.startsAt, toUnixTimestampCeil startsAt * 1000000 ≤ start
  lasts : ∀ expireAfter ∈ doc.expireAfter, stop ≤ toUnixTimestamp expireAfter * 1000000

variable {doc : UrlV2Doc} {start stop : Int}

theorem openFor_iff : (∀ now, start ≤ now → now < stop →
    ¬doc.LapsedToTheSecond now ∧ ¬doc.PendingToTheSecond now) ↔
      (start < stop → doc.OpenFor start stop) := by
  constructor
  · intro h hlive
    refine ⟨fun startsAt hstart => ?_, fun expireAfter hexpire => ?_⟩
    · by_contra hlt
      exact (h start le_rfl hlive).2 ⟨startsAt, hstart, not_le.1 hlt⟩
    · -- Otherwise the link lapses at the later of its expiry and the first instant.
      by_contra hlt
      have hstop : max start (toUnixTimestamp expireAfter * 1000000) < stop := by omega
      exact (h _ (le_max_left ..) hstop).1 ⟨expireAfter, hexpire, le_max_right ..⟩
  · intro hopen now hstart hstop
    have hwindow := hopen (by omega)
    refine ⟨?_, ?_⟩
    · rintro ⟨expireAfter, hexpire, hle⟩
      have := hwindow.lasts expireAfter hexpire
      omega
    · rintro ⟨startsAt, hstartsAt, hlt⟩
      have := hwindow.started startsAt hstartsAt
      omega

end UrlV2Doc

/-- The link a code leads to, cached as it is stored if at all. -/
structure IsCurrent (cfg : DispatchConfig) (doc : UrlV2Doc) (s : Stores) : Prop where
  cached : ∀ data, s.cache.get (v2LookupCode cfg.lib doc.linkAlias) doc.domain = some data →
    data = .fromV2Doc doc
  selected : select cfg doc.linkAlias doc.domain s = some (.v2 doc)

/-- A write-through of the link: what was synced has its key, status and meta-tags, and an entry is
put. Its instants may differ, as those of an update do before they are stored. -/
structure PutsCard (cfg : DispatchConfig) (doc synced : UrlV2Doc) : Prop where
  linkAlias : synced.linkAlias = doc.linkAlias
  domain : synced.domain = doc.domain
  status : synced.status = doc.status
  metaTags : synced.metaTags = doc.metaTags
  system : doc.domain = cfg.systemDefaultDomain
  active : doc.status = .active
  hasTags : doc.metaTags.isSome = true

/-- A crawler's request for the link, which the Worker looks up. -/
structure AsksForCard (runtime : WorkerRuntime) (doc : UrlV2Doc) (request : HttpRequest) :
    Prop where
  crawler : EdgeWorker.wantsPreview runtime request = true
  lookup : lookupKey runtime request = some (cacheKey doc.domain doc.linkAlias)

/-- The Worker shows the card while its entry lives. -/
theorem fetch_ogSync {cfg : DispatchConfig} {doc synced : UrlV2Doc} (hput : PutsCard cfg doc synced)
    {runtime : WorkerRuntime} {request : HttpRequest} (hasks : AsksForCard runtime doc request)
    (render : UrlCacheData → String) (kv : EdgeKv) (ttl written now : Int) :
    (∃ html, fetch runtime (ogSync render kv cfg.systemDefaultDomain ttl (.fromV2Doc synced) written)
        request now = .preview html) ↔ now < written + ttl * 1000000 := by
  have hsync : ogSync render kv cfg.systemDefaultDomain ttl (.fromV2Doc synced) written =
      kv.put (cacheKey doc.domain doc.linkAlias) (.ogOnly (render (.fromV2Doc synced))) ttl
        written := by
    have htitle : (UrlCacheData.fromV2Doc synced).metaTitle.isSome = true := by
      simpa [UrlCacheData.fromV2Doc, hput.metaTags] using hput.hasTags
    have hactive : (UrlCacheData.fromV2Doc synced).urlStatus = .active :=
      hput.status.trans hput.active
    have hdomain : (UrlCacheData.fromV2Doc synced).domain = doc.domain := hput.domain
    have halias : (UrlCacheData.fromV2Doc synced).linkAlias = doc.linkAlias := hput.linkAlias
    simp [ogSync, buildOgEntry, htitle, hactive, hdomain, halias, hput.system]
  rw [hsync, fetch, hasks.lookup]
  simp only [EdgeKv.get_put_self]
  by_cases hlive : now < written + ttl * 1000000
  · simp [hlive, answerEntry, ogHtml, hasks.crawler, Option.filter_some]
  · simp [hlive]

/-- The edge shows the card of a link only while the origin would serve the link exactly when the
link is live for as long as its entry. -/
theorem cards_in_window_iff (cfg : DispatchConfig) (readers : LegacyReaders)
    (render : UrlCacheData → String) (runtime : WorkerRuntime) (kv : EdgeKv) (ttl written : Int)
    (doc synced : UrlV2Doc) (stores : Int → Stores) (request : HttpRequest)
    (hput : PutsCard cfg doc synced)
    (hcurrent : ∀ now, written ≤ now → IsCurrent cfg doc (stores now))
    (hasks : AsksForCard runtime doc request) :
    (∀ now, written ≤ now →
      (∃ html, fetch runtime
        (ogSync render kv cfg.systemDefaultDomain ttl (.fromV2Doc synced) written) request now =
          .preview html) →
      Serves (resolve cfg readers doc.linkAlias doc.domain now (stores now))) ↔
      (0 < ttl → doc.OpenFor written (written + ttl * 1000000)) := by
  have hserves : ∀ now, written ≤ now →
      (Serves (resolve cfg readers doc.linkAlias doc.domain now (stores now)) ↔
        ¬doc.LapsedToTheSecond now ∧ ¬doc.PendingToTheSecond now) := by
    intro now hnow
    have hstatus : doc.status ≠ .blocked ∧ doc.status ≠ .expired ∧ doc.status ≠ .inactive := by
      simp [hput.active]
    rw [serves_resolve_v2_iff (hcurrent now hnow).cached fun _ => (hcurrent now hnow).selected,
      and_iff_right hstatus]
  have hlive : 0 < ttl ↔ written < written + ttl * 1000000 := by omega
  rw [hlive, ← UrlV2Doc.openFor_iff]
  refine forall₂_congr fun now hnow => ?_
  rw [fetch_ogSync hput hasks, hserves now hnow]

/-! ## A link with a card -/

/-- A link with meta-tags. -/
def cardLink (startsAt expireAfter : Option BsonDate) : UrlRow where
  id := 1
  linkAlias := "promo"
  ownerId := 7
  domain := "spoo.me"
  longUrl := "https://a.example/p"
  startsAt
  expireAfter
  metaTags := some { title := "Promo" }

/-- The stores with the one link. -/
def cardStores (row : UrlRow) : Stores where
  urls := { docs := [row], nodup_id := by simp, nodup_key := by simp }
  legacy := .empty
  emoji := .empty

/-- A runtime for plain paths. -/
def plainRuntime : WorkerRuntime where
  decodeURIComponent s := some s
  toUpperCase := String.toUpper
  verifiedBotCategory _ := none

/-- A crawler asks for the link. -/
def cardRequest : HttpRequest where
  hostname := "spoo.me"
  path := "/promo"
  userAgent := "Discordbot/2.0"

/-- The namespace once the link has been synced, at the epoch and for a day. -/
def cardKv (row : UrlRow) : EdgeKv :=
  ogSync (fun _ => "<html>") .empty "spoo.me" 86400 (.fromV2Doc (.fromMongo row)) 0

/-- The link from the epoch on, for more than a day. -/
def promoLink : UrlRow := cardLink (some ⟨0⟩) (some ⟨100000000⟩)

/-- The link as it is read. -/
def promoDoc : UrlV2Doc := .fromMongo promoLink

theorem isCurrent_promoDoc : IsCurrent plainDispatch promoDoc (cardStores promoLink) where
  cached _ hdata := by cases hdata
  selected := rfl

theorem asksForCard_promoDoc : AsksForCard plainRuntime promoDoc cardRequest where
  crawler := by decide +kernel
  lookup := by decide +kernel

theorem cards_in_window_iff_promo :
    (∀ now, (0 : Int) ≤ now →
      (∃ html, fetch plainRuntime (cardKv promoLink) cardRequest now = .preview html) →
      Serves (resolve plainDispatch plainReaders "promo" "spoo.me" now
        (cardStores promoLink))) ↔
      ((0 : Int) < 86400 → promoDoc.OpenFor 0 (0 + 86400 * 1000000)) :=
  cards_in_window_iff plainDispatch plainReaders (fun _ => "<html>") plainRuntime .empty 86400 0
    promoDoc promoDoc (fun _ => cardStores promoLink) cardRequest
    ⟨rfl, rfl, rfl, rfl, rfl, rfl, rfl⟩ (fun _ _ => isCurrent_promoDoc) asksForCard_promoDoc

/-- The card of a link that starts in five seconds is shown at once, and that of one that has lapsed
after ten still is after twenty. -/
theorem cards_outside_window :
    ((∃ html, fetch plainRuntime (cardKv (cardLink (some ⟨5000⟩) none)) cardRequest 0 =
        .preview html) ∧
      ¬Serves (resolve plainDispatch plainReaders "promo" "spoo.me" 0
        (cardStores (cardLink (some ⟨5000⟩) none)))) ∧
    (∃ html, fetch plainRuntime (cardKv (cardLink none (some ⟨10000⟩))) cardRequest 20000000 =
        .preview html) ∧
      ¬Serves (resolve plainDispatch plainReaders "promo" "spoo.me" 20000000
        (cardStores (cardLink none (some ⟨10000⟩)))) := by
  refine ⟨⟨⟨"<html>", by decide +kernel⟩, ?_⟩, ⟨"<html>", by decide +kernel⟩, ?_⟩
  · rintro ⟨_, hserved⟩
    cases hserved
  · rintro ⟨_, hserved⟩
    cases hserved

/-! ## Answers alike -/

/-- The answer is that of the origin, or the request is passed on. A location is compared before
the route quotes it. -/
def EdgeAnswer.Agrees (origin : HttpResponse) : EdgeAnswer → Prop
  | .passthrough => True
  | .preview html => origin.status = 200 ∧ origin.body = .html html
  | .redirect location status _ => origin.status = status ∧ origin.location = some location

/-- Where a link sends visitors of a country. -/
def UrlCacheData.destinationIn (data : UrlCacheData) (country : Option String) : String :=
  (country.bind fun country => data.geoRules.bind (·.get? country)).getD data.longUrl

/-- The request gets the card of the link. -/
def HttpRequest.GetsCard (request : HttpRequest) (data : UrlCacheData) : Prop :=
  data.metaTitle.isSome = true ∧ wantsPreview request.method request.userAgent false = true

instance (request : HttpRequest) (data : UrlCacheData) : Decidable (request.GetsCard data) :=
  inferInstanceAs (Decidable (_ ∧ _))

namespace RedirectEnv

variable (env : RedirectEnv)

/-- `render_meta_preview`. -/
def renderMetaPreview (data : UrlCacheData) : String :=
  env.renderPreview (buildPreviewContext env.hostnameOf data true)

/-- A promotion at the time `promoted` puts an entry for the link: it is cached as `data`, which
only v2 links and v1 links without `max-clicks` are, and no rule holds it back. -/
structure Promotable (link : SelectedLink) (data : UrlCacheData) (promoted : Int) : Prop where
  projected : projection env.readers env.cfg.systemDefaultDomain link = some data
  cacheable : data.schemaVersion = "v2" ∨ data.schemaVersion = "v1" ∧ data.maxClicks = none
  eligible : promotionSkipReason data env.cfg.systemDefaultDomain env.cfg.systemDefaultDomain
    promoted = none

/-- The code that the router hands over leads to the link, in the cache and in the database. -/
structure LeadsTo (routed : String) (link : SelectedLink) (data : UrlCacheData) (s : Stores) :
    Prop where
  cached : ∀ found, s.cache.get (v2LookupCode env.cfg.lib (env.cfg.lib.unquote routed))
    env.cfg.systemDefaultDomain = some found → found = data
  selected : select env.cfg (env.cfg.lib.unquote routed) env.cfg.systemDefaultDomain s = some link

/-- The country as it was sent, which is how the Worker reads it. -/
def workerCountry (request : HttpRequest) : String := env.upper (request.country.getD "")

/-- The request gets the card, or the rules of the link do not tell the country as it was sent from
the one the route reads. A link that has run out sends visitors to the same place by its fallback,
and the request gets no card. -/
def SameDecision (request : HttpRequest) (data : UrlCacheData) (now : Int) : Prop :=
  if data.isTimeExpired now then
    ¬request.GetsCard data ∧ orNone data.expiredRedirectUrl =
      some (data.destinationIn (some (env.workerCountry request)))
  else
    request.GetsCard data ∨ data.destinationIn (some (env.workerCountry request)) =
      data.destinationIn (orNone (env.visitorCountry request))

end RedirectEnv

/-! ## The Worker -/

section

variable {env : RedirectEnv} {runtime : WorkerRuntime} {request : HttpRequest}
  {data : UrlCacheData}

theorem wantsPreview_worker :
    EdgeWorker.wantsPreview runtime request =
      wantsPreview request.method request.userAgent false := by
  have hcategory : (orNone (runtime.verifiedBotCategory request)).any
      (previewBots.cfCategories.contains ·) = false := by
    cases orNone (runtime.verifiedBotCategory request) <;> rfl
  rw [EdgeWorker.wantsPreview, hcategory, wantsPreview]
  by_cases hmethod : request.method = "HEAD" <;> by_cases hagent : request.userAgent = "" <;>
    simp [hmethod, hagent]

/-- The Worker answers no debugging request. -/
theorem hasParam_bot_of_lookupKey {key : String}
    (h : EdgeWorker.lookupKey runtime request = some key) : request.hasParam "bot" = false := by
  unfold EdgeWorker.lookupKey at h
  split at h
  · cases h
  · split at h
    · cases h
    · rename_i hparams
      exact Bool.eq_false_iff.2 (not_or.1 hparams).2

/-- What the Worker makes of a promoted entry. -/
theorem answerEntry_promotedEntry (render : UrlCacheData → String) :
    EdgeWorker.answerEntry runtime (promotedEntry render data) request =
      if request.GetsCard data then
        .preview (render data)
      else
        .redirect (data.destinationIn (some (runtime.toUpperCase (request.country.getD "")))) 302
          (data.geoRules.any (·.entries ≠ [])) := by
  have hcard (html : Option String) :
      html.filter (fun _ => EdgeWorker.wantsPreview runtime request) =
        if wantsPreview request.method request.userAgent false then html else none := by
    rw [wantsPreview_worker]
    cases html with
    | none => simp
    | some html => simp [Option.filter_some]
  unfold promotedEntry EdgeWorker.answerEntry HttpRequest.GetsCard
  cases hrules : data.geoRules with
  | none =>
    simp only [EdgeWorker.ogHtml, hcard, UrlCacheData.destinationIn, hrules]
    by_cases htitle : data.metaTitle.isSome = true <;>
      by_cases hwants : wantsPreview request.method request.userAgent false = true <;>
        simp [htitle, hwants, EdgeWorker.redirectStatus]
  | some rules =>
    by_cases hempty : rules.entries = []
    · have hnone (country : String) : rules.get? country = none := by simp [PyDict.get?, hempty]
      simp only [hempty, ne_eq, not_true, if_false, EdgeWorker.ogHtml, hcard,
        UrlCacheData.destinationIn, hrules]
      by_cases htitle : data.metaTitle.isSome = true <;>
        by_cases hwants : wantsPreview request.method request.userAgent false = true <;>
          simp [htitle, hwants, hnone, hempty, EdgeWorker.redirectStatus]
    · simp only [hempty, ne_eq, not_false_eq_true, if_true, EdgeWorker.ogHtml, hcard,
        UrlCacheData.destinationIn, hrules]
      by_cases htitle : data.metaTitle.isSome = true <;>
        by_cases hwants : wantsPreview request.method request.userAgent false = true <;>
          simp [htitle, hwants, hempty, EdgeWorker.redirectStatus]

/-! ## The route -/

variable {now : Int} {s : Stores} {shortCode : String}

theorem checkTimes_of_expired (h : data.isTimeExpired now = true) :
    (checkTimes data shortCode now s).1 = .error (.expired (timeError data)) := by
  obtain ⟨after, hraise⟩ := @raiseIfTimeExpired_of_expired data shortCode now s h
  rw [checkTimes, hraise]

theorem checkTimes_of_live (hexpired : data.isTimeExpired now = false)
    (hstarted : data.isNotYetLive now = false) :
    (checkTimes data shortCode now s).1 = .ok data := by
  simp [checkTimes, raiseIfTimeExpired_of_live hexpired, hstarted]

variable {link : SelectedLink} {routed : String} {tenant : Option TenantInfo} {roll : Nat}
  {promoted : Int}

/-- The origin checks the times of a promoted link alone. -/
theorem resolve_of_leadsTo (now : Int) (hpromotable : env.Promotable link data promoted)
    (hleads : env.LeadsTo routed link data s) :
    ∃ t, (resolve env.cfg env.readers (env.cfg.lib.unquote routed) env.cfg.systemDefaultDomain now
      s).1 = (checkTimes data (v2LookupCode env.cfg.lib (env.cfg.lib.unquote routed)) now t).1 := by
  obtain ⟨-, hactive, -⟩ := promotionSkipReason_eq_none_iff.1 hpromotable.eligible
  have hstatus : statusRefuses data = false := by simp [statusRefuses, hactive]
  have hcap : v1CapRefuses data = false := by
    rcases hpromotable.cacheable with hv2 | ⟨-, hcap⟩
    · simp [v1CapRefuses, hv2]
    · simp [v1CapRefuses, hcap]
  cases hcache : s.cache.get (v2LookupCode env.cfg.lib (env.cfg.lib.unquote routed))
      env.cfg.systemDefaultDomain with
  | some found =>
    rw [hleads.cached found hcache] at hcache
    exact ⟨s, by simp [resolve, hcache, resolveCached, hstatus]⟩
  | none =>
    refine ⟨populate (v2LookupCode env.cfg.lib (env.cfg.lib.unquote routed)) data s, ?_⟩
    simp [resolve, hcache, hleads.selected, hpromotable.projected, resolveFound, hstatus, hcap]

/-- Without variants, the country alone decides where a visitor goes. -/
theorem RedirectEnv.destination_of_noVariants
    (hvariants : data.abVariants.any (· ≠ []) = false) :
    env.destination request roll data =
      data.destinationIn (orNone (env.visitorCountry request)) := by
  have hsplit : variantDestination roll data = none := by
    cases hab : data.abVariants with
    | none => simp [variantDestination, hab]
    | some variants =>
      rw [hab] at hvariants
      obtain rfl : variants = [] := by simpa using hvariants
      simp [variantDestination, hab, pickVariant, pickVariantFrom]
  rw [RedirectEnv.destination, hsplit, Option.or_none, UrlCacheData.destinationIn,
    RedirectEnv.geoDestination]
  cases data.geoRules <;> cases orNone (env.visitorCountry request) <;> rfl

/-- What the route answers for a promoted link that it serves. -/
theorem serve_of_promotable (hpromotable : env.Promotable link data promoted)
    (hbot : request.hasParam "bot" = false) :
    env.serve tenant shortCode request roll data =
      if request.GetsCard data then
        { status := 200, body := .html (env.renderMetaPreview data) }
      else
        { status := 302
          location := some (data.destinationIn (orNone (env.visitorCountry request)))
          noStore := data.geoRules.any (·.entries ≠ []) } := by
  obtain ⟨-, -, hpassword, -, hbots, -, -, hvariants⟩ :=
    promotionSkipReason_eq_none_iff.1 hpromotable.eligible
  have hv2 : data.metaTitle.isSome = true → data.schemaVersion = "v2" := by
    intro htitle
    have hprojected := hpromotable.projected
    cases link with
    | v2 doc =>
      cases hprojected
      rfl
    | v1 row =>
      obtain ⟨doc, -, rfl⟩ := Option.map_eq_some_iff.1 hprojected
      cases htitle
    | emoji row =>
      obtain ⟨doc, -, rfl⟩ := Option.map_eq_some_iff.1 hprojected
      cases htitle
  have hopen : data.verifyPassword env.verifyPasswordHash (request.param "password") = true := by
    have hnone : orNone data.passwordHash = none := by
      cases hhash : data.passwordHash with
      | none => rfl
      | some hash =>
        rw [hhash] at hpassword
        simpa [orNone, Option.filter_some] using hpassword
    simp [UrlCacheData.verifyPassword, hnone]
  have hdestination : env.destination request roll data =
      data.destinationIn (orNone (env.visitorCountry request)) :=
    env.destination_of_noVariants hvariants
  have hblock : shouldBlockBot env.agents request.method request.userAgent data = false := by
    simp [shouldBlockBot, hbots]
  have hforbidden : clickForbidden env.agents request.userAgent data = false := by
    simp [clickForbidden, hbots]
  rw [RedirectEnv.serve, hbot, hopen, hblock, hforbidden, hdestination, hvariants]
  unfold HttpRequest.GetsCard
  by_cases htitle : data.metaTitle.isSome = true
  · by_cases hwants : wantsPreview request.method request.userAgent false = true
    · simp [htitle, hwants, hv2 htitle, RedirectEnv.renderMetaPreview]
    · simp [hwants]
  · simp [htitle]

theorem status_gone (method message : String) :
    (env.errorPage tenant method "410" message 410).status = 410 := by
  cases htenant : tenant.filter fun tenant => !tenant.isSystemDefault with
  | some custom =>
    cases hredirect : orNone custom.notFoundRedirect <;>
      simp [RedirectEnv.errorPage, htenant, hredirect, RedirectEnv.errorPage.tenantPage]
  | none =>
    simp only [RedirectEnv.errorPage, htenant]
    split <;> rfl

/-- What the route answers a visitor of a link that has run out. -/
theorem refuse_timeError (env : RedirectEnv) (tenant : Option TenantInfo) (request : HttpRequest)
    (data : UrlCacheData) (location : String) :
    (env.refuse tenant request.method (.expired (timeError data))).status ≠ 200 ∧
      ((env.refuse tenant request.method (.expired (timeError data))).status = 302 ∧
          (env.refuse tenant request.method (.expired (timeError data))).location = some location ↔
        orNone data.expiredRedirectUrl = some location) := by
  rw [← timeError_eq_expiredRedirect_iff]
  cases timeError data with
  | expiredRedirect url => simp [RedirectEnv.refuse]
  | gone message => simp [RedirectEnv.refuse, status_gone]

/-- The route serves a promoted link unless it has run out. -/
theorem redirectUrl_of_leadsTo (request : HttpRequest) (roll : Nat)
    (hpromotable : env.Promotable link data promoted) (hlater : promoted ≤ now)
    (hsystem : scopeOf env.cfg (tenant.map (·.fqdn)) = env.cfg.systemDefaultDomain)
    (hleads : env.LeadsTo routed link data s) :
    (env.redirectUrl tenant routed request roll now s).1 =
      if data.isTimeExpired now then env.refuse tenant request.method (.expired (timeError data))
      else env.serve tenant (env.cfg.lib.unquote routed) request roll data := by
  obtain ⟨t, hresolve⟩ := resolve_of_leadsTo now hpromotable hleads
  obtain ⟨-, -, -, -, -, -, hstarted, -⟩ := promotionSkipReason_eq_none_iff.1 hpromotable.eligible
  simp only [RedirectEnv.redirectUrl, hsystem]
  cases hfound : resolve env.cfg env.readers (env.cfg.lib.unquote routed)
      env.cfg.systemDefaultDomain now s with
  | mk outcome t' =>
    rw [hfound] at hresolve
    replace hresolve : outcome = _ := hresolve
    by_cases hexpired : data.isTimeExpired now = true
    · rw [checkTimes_of_expired hexpired] at hresolve
      rw [if_pos hexpired, hresolve]
    · rw [checkTimes_of_live (Bool.eq_false_iff.2 hexpired)
        (isNotYetLive_of_later hlater hstarted)] at hresolve
      rw [if_neg hexpired, hresolve]

/-- The answer from a promoted entry agrees with the route's where the two decide alike. -/
theorem answerEntry_agrees_iff
    (hcountry : runtime.toUpperCase (request.country.getD "") = env.workerCountry request)
    (hpromotable : env.Promotable link data promoted) (hlater : promoted ≤ now)
    (hsystem : scopeOf env.cfg (tenant.map (·.fqdn)) = env.cfg.systemDefaultDomain)
    (hleads : env.LeadsTo routed link data s) (hbot : request.hasParam "bot" = false) :
    (EdgeWorker.answerEntry runtime (promotedEntry env.renderMetaPreview data) request).Agrees
      (env.redirectUrl tenant routed request roll now s).1 ↔ env.SameDecision request data now := by
  have hroute := redirectUrl_of_leadsTo request roll hpromotable hlater hsystem hleads
  rw [hroute, answerEntry_promotedEntry, hcountry, RedirectEnv.SameDecision]
  by_cases hexpired : data.isTimeExpired now = true
  · obtain ⟨hnoCard, hredirected⟩ := refuse_timeError env tenant request data
      (data.destinationIn (some (env.workerCountry request)))
    rw [if_pos hexpired, if_pos hexpired]
    by_cases hcard : request.GetsCard data
    · rw [if_pos hcard]
      exact iff_of_false (fun h => hnoCard h.1) fun h => h.1 hcard
    · rw [if_neg hcard]
      exact hredirected.trans (and_iff_right hcard).symm
  · rw [if_neg hexpired, if_neg hexpired, serve_of_promotable hpromotable hbot]
    by_cases hcard : request.GetsCard data
    · rw [if_pos hcard, if_pos hcard]
      exact iff_of_true ⟨rfl, rfl⟩ (.inl hcard)
    · rw [if_neg hcard, if_neg hcard]
      refine ⟨fun h => .inr (Option.some.inj h.2).symm, fun h => ⟨rfl, ?_⟩⟩
      exact congrArg some (h.resolve_left hcard).symm

end

/-- While a link that was promoted is as it was, the Worker passes on the requests for its code or
answers them like the route, exactly where the two decide alike. -/
theorem edge_agrees_iff (env : RedirectEnv) (runtime : WorkerRuntime) (tenant : Option TenantInfo)
    (link : SelectedLink) (data : UrlCacheData) (cache : UrlCache) (hotShortCode routed : String)
    (ttl promoted now : Int) (request : HttpRequest) (roll : Nat) (s : Stores)
    (hcountry : runtime.toUpperCase (request.country.getD "") = env.workerCountry request)
    (hcached : cache.get hotShortCode env.cfg.systemDefaultDomain = some data)
    (hpromotable : env.Promotable link data promoted) (hlater : promoted ≤ now)
    (hsystem : scopeOf env.cfg (tenant.map (·.fqdn)) = env.cfg.systemDefaultDomain)
    (hleads : env.LeadsTo routed link data s) :
    (EdgeWorker.fetch runtime (promote env.renderMetaPreview cache .empty
        env.cfg.systemDefaultDomain env.cfg.systemDefaultDomain hotShortCode ttl promoted) request
      now).Agrees (env.redirectUrl tenant routed request roll now s).1 ↔
    (EdgeWorker.lookupKey runtime request =
        some (cacheKey env.cfg.systemDefaultDomain hotShortCode) →
      now < promoted + ttl * 1000000 → env.SameDecision request data now) := by
  have hkv : promote env.renderMetaPreview cache .empty env.cfg.systemDefaultDomain
      env.cfg.systemDefaultDomain hotShortCode ttl promoted =
      EdgeKv.empty.put (cacheKey env.cfg.systemDefaultDomain hotShortCode)
        (promotedEntry env.renderMetaPreview data) ttl promoted := by
    simp [promote, hcached, hpromotable.eligible]
  rw [hkv, EdgeWorker.fetch]
  cases hlookup : EdgeWorker.lookupKey runtime request with
  | none => exact iff_of_true trivial (by simp)
  | some key =>
    dsimp only
    by_cases hkey : key = cacheKey env.cfg.systemDefaultDomain hotShortCode
    · subst hkey
      rw [EdgeKv.get_put_self]
      by_cases hlive : now < promoted + ttl * 1000000
      · rw [if_pos hlive]
        refine (answerEntry_agrees_iff hcountry hpromotable hlater hsystem hleads
          (hasParam_bot_of_lookupKey hlookup)).trans ?_
        exact ⟨fun h _ _ => h, fun h => h rfl hlive⟩
      · rw [if_neg hlive]
        exact iff_of_true trivial fun _ h => absurd h hlive
    · have hmiss : (EdgeKv.empty.put (cacheKey env.cfg.systemDefaultDomain hotShortCode)
          (promotedEntry env.renderMetaPreview data) ttl promoted).get key now = none := by
        simp [EdgeKv.get, EdgeKv.put, EdgeKv.empty, hkey]
      rw [hmiss]
      exact iff_of_true trivial fun h => absurd (Option.some.inj h) hkey

/-- A link with a destination of its own for visitors from Germany. -/
def germanLink : UrlRow :=
  { hotLink with geoRules := some (PyDict.ofList [("DE", "https://a.example/de")]) }

/-- The link as it is cached. -/
def germanData : UrlCacheData := .fromV2Doc (.fromMongo germanLink)

/-- The route, which locates every address in Germany. -/
def germanEnv : RedirectEnv := { plainRedirectEnv with countryOfIp _ := some "DE" }

/-- The namespace once the link has been promoted, at the epoch and for five minutes. -/
def germanKv : EdgeKv :=
  promote germanEnv.renderMetaPreview (UrlCache.empty.set "aaa" germanData) .empty "spoo.me"
    "spoo.me" "aaa" 300 0

/-- A visitor whose country Cloudflare names. -/
def germanVisit : HttpRequest := { plainVisit with country := some "de" }

theorem promotable_germanLink :
    germanEnv.Promotable (.v2 (.fromMongo germanLink)) germanData 0 where
  projected := rfl
  cacheable := .inl rfl
  eligible := by decide +kernel

theorem leadsTo_germanLink :
    germanEnv.LeadsTo "aaa" (.v2 (.fromMongo germanLink)) germanData (storesOf germanLink) where
  cached _ hfound := by cases hfound
  selected := rfl

theorem edge_agrees_iff_germanLink :
    (EdgeWorker.fetch plainRuntime germanKv germanVisit 1).Agrees
        (germanEnv.redirectUrl none "aaa" germanVisit 0 1 (storesOf germanLink)).1 ↔
      (EdgeWorker.lookupKey plainRuntime germanVisit = some (cacheKey "spoo.me" "aaa") →
        (1 : Int) < 0 + 300 * 1000000 → germanEnv.SameDecision germanVisit germanData 1) :=
  edge_agrees_iff germanEnv plainRuntime none (.v2 (.fromMongo germanLink)) germanData
    (UrlCache.empty.set "aaa" germanData) "aaa" "aaa" 300 0 1 germanVisit 0 (storesOf germanLink)
    rfl rfl promotable_germanLink (by decide) rfl leadsTo_germanLink

/-- A visitor whose country Cloudflare does not name gets the default destination from the Worker,
and the German one from the route, which locates the address. -/
theorem edge_disagrees_unlocated :
    germanEnv.Promotable (.v2 (.fromMongo germanLink)) germanData 0 ∧
      germanEnv.LeadsTo "aaa" (.v2 (.fromMongo germanLink)) germanData (storesOf germanLink) ∧
      ¬(EdgeWorker.fetch plainRuntime germanKv plainVisit 1).Agrees
        (germanEnv.redirectUrl none "aaa" plainVisit 0 1 (storesOf germanLink)).1 := by
  refine ⟨promotable_germanLink, leadsTo_germanLink, ?_⟩
  have hedge : EdgeWorker.fetch plainRuntime germanKv plainVisit 1 =
      .redirect "https://a.example/p" 302 true := by decide +kernel
  have horigin : (germanEnv.redirectUrl none "aaa" plainVisit 0 1 (storesOf germanLink)).1.location =
      some "https://a.example/de" := by decide +kernel
  rw [hedge]
  rintro ⟨-, hlocation⟩
  rw [horigin] at hlocation
  exact absurd hlocation (by decide)

end Spoo
