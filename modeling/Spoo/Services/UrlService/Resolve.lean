import Spoo.Services.UrlService.Dispatch
import Spoo.Services.UrlService.Service

/-!
# UrlService.resolve (`services/url_service.py`)

The redirect serves a link from its cached projection. On a miss it reads the document and caches
what it is projected to, a v2 link whatever its status.
-/

namespace Spoo.UrlService

open Interleave

/-- `_dispatch_custom_domain`, and the v2 read of `_dispatch` (`url_service.py:1842-1857`). -/
def dispatchV2 (urls : UrlStore) (shortCode domain : String) : Option UrlCacheData :=
  (UrlRepository.findByAlias urls shortCode domain).map UrlCacheData.fromV2Doc

/-- `_populate_cache` with a link of the v2 schema (`url_service.py:1883-1899`). -/
def populateCache (cache : UrlCache) (shortCode : String) (data : UrlCacheData) : UrlCache :=
  cache.set shortCode data

/-- The lookup, the read and the populate of `resolve` (`url_service.py:660-707`). -/
def fillCache (shortCode domain : String) (s : Stores) : Stores :=
  match s.cache.get shortCode domain with
  | some _ => s
  | none =>
    match dispatchV2 s.urls shortCode domain with
    | some data => { s with cache := populateCache s.cache shortCode data }
    | none => s

/-! ## resolve -/

/-- Why a visitor is sent to no destination. A stored document that its model rejects is
`unreadable`. -/
inductive Refusal where
  | notFound
  | unreadable
  | blocked
  | expired (error : ResolveError)
  | notYetLive (fallback : Option String)
  deriving DecidableEq, Repr

/-- `_raise_for_status` (`url_service.py:1951-1957`). -/
def raiseForStatus (data : UrlCacheData) : Refusal :=
  if data.urlStatus = .blocked then .blocked
  else match data.expiredRedirectUrl with
    | some url =>
      if data.urlStatus = .expired ∧ url ≠ "" then .expired (.expiredRedirect url)
      else .expired (.gone "URL has expired or is no longer active")
    | none => .expired (.gone "URL has expired or is no longer active")

/-- The status refuses everybody: BLOCKED of every schema, EXPIRED and INACTIVE of v2. -/
def statusRefuses (data : UrlCacheData) : Bool :=
  data.urlStatus = .blocked ||
    (data.schemaVersion = "v2" && (data.urlStatus = .expired || data.urlStatus = .inactive))

/-- `max-clicks` of a v1 link, which its document decides alone. -/
def v1CapRefuses (data : UrlCacheData) : Bool :=
  data.schemaVersion = "v1" && data.maxClicks.any fun maxClicks => maxClicks ≤ data.totalClicks

/-- The time checks that end both branches of `resolve`. -/
def checkTimes (data : UrlCacheData) (shortCode : String) (now : Int) (s : Stores) :
    Except Refusal UrlCacheData × Stores :=
  match raiseIfTimeExpired data shortCode now s with
  | (.error error, s) => (.error (.expired error), s)
  | (.ok _, s) =>
    if data.isNotYetLive now then (.error (.notYetLive data.preStartUrl), s) else (.ok data, s)

/-- `_legacy_doc_to_cache`: only an aware `expiration-time` expires
(`url_service.py:2025-2059`). -/
def legacyDocToCache (doc : LegacyUrlDoc) (systemDefaultDomain schemaVersion : String) :
    UrlCacheData where
  id := doc.code
  linkAlias := doc.code
  longUrl := doc.url
  blockBots := doc.blockBots.getD false
  passwordHash := doc.password
  expirationTime := match doc.expirationTime with
    | some (.aware us) => some (toUnixTimestamp (.aware us))
    | _ => none
  maxClicks := doc.maxClicks
  urlStatus := if doc.blocked then .blocked else .active
  schemaVersion
  totalClicks := doc.totalClicks
  ownerId := none
  domain := systemDefaultDomain

/-- The projection of a link that was found: `none` where its model rejects it. -/
def projection (readers : LegacyReaders) (systemDefaultDomain : String) :
    SelectedLink → Option UrlCacheData
  | .v2 doc => some (.fromV2Doc doc)
  | .v1 row =>
    (LegacyUrlDoc.fromMongo readers row).map (legacyDocToCache · systemDefaultDomain "v1")
  | .emoji row =>
    (LegacyUrlDoc.fromMongo readers row).map (legacyDocToCache · systemDefaultDomain "emoji")

/-- The lookup of a miss: `_dispatch` on the system domain, `_dispatch_custom_domain`
elsewhere. -/
def select (cfg : DispatchConfig) (rawCode scope : String) (s : Stores) : Option SelectedLink :=
  if scope = cfg.systemDefaultDomain then dispatchCode cfg s rawCode
  else (UrlRepository.findByAlias s.urls (v2LookupCode cfg.lib rawCode) scope).map .v2

/-- `_populate_cache`: an emoji link and a v1 link with `max-clicks` are never cached
(`url_service.py:1883-1899`). -/
def populate (shortCode : String) (data : UrlCacheData) (s : Stores) : Stores :=
  if data.schemaVersion = "v2" ∨ data.schemaVersion = "v1" ∧ data.maxClicks = none then
    { s with cache := populateCache s.cache shortCode data }
  else s

/-- What a miss does with the document it found. -/
def resolveFound (data : UrlCacheData) (shortCode : String) (now : Int) (s : Stores) :
    Except Refusal UrlCacheData × Stores :=
  let s := populate shortCode data s
  if statusRefuses data then (.error (raiseForStatus data), s)
  else if v1CapRefuses data then
    (.error (.expired (.gone "URL has expired (max clicks reached)")), s)
  else checkTimes data shortCode now s

/-- What a hit does with the cached entry. -/
def resolveCached (data : UrlCacheData) (shortCode : String) (now : Int) (s : Stores) :
    Except Refusal UrlCacheData × Stores :=
  if statusRefuses data then (.error (raiseForStatus data), s) else checkTimes data shortCode now s

/-- `resolve` in the scope of a domain (`url_service.py:628-742`). -/
def resolve (cfg : DispatchConfig) (readers : LegacyReaders) (rawCode scope : String) (now : Int)
    (s : Stores) : Except Refusal UrlCacheData × Stores :=
  let shortCode := v2LookupCode cfg.lib rawCode
  match s.cache.get shortCode scope with
  | some data => resolveCached data shortCode now s
  | none =>
    match select cfg rawCode scope s with
    | none => (.error .notFound, s)
    | some link =>
      match projection readers cfg.systemDefaultDomain link with
      | none => (.error .unreadable, s)
      | some data => resolveFound data shortCode now s

/-! ## Its calls on the stores -/

/-- The local variables of `resolve`: the projection it goes on with and whether that was cached,
whether the link was flipped to EXPIRED, and what it returns or raises. -/
structure ResolveVars where
  data : Option UrlCacheData := none
  cached : Bool := false
  flipped : Bool := false
  outcome : Option (Except Refusal UrlCacheData) := none

abbrev ResolveCall := Action ResolveVars Stores

/-- `url_cache.get`. -/
def lookupCall (shortCode scope : String) : ResolveCall := fun v s =>
  match s.cache.get shortCode scope with
  | some data => ({ v with data := some data, cached := true }, s)
  | none => (v, s)

/-- The reads of a dispatch, on a miss. -/
def dispatchCall (cfg : DispatchConfig) (readers : LegacyReaders) (rawCode scope : String) :
    ResolveCall := fun v s =>
  if v.cached then (v, s)
  else match select cfg rawCode scope s with
    | none => ({ v with outcome := some (.error .notFound) }, s)
    | some link =>
      match projection readers cfg.systemDefaultDomain link with
      | none => ({ v with outcome := some (.error .unreadable) }, s)
      | some data => ({ v with data := some data }, s)

/-- `_populate_cache`, on a miss. -/
def populateCall (shortCode : String) : ResolveCall := fun v s =>
  match v.data with
  | some data => (v, if v.cached then s else populate shortCode data s)
  | none => (v, s)

/-- Why a link is refused whatever the time. `total-clicks` counts on a miss only. -/
def refusalOf (data : UrlCacheData) (cached : Bool) : Option Refusal :=
  if statusRefuses data then some (raiseForStatus data)
  else if !cached && v1CapRefuses data then
    some (.expired (.gone "URL has expired (max clicks reached)"))
  else none

/-- The v2 link that is flipped to EXPIRED when its projection has run out. -/
def expiredLink (data : UrlCacheData) (now : Int) : Option ObjectId :=
  if data.isTimeExpired now ∧ data.schemaVersion = "v2" ∧ data.urlStatus = .active then
    data.objectId
  else none

/-- The checks, and `url_repo.expire_if_time_reached` where the time has run out. -/
def expireCall (shortCode : String) (now : Int) : ResolveCall := fun v s =>
  match v.data with
  | some data =>
    match refusalOf data v.cached with
    | some refusal => ({ v with outcome := some (.error refusal) }, s)
    | none =>
      let v := { v with outcome := some (checkTimes data shortCode now s).1 }
      match expiredLink data now with
      | some urlId =>
        let r := UrlRepository.expireIfTimeReached s.urls urlId now
        ({ v with flipped := r.2 }, { s with urls := r.1 })
      | none => (v, s)
  | none => (v, s)

/-- `url_cache.invalidate`, after a flip. -/
def expiredInvalidateCall (shortCode : String) : ResolveCall := fun v s =>
  match v.data with
  | some data =>
    (v, if v.flipped then { s with cache := s.cache.invalidate shortCode data.domain } else s)
  | none => (v, s)

/-- The event of a flip. -/
def expiredEmitCall : ResolveCall := fun v s =>
  match v.data.bind UrlCacheData.objectId with
  | some urlId => (v, if v.flipped then emitExpired urlId "time_expired" s else s)
  | none => (v, s)

/-- The calls of `resolve` (`url_service.py:628-783`). -/
def resolveCalls (cfg : DispatchConfig) (readers : LegacyReaders) (rawCode scope : String)
    (now : Int) : List ResolveCall :=
  let shortCode := v2LookupCode cfg.lib rawCode
  [lookupCall shortCode scope,
    dispatchCall cfg readers rawCode scope,
    populateCall shortCode,
    expireCall shortCode now,
    expiredInvalidateCall shortCode,
    expiredEmitCall]

section

variable {data : UrlCacheData} {cached : Bool} {shortCode : String} {now : Int} {s : Stores}

theorem raiseIfTimeExpired_of_expired (h : data.isTimeExpired now = true) :
    ∃ after, raiseIfTimeExpired data shortCode now s = (.error (timeError data), after) := by
  simp only [raiseIfTimeExpired, h, Bool.not_true, Bool.false_eq_true, if_false]
  split
  · split <;> exact ⟨_, rfl⟩
  · exact ⟨_, rfl⟩

theorem raiseIfTimeExpired_of_live (h : data.isTimeExpired now = false) :
    raiseIfTimeExpired data shortCode now s = (.ok (), s) := by
  simp [raiseIfTimeExpired, h]

/-- What the time checks leave in the stores: the flip of an expired link. -/
theorem checkTimes_stores : (checkTimes data shortCode now s).2 =
    match expiredLink data now with
    | some urlId =>
      let r := UrlRepository.expireIfTimeReached s.urls urlId now
      if r.2 then emitExpired urlId "time_expired" { s with
        urls := r.1, cache := s.cache.invalidate shortCode data.domain }
      else { s with urls := r.1 }
    | none => s := by
  unfold checkTimes raiseIfTimeExpired expiredLink
  cases data.isTimeExpired now with
  | false =>
    simp only [Bool.not_false, if_true, Bool.false_eq_true, false_and, if_false]
    split <;> rfl
  | true =>
    by_cases hactive : data.schemaVersion = "v2" ∧ data.urlStatus = .active
    · cases data.objectId <;> simp [hactive]
    · cases data.objectId <;> simp [hactive]

/-- The calls that follow the populate are the checks. -/
theorem runActions_checks :
    let r := runActions [expireCall shortCode now, expiredInvalidateCall shortCode,
      expiredEmitCall] { data := some data, cached } s
    (r.1.outcome, r.2) = match refusalOf data cached with
      | some refusal => (some (.error refusal), s)
      | none => (some (checkTimes data shortCode now s).1,
          (checkTimes data shortCode now s).2) := by
  cases hrefusal : refusalOf data cached with
  | some refusal =>
    cases hid : data.objectId <;>
      simp [expireCall, expiredInvalidateCall, expiredEmitCall, hrefusal, hid]
  | none =>
    have hlink : ∀ urlId, expiredLink data now = some urlId → data.objectId = some urlId := by
      intro urlId h
      unfold expiredLink at h
      split at h
      · exact h
      · cases h
    simp only [checkTimes_stores]
    cases hexpired : expiredLink data now with
    | none =>
      cases hid : data.objectId <;>
        simp [expireCall, expiredInvalidateCall, expiredEmitCall, hrefusal, hexpired, hid]
    | some urlId =>
      simp only [expireCall, expiredInvalidateCall, expiredEmitCall, hrefusal, hexpired,
        runActions_cons, runActions_nil, Option.bind_some, hlink urlId hexpired]
      cases (UrlRepository.expireIfTimeReached s.urls urlId now).2 <;> rfl

end

/-- Run alone, the calls are `resolve`. -/
theorem runActions_resolveCalls (cfg : DispatchConfig) (readers : LegacyReaders)
    (rawCode scope : String) (now : Int) (s : Stores) :
    let r := runActions (resolveCalls cfg readers rawCode scope now) {} s
    (r.1.outcome, r.2) = (some (resolve cfg readers rawCode scope now s).1,
      (resolve cfg readers rawCode scope now s).2) := by
  have found (cached : Bool) (data : UrlCacheData) (s : Stores) :=
    @runActions_checks data cached (v2LookupCode cfg.lib rawCode) now s
  simp only [resolveCalls, runActions_cons, lookupCall, resolve]
  cases s.cache.get (v2LookupCode cfg.lib rawCode) scope with
  | some data =>
    simp only [dispatchCall, populateCall, if_true]
    refine (found true data s).trans ?_
    unfold resolveCached refusalOf
    cases statusRefuses data <;> rfl
  | none =>
    simp only [dispatchCall, Bool.false_eq_true, if_false]
    cases select cfg rawCode scope s with
    | none => rfl
    | some link =>
      simp only
      cases projection readers cfg.systemDefaultDomain link with
      | none => rfl
      | some data =>
        simp only [populateCall, Bool.false_eq_true, if_false]
        refine (found false data _).trans ?_
        unfold resolveFound refusalOf
        cases statusRefuses data with
        | true => rfl
        | false => cases v1CapRefuses data <;> rfl

/-! ## Whom it serves -/

section

variable {data : UrlCacheData} {shortCode : String} {now : Int} {s : Stores}

/-- The outcome is a destination. -/
def Serves (r : Except Refusal UrlCacheData × Stores) : Prop := ∃ data, r.1 = .ok data

theorem serves_checkTimes_iff : Serves (checkTimes data shortCode now s) ↔
    data.isTimeExpired now = false ∧ data.isNotYetLive now = false := by
  unfold Serves checkTimes
  cases h : data.isTimeExpired now with
  | false =>
    rw [raiseIfTimeExpired_of_live h]
    cases data.isNotYetLive now <;> simp
  | true =>
    obtain ⟨after, hraise⟩ := @raiseIfTimeExpired_of_expired data shortCode now s h
    simp [hraise]

theorem serves_resolveCached_iff : Serves (resolveCached data shortCode now s) ↔
    statusRefuses data = false ∧ data.isTimeExpired now = false ∧
      data.isNotYetLive now = false := by
  unfold resolveCached
  cases h : statusRefuses data with
  | true => simp [Serves]
  | false => simp [serves_checkTimes_iff]

theorem serves_resolveFound_iff : Serves (resolveFound data shortCode now s) ↔
    statusRefuses data = false ∧ v1CapRefuses data = false ∧ data.isTimeExpired now = false ∧
      data.isNotYetLive now = false := by
  unfold resolveFound
  cases h : statusRefuses data with
  | true => simp [Serves]
  | false =>
    cases hcap : v1CapRefuses data with
    | true => simp [Serves]
    | false => simp [serves_checkTimes_iff]

end

end Spoo.UrlService
