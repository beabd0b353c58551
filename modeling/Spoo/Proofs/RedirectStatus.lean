import Spoo.Proofs.PublicDispatch
import Spoo.Services.UrlService.Resolve

/-!
# The redirect and the effective status

The redirect decides on a v2 link from a projection in whole seconds; `effective_status` decides
on the document.
-/

namespace Spoo

open UrlService

namespace UrlV2Doc

variable {doc : UrlV2Doc} {now : Int}

/-- `expire_after` has passed. -/
def Lapsed (doc : UrlV2Doc) (now : Int) : Prop :=
  ∃ expireAfter ∈ doc.expireAfter, asAwareUtc expireAfter ≤ now

/-- The whole second that `expire_after` is cut to has begun. -/
def LapsedToTheSecond (doc : UrlV2Doc) (now : Int) : Prop :=
  ∃ expireAfter ∈ doc.expireAfter, toUnixTimestamp expireAfter * 1000000 ≤ now

/-- `starts_at` is to come. -/
def Pending (doc : UrlV2Doc) (now : Int) : Prop :=
  ∃ startsAt ∈ doc.startsAt, now < asAwareUtc startsAt

/-- The whole second that `starts_at` is rounded up to is to come. -/
def PendingToTheSecond (doc : UrlV2Doc) (now : Int) : Prop :=
  ∃ startsAt ∈ doc.startsAt, now < toUnixTimestampCeil startsAt * 1000000

/-- The clicks have reached `max_clicks`. -/
def CapReached (doc : UrlV2Doc) : Prop := ∃ maxClicks ∈ doc.maxClicks, maxClicks ≤ doc.totalClicks

theorem effectiveStatus_eq_active_iff : doc.effectiveStatus now = .active ↔
    doc.status = .active ∧ ¬doc.Lapsed now ∧ ¬doc.CapReached ∧ ¬doc.Pending now := by
  unfold effectiveStatus Lapsed CapReached Pending
  by_cases hactive : doc.status = .active
  · simp only [hactive, ne_eq, not_true_eq_false, if_false, true_and, Option.any_eq_true,
      decide_eq_true_eq, Option.mem_def]
    split
    · simp [*]
    · split
      · simp [*]
      · split
        · simp [*]
        · simp [*]
  · simp [hactive]

/-- A start is never rounded to an earlier instant. -/
theorem Pending.toTheSecond (h : doc.Pending now) : doc.PendingToTheSecond now := by
  obtain ⟨startsAt, hmem, hlt⟩ := h
  have hceil := le_toUnixTimestampCeil startsAt
  exact ⟨startsAt, hmem, by omega⟩

theorem statusRefuses_fromV2Doc : statusRefuses (.fromV2Doc doc) = false ↔
    doc.status ≠ .blocked ∧ doc.status ≠ .expired ∧ doc.status ≠ .inactive := by
  simp [statusRefuses, UrlCacheData.fromV2Doc]

theorem isTimeExpired_fromV2Doc :
    (UrlCacheData.fromV2Doc doc).isTimeExpired now = true ↔ doc.LapsedToTheSecond now := by
  unfold LapsedToTheSecond
  cases h : doc.expireAfter <;> simp [UrlCacheData.isTimeExpired, UrlCacheData.fromV2Doc, h]

theorem isNotYetLive_fromV2Doc :
    (UrlCacheData.fromV2Doc doc).isNotYetLive now = true ↔ doc.PendingToTheSecond now := by
  unfold PendingToTheSecond
  cases h : doc.startsAt <;> simp [UrlCacheData.isNotYetLive, UrlCacheData.fromV2Doc, h]

theorem v1CapRefuses_fromV2Doc (doc : UrlV2Doc) : v1CapRefuses (.fromV2Doc doc) = false := by
  simp [v1CapRefuses, UrlCacheData.fromV2Doc]

theorem serves_projection_iff :
    statusRefuses (.fromV2Doc doc) = false ∧ (UrlCacheData.fromV2Doc doc).isTimeExpired now = false ∧
        (UrlCacheData.fromV2Doc doc).isNotYetLive now = false ↔
      (doc.status ≠ .blocked ∧ doc.status ≠ .expired ∧ doc.status ≠ .inactive) ∧
        ¬doc.LapsedToTheSecond now ∧ ¬doc.PendingToTheSecond now := by
  rw [statusRefuses_fromV2Doc, ← isTimeExpired_fromV2Doc, ← isNotYetLive_fromV2Doc,
    Bool.not_eq_true, Bool.not_eq_true]

/-- The projection of the link decides like the document: what it leaves out, the click cap, and
what it rounds, the two instants, make no difference. -/
structure DecidedByProjection (doc : UrlV2Doc) (now : Int) : Prop where
  /-- An exhausted link is expired or not yet live on other grounds. -/
  cap : doc.status = .active → doc.CapReached →
    doc.LapsedToTheSecond now ∨ doc.PendingToTheSecond now
  /-- An expiry before 1970 is cut to a later second. -/
  lapse : doc.status = .active → doc.Lapsed now →
    doc.LapsedToTheSecond now ∨ doc.PendingToTheSecond now
  /-- Not in the second that `expire_after` falls in, before it. -/
  expirySecond : doc.status = .active → doc.LapsedToTheSecond now →
    doc.Lapsed now ∨ doc.CapReached ∨ doc.Pending now
  /-- Not in the second that `starts_at` falls in, after it. -/
  startSecond : doc.status = .active → doc.PendingToTheSecond now →
    doc.Pending now ∨ doc.Lapsed now ∨ doc.CapReached
  /-- SCHEDULED is derived and never stored. -/
  derived : doc.status = .scheduled → doc.LapsedToTheSecond now ∨ doc.PendingToTheSecond now

theorem projection_decides_iff :
    ((doc.status ≠ .blocked ∧ doc.status ≠ .expired ∧ doc.status ≠ .inactive) ∧
        ¬doc.LapsedToTheSecond now ∧ ¬doc.PendingToTheSecond now ↔
      doc.effectiveStatus now = .active) ↔ doc.DecidedByProjection now := by
  rw [effectiveStatus_eq_active_iff]
  constructor
  · intro h
    refine ⟨?_, ?_, ?_, ?_, ?_⟩
    · intro hactive hcap
      by_contra hnot
      obtain ⟨hlapsed, hpending⟩ := not_or.1 hnot
      exact (h.1 ⟨by simp [hactive], hlapsed, hpending⟩).2.2.1 hcap
    · intro hactive hlapse
      by_contra hnot
      obtain ⟨hlapsed, hpending⟩ := not_or.1 hnot
      exact (h.1 ⟨by simp [hactive], hlapsed, hpending⟩).2.1 hlapse
    · intro hactive hsecond
      by_contra hnot
      obtain ⟨hlapsed, hnot⟩ := not_or.1 hnot
      obtain ⟨hcap, hpending⟩ := not_or.1 hnot
      exact (h.2 ⟨hactive, hlapsed, hcap, hpending⟩).2.1 hsecond
    · intro hactive hsecond
      by_contra hnot
      obtain ⟨hpending, hnot⟩ := not_or.1 hnot
      obtain ⟨hlapsed, hcap⟩ := not_or.1 hnot
      exact (h.2 ⟨hactive, hlapsed, hcap, hpending⟩).2.2 hsecond
    · intro hscheduled
      by_contra hnot
      obtain ⟨hlapsed, hpending⟩ := not_or.1 hnot
      have hactive := (h.1 ⟨by simp [hscheduled], hlapsed, hpending⟩).1
      rw [hscheduled] at hactive
      cases hactive
  · intro h
    constructor
    · rintro ⟨⟨hblocked, hexpired, hinactive⟩, hlapsed, hpending⟩
      have hnot : ¬(doc.LapsedToTheSecond now ∨ doc.PendingToTheSecond now) :=
        not_or.2 ⟨hlapsed, hpending⟩
      have hactive : doc.status = .active := by
        cases hstatus : doc.status with
        | active => rfl
        | inactive => exact absurd hstatus hinactive
        | expired => exact absurd hstatus hexpired
        | blocked => exact absurd hstatus hblocked
        | scheduled => exact absurd (h.derived hstatus) hnot
      exact ⟨hactive, fun hl => hnot (h.lapse hactive hl), fun hc => hnot (h.cap hactive hc),
        fun hp => hpending hp.toTheSecond⟩
    · rintro ⟨hactive, hlapsed, hcap, hpending⟩
      refine ⟨by simp [hactive], fun hsecond => ?_, fun hsecond => ?_⟩
      · rcases h.expirySecond hactive hsecond with hl | hc | hp
        · exact hlapsed hl
        · exact hcap hc
        · exact hpending hp
      · rcases h.startSecond hactive hsecond with hp | hl | hc
        · exact hpending hp
        · exact hlapsed hl
        · exact hcap hc

end UrlV2Doc

/-- A v2 link that its code leads to and that is cached as it is stored is served in its window. -/
theorem serves_resolve_v2_iff {cfg : DispatchConfig} {readers : LegacyReaders}
    {code scope : String} {doc : UrlV2Doc} {now : Int} {s : Stores}
    (hcached : ∀ data, s.cache.get (v2LookupCode cfg.lib code) scope = some data →
      data = .fromV2Doc doc)
    (hselect : s.cache.get (v2LookupCode cfg.lib code) scope = none →
      select cfg code scope s = some (.v2 doc)) :
    Serves (resolve cfg readers code scope now s) ↔
      (doc.status ≠ .blocked ∧ doc.status ≠ .expired ∧ doc.status ≠ .inactive) ∧
        ¬doc.LapsedToTheSecond now ∧ ¬doc.PendingToTheSecond now := by
  cases hcache : s.cache.get (v2LookupCode cfg.lib code) scope with
  | some data =>
    rw [hcached data hcache] at hcache
    simp only [resolve, hcache, serves_resolveCached_iff, UrlV2Doc.serves_projection_iff]
  | none =>
    simp only [resolve, hcache, hselect hcache, projection, serves_resolveFound_iff,
      UrlV2Doc.v1CapRefuses_fromV2Doc, true_and, UrlV2Doc.serves_projection_iff]

/-- A redirect of a v2 link, from the database and from the cache entry that is built there, serves
a destination exactly when its effective status is ACTIVE, if and only if the projection decides
like the document. -/
theorem serves_iff_active_iff (cfg : DispatchConfig) (readers : LegacyReaders)
    (code scope : String) (doc : UrlV2Doc) (now : Int) (s t : Stores)
    (hmiss : s.cache.get (v2LookupCode cfg.lib code) scope = none)
    (hselect : select cfg code scope s = some (.v2 doc))
    (hhit : t.cache.get (v2LookupCode cfg.lib code) scope = some (.fromV2Doc doc)) :
    ((Serves (resolve cfg readers code scope now s) ↔ doc.effectiveStatus now = .active) ∧
      (Serves (resolve cfg readers code scope now t) ↔ doc.effectiveStatus now = .active)) ↔
      doc.DecidedByProjection now := by
  have hdatabase : Serves (resolve cfg readers code scope now s) ↔
      (doc.status ≠ .blocked ∧ doc.status ≠ .expired ∧ doc.status ≠ .inactive) ∧
        ¬doc.LapsedToTheSecond now ∧ ¬doc.PendingToTheSecond now :=
    serves_resolve_v2_iff (fun data hdata => by simp [hmiss] at hdata) fun _ => hselect
  have hcache : Serves (resolve cfg readers code scope now t) ↔
      (doc.status ≠ .blocked ∧ doc.status ≠ .expired ∧ doc.status ≠ .inactive) ∧
        ¬doc.LapsedToTheSecond now ∧ ¬doc.PendingToTheSecond now :=
    serves_resolve_v2_iff (fun data hdata => Option.some.inj (hdata.symm.trans hhit))
      fun hnone => by simp [hhit] at hnone
  rw [hdatabase, hcache, and_self]
  exact UrlV2Doc.projection_decides_iff

/-- A link whose owner has lowered the cap below the clicks it has. -/
def exhaustedLink : UrlRow where
  id := 1
  linkAlias := "aaa"
  ownerId := 7
  domain := "spoo.me"
  longUrl := "https://a.example/p"
  maxClicks := some 5
  totalClicks := 9

/-- The stores with the one link. -/
def exhaustedStores : Stores where
  urls := { docs := [exhaustedLink], nodup_id := by decide, nodup_key := by decide }
  legacy := .empty
  emoji := .empty

/-- The stores after a visit. -/
def exhaustedCached : Stores :=
  populate "aaa" (.fromV2Doc (.fromMongo exhaustedLink)) exhaustedStores

theorem serves_iff_active_iff_exhausted :
    ((Serves (resolve plainDispatch plainReaders "aaa" "spoo.me" 0 exhaustedStores) ↔
        (UrlV2Doc.fromMongo exhaustedLink).effectiveStatus 0 = .active) ∧
      (Serves (resolve plainDispatch plainReaders "aaa" "spoo.me" 0 exhaustedCached) ↔
        (UrlV2Doc.fromMongo exhaustedLink).effectiveStatus 0 = .active)) ↔
      (UrlV2Doc.fromMongo exhaustedLink).DecidedByProjection 0 :=
  serves_iff_active_iff plainDispatch plainReaders "aaa" "spoo.me" (.fromMongo exhaustedLink) 0
    exhaustedStores exhaustedCached rfl rfl rfl

/-- The redirect serves the exhausted link. -/
theorem redirect_serves_exhausted_link :
    Serves (resolve plainDispatch plainReaders "aaa" "spoo.me" 0 exhaustedStores) ∧
      (UrlV2Doc.fromMongo exhaustedLink).effectiveStatus 0 = .expired :=
  ⟨⟨_, rfl⟩, by decide⟩

/-! ## The window from the start to the expiry -/

namespace UrlV2Doc

variable {doc : UrlV2Doc} {now : Int}

theorem started_of_not_pendingToTheSecond (h : ¬doc.PendingToTheSecond now) :
    ∀ startsAt ∈ doc.startsAt, asAwareUtc startsAt ≤ now := by
  intro startsAt hmem
  by_contra hlt
  have hpending : doc.Pending now := ⟨startsAt, hmem, by omega⟩
  exact h hpending.toTheSecond

/-- Where the whole second of an expiry has not begun, the expiry is to come, or it is one before
1970, which is cut to the end of its second. -/
theorem unexpired_of_not_lapsedToTheSecond (h : ¬doc.LapsedToTheSecond now) :
    ∀ expireAfter ∈ doc.expireAfter, now < asAwareUtc expireAfter ∨
      now < 0 ∧ now / 1000000 = asAwareUtc expireAfter / 1000000 := by
  intro expireAfter hmem
  have hsecond : now < toUnixTimestamp expireAfter * 1000000 := by
    by_contra hle
    exact h ⟨expireAfter, hmem, by omega⟩
  simp only [toUnixTimestamp] at hsecond
  rcases Int.le_total 0 (asAwareUtc expireAfter) with hpos | hneg
  · rw [Int.tdiv_eq_ediv_of_nonneg hpos] at hsecond
    omega
  · have hcut : (asAwareUtc expireAfter).tdiv 1000000 = -(-asAwareUtc expireAfter / 1000000) := by
      rw [← Int.tdiv_eq_ediv_of_nonneg (by omega), Int.neg_tdiv, Int.neg_neg]
    rw [hcut] at hsecond
    omega

end UrlV2Doc

/-- A v2 link is served from its start on and, but for an expiry before 1970, before its expiry:
from the database, and from an entry that was built from the document at any earlier time, when the
rest of it may have been different. -/
theorem serves_in_window (cfg : DispatchConfig) (readers : LegacyReaders) (code scope : String)
    (doc : UrlV2Doc) (now : Int) (s : Stores)
    (hcached : ∀ data, s.cache.get (v2LookupCode cfg.lib code) scope = some data →
      ∃ earlier : UrlV2Doc, earlier.startsAt = doc.startsAt ∧
        earlier.expireAfter = doc.expireAfter ∧ data = .fromV2Doc earlier)
    (hselect : s.cache.get (v2LookupCode cfg.lib code) scope = none →
      select cfg code scope s = some (.v2 doc))
    (hserves : Serves (resolve cfg readers code scope now s)) :
    (∀ startsAt ∈ doc.startsAt, asAwareUtc startsAt ≤ now) ∧
      ∀ expireAfter ∈ doc.expireAfter, now < asAwareUtc expireAfter ∨
        now < 0 ∧ now / 1000000 = asAwareUtc expireAfter / 1000000 := by
  have hserved : ∃ served : UrlV2Doc, served.startsAt = doc.startsAt ∧
      served.expireAfter = doc.expireAfter ∧
      ¬served.LapsedToTheSecond now ∧ ¬served.PendingToTheSecond now := by
    cases hcache : s.cache.get (v2LookupCode cfg.lib code) scope with
    | some data =>
      obtain ⟨earlier, hstart, hexpiry, rfl⟩ := hcached data hcache
      have hwindow := (serves_resolve_v2_iff
        (fun data hdata => Option.some.inj (hdata.symm.trans hcache))
        (fun hnone => by simp [hcache] at hnone)).1 hserves
      exact ⟨earlier, hstart, hexpiry, hwindow.2⟩
    | none =>
      have hwindow := (serves_resolve_v2_iff (fun data hdata => by simp [hcache] at hdata)
        (fun _ => hselect hcache)).1 hserves
      exact ⟨doc, rfl, rfl, hwindow.2⟩
  obtain ⟨served, hstart, hexpiry, hlapsed, hpending⟩ := hserved
  rw [← hstart, ← hexpiry]
  exact ⟨UrlV2Doc.started_of_not_pendingToTheSecond hpending,
    UrlV2Doc.unexpired_of_not_lapsedToTheSecond hlapsed⟩

/-- A link that starts and expires in the middle of a second. -/
def windowedLink : UrlRow :=
  { exhaustedLink with startsAt := some ⟨1500⟩, expireAfter := some ⟨3500⟩ }

/-- The stores with the one link. -/
def windowedStores : Stores :=
  { exhaustedStores with
    urls := { docs := [windowedLink], nodup_id := by decide, nodup_key := by decide } }

theorem serves_in_window_windowed :
    Serves (resolve plainDispatch plainReaders "aaa" "spoo.me" 2000000 windowedStores) ∧
      (∀ startsAt ∈ (UrlV2Doc.fromMongo windowedLink).startsAt, asAwareUtc startsAt ≤ 2000000) ∧
      ∀ expireAfter ∈ (UrlV2Doc.fromMongo windowedLink).expireAfter,
        2000000 < asAwareUtc expireAfter ∨
          (2000000 : Int) < 0 ∧ 2000000 / 1000000 = asAwareUtc expireAfter / 1000000 :=
  ⟨⟨_, rfl⟩, serves_in_window plainDispatch plainReaders "aaa" "spoo.me" (.fromMongo windowedLink)
    2000000 windowedStores (fun data hdata => by cases hdata) (fun _ => rfl) ⟨_, rfl⟩⟩

/-- A link that expired half a second before 1970. -/
def lapsedLink : UrlRow := { exhaustedLink with expireAfter := some ⟨-500⟩ }

/-- The stores with the one link. -/
def lapsedStores : Stores :=
  { exhaustedStores with
    urls := { docs := [lapsedLink], nodup_id := by decide, nodup_key := by decide } }

/-- A fifth of a second before 1970 it is served. -/
theorem resolve_serves_lapsed_link :
    Serves (resolve plainDispatch plainReaders "aaa" "spoo.me" (-200000) lapsedStores) ∧
      (UrlV2Doc.fromMongo lapsedLink).Lapsed (-200000) :=
  ⟨⟨_, rfl⟩, _, rfl, by decide⟩

end Spoo
