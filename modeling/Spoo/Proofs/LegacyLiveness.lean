import Spoo.Proofs.PublicDispatch
import Spoo.Services.PublicPreview
import Spoo.Services.UrlService.Resolve

/-!
# Liveness of legacy links

The public pages derive the status of a v1 or emoji link from the raw document; the redirect
decides on what the document model makes of it.
-/

namespace Spoo

open Mongo UrlService

namespace LegacyUrlRow

variable (readers : LegacyReaders) (row : LegacyUrlRow) (now : Int)

/-- The model accepts the document. -/
structure Readable : Prop where
  blocked : (row.blocked.withDefault false readers.flag).isSome = true
  totalClicks : (row.totalClicks.withDefault 0 readers.modelInt).isSome = true
  maxClicks : (row.maxClicks.optional readers.modelInt).isSome = true
  expirationTime : (row.expirationTime.optional readers.modelDatetime).isSome = true
  rest : row.restTyped = true

variable {readers row now} {schema : SchemaVersion}

end LegacyUrlRow

open LegacyUrlRow

variable {readers : LegacyReaders} {row : LegacyUrlRow} {now : Int}

theorem LegacyUrlRow.Readable.fromMongo (h : row.Readable readers) :
    ∃ doc, LegacyUrlDoc.fromMongo readers row = some doc := by
  obtain ⟨blocked, hblocked⟩ := Option.isSome_iff_exists.1 h.blocked
  obtain ⟨total, htotal⟩ := Option.isSome_iff_exists.1 h.totalClicks
  obtain ⟨maxClicks, hmaxClicks⟩ := Option.isSome_iff_exists.1 h.maxClicks
  obtain ⟨expiration, hexp⟩ := Option.isSome_iff_exists.1 h.expirationTime
  simp [LegacyUrlDoc.fromMongo, hblocked, htotal, hmaxClicks, hexp, h.rest]

/-! ## The redirect -/

/-- The schema the projection of a legacy link is tagged with. -/
def legacyTag : SchemaVersion → String
  | .v1 => "v1"
  | .v2 => "v2"
  | .emoji => "emoji"

section

variable {schema : SchemaVersion} {doc : LegacyUrlDoc} {domain : String}

end

/-- A link of the `urls` or the `emojis` collection. -/
def SelectedLink.IsLegacy (link : SelectedLink) (row : LegacyUrlRow) : Prop :=
  link = .v1 row ∨ link = .emoji row

theorem SelectedLink.IsLegacy.projection {link : SelectedLink} (h : link.IsLegacy row)
    (domain : String) : projection readers domain link =
      (LegacyUrlDoc.fromMongo readers row).map
        (legacyDocToCache · domain (legacyTag link.schema)) := by
  rcases h with rfl | rfl <;> rfl

theorem SelectedLink.IsLegacy.effectiveStatus {link : SelectedLink} (h : link.IsLegacy row) :
    link.effectiveStatus readers now =
      SelectedLink.effectiveStatus.legacyStatus readers now row := by
  rcases h with rfl | rfl <;> rfl

/-- The cache has no entry for the code, or the one a visit leaves there: an emoji link and a link
with a cap are never cached. -/
def CacheFollows (cfg : DispatchConfig) (readers : LegacyReaders) (code : String)
    (link : SelectedLink) (s : Stores) : Prop :=
  ∀ data, s.cache.get (v2LookupCode cfg.lib code) cfg.systemDefaultDomain = some data →
    projection readers cfg.systemDefaultDomain link = some data ∧
      data.schemaVersion = "v1" ∧ data.maxClicks = none

/-- A visit of a link that is not cached leaves such a cache. -/
theorem CacheFollows.populate {cfg : DispatchConfig} {code : String} {link : SelectedLink}
    {data : UrlCacheData} {s : Stores} (hlink : link.IsLegacy row)
    (hnone : s.cache.get (v2LookupCode cfg.lib code) cfg.systemDefaultDomain = none)
    (hdata : UrlService.projection readers cfg.systemDefaultDomain link = some data) :
    CacheFollows cfg readers code link
      (populate (v2LookupCode cfg.lib code) data s) := by
  have htag : data.domain = cfg.systemDefaultDomain ∧ data.schemaVersion ≠ "v2" := by
    rw [hlink.projection] at hdata
    obtain ⟨doc, -, rfl⟩ := Option.map_eq_some_iff.1 hdata
    rcases hlink with rfl | rfl <;>
      exact ⟨rfl, by simp [legacyDocToCache, legacyTag, SelectedLink.schema]⟩
  intro cached hcached
  unfold UrlService.populate at hcached
  split at hcached
  · rename_i hkept
    obtain ⟨hv1, hcap⟩ := hkept.resolve_left htag.2
    simp only [populateCache, UrlCache.get, UrlCache.set, htag.1, if_true] at hcached
    cases hcached
    exact ⟨hdata, hv1, hcap⟩
  · rw [hnone] at hcached
    cases hcached

/-- On a miss `resolve` goes by `_dispatch`: it cannot read what `_dispatch` raises for. -/
theorem dispatch_eq_select {cfg : DispatchConfig} {s : Stores} (code : String) :
    dispatch cfg readers s (v2LookupCode cfg.lib code) code =
      (select cfg code cfg.systemDefaultDomain s).elim (.ok none) fun link =>
        if (projection readers cfg.systemDefaultDomain link).isSome then .ok (some link)
        else .error .rejected := by
  rw [dispatch_eq_validate, select, if_pos rfl, validate]
  congr 1
  funext link
  cases link with
  | v2 doc => rfl
  | v1 row =>
    rw [SelectedLink.validated, projection, Option.isSome_map]
    split <;> rfl
  | emoji row =>
    rw [SelectedLink.validated, projection, Option.isSome_map]
    split <;> rfl

end Spoo
