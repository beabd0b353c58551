import Spoo.Services.UrlService.Service

/-!
# PromoteToEdgeCacheAction (`services/edge_cache/promotion.py:72-148`)

A promotion reads the redirect cache, decides, and puts the entry it rendered into the KV
namespace. It is registered where the edge is enabled.
-/

namespace Spoo.PromoteToEdgeCacheAction

open Interleave

/-- The local variable `entry` of `promote`, once it is decided on. -/
structure PromoteVars where
  entry : Option EdgeCacheEntry := none

abbrev Call := Action PromoteVars Stores

/-- `url_cache.get` and the decision. -/
def readCall (edge : EdgeConfig) (hotDomain hotShortCode : String) (now : Int) : Call := fun v s =>
  match s.cache.get hotShortCode hotDomain with
  | none => (v, s)
  | some url =>
    match promotionSkipReason url hotDomain edge.systemDefaultDomain now with
    | some _ => (v, s)
    | none => ({ entry := some (promotedEntry edge.render url) }, s)

/-- `kv.put`. -/
def putCall (hotDomain hotShortCode : String) (ttl now : Int) : Call := fun v s =>
  match v.entry with
  | some entry => (v, { s with kv := s.kv.put (cacheKey hotDomain hotShortCode) entry ttl now })
  | none => (v, s)

/-- The calls of `promote`. -/
def promoteCalls (edge : EdgeConfig) (hotDomain hotShortCode : String) (ttl now : Int) :
    List Call :=
  if edge.enabled then
    [readCall edge hotDomain hotShortCode now, putCall hotDomain hotShortCode ttl now]
  else []

/-- Run alone, the calls are `promote`. -/
theorem runActions_promoteCalls (edge : EdgeConfig) (hotDomain hotShortCode : String)
    (ttl now : Int) (s : Stores) (henabled : edge.enabled = true) :
    (runActions (promoteCalls edge hotDomain hotShortCode ttl now) {} s).2 =
      { s with
        kv := promote edge.render s.cache s.kv edge.systemDefaultDomain hotDomain hotShortCode
          ttl now } := by
  simp only [promoteCalls, henabled, if_true, runActions_cons, runActions_nil, readCall, promote]
  cases s.cache.get hotShortCode hotDomain with
  | none => rfl
  | some url =>
    dsimp only
    cases promotionSkipReason url hotDomain edge.systemDefaultDomain now <;> rfl

/-- A promotion that has decided to put an entry is one of the system domain. -/
theorem systemDomain_readCall {edge : EdgeConfig} {hotDomain hotShortCode : String} {now : Int}
    {v : PromoteVars} {s : Stores}
    (hv : v.entry.isSome = true → hotDomain = edge.systemDefaultDomain)
    (h : (readCall edge hotDomain hotShortCode now v s).1.entry.isSome = true) :
    hotDomain = edge.systemDefaultDomain := by
  unfold readCall at h
  split at h
  · exact hv h
  · split at h
    · exact hv h
    · rename_i hnone
      by_contra hne
      simp [promotionSkipReason, hne] at hnone

end Spoo.PromoteToEdgeCacheAction
