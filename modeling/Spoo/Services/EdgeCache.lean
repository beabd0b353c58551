import Spoo.Infrastructure.UrlCache

/-!
# The edge store (`services/edge_cache/`, `infrastructure/cloudflare_kv.py`)

What the Workers KV namespace holds for the edge Worker, the rules a hot link must meet to be
promoted into it, and the write-through that keeps the preview entries of links with
meta-tags. The Jinja rendering of a preview page is a parameter (`render`).
-/

namespace Spoo

/-- `cache_key` (`contract.py:18-21`). -/
def cacheKey (domain shortCode : String) : String := "cache:" ++ domain ++ ":" ++ shortCode

/-- A KV value: `EdgeCacheEntry` of type `redirect` or `og_only`, or `EdgeCacheGeoEntry`
(`contract.py:24-76`). -/
inductive EdgeCacheEntry where
  | redirect (url : String) (status : Nat) (ogHtml : Option String)
  | geoRedirect (url : String) (status : Nat) (rules : PyDict String String)
      (ogHtml : Option String)
  | ogOnly (ogHtml : String)

/-- The entry sends every visitor on without asking origin. -/
def EdgeCacheEntry.isRedirect : EdgeCacheEntry → Bool
  | .ogOnly _ => false
  | _ => true

/-- The KV namespace: each key with its value and the time its `expiration_ttl` runs out. -/
structure EdgeKv where
  entries : String → Option (EdgeCacheEntry × Int)

namespace EdgeKv

/-- The empty namespace. -/
def empty : EdgeKv := ⟨fun _ => none⟩

/-- What a read at time `now` finds. -/
def get (kv : EdgeKv) (key : String) (now : Int) : Option EdgeCacheEntry :=
  (kv.entries key).bind fun e => if now < e.2 then some e.1 else none

/-- At time `now` the Worker answers the key with a redirect. -/
def serves (kv : EdgeKv) (key : String) (now : Int) : Bool :=
  (kv.get key now).any EdgeCacheEntry.isRedirect

/-- `put`, with a `ttl` in seconds. -/
def put (kv : EdgeKv) (key : String) (entry : EdgeCacheEntry) (ttl : Int) (now : Int) :
    EdgeKv :=
  ⟨fun k => if k = key then some (entry, now + ttl * 1000000) else kv.entries k⟩

/-- `delete`. -/
def delete (kv : EdgeKv) (key : String) : EdgeKv :=
  ⟨fun k => if k = key then none else kv.entries k⟩

/-- `bulk_delete`. -/
def bulkDelete (kv : EdgeKv) (keys : List String) : EdgeKv :=
  ⟨fun k => if k ∈ keys then none else kv.entries k⟩

/-- `bulk_put`, in the order of the list. -/
def bulkPut (kv : EdgeKv) (puts : List (String × EdgeCacheEntry)) (ttl : Int) (now : Int) :
    EdgeKv :=
  puts.foldl (fun kv e => kv.put e.1 e.2 ttl now) kv

variable {kv : EdgeKv} {key k : String} {now later : Int}

theorem serves_iff : kv.serves key now = true ↔
    ∃ entry expires, kv.entries key = some (entry, expires) ∧ now < expires ∧
      entry.isRedirect = true := by
  unfold serves get
  cases kv.entries key with
  | none => simp
  | some e =>
    obtain ⟨entry, expires⟩ := e
    by_cases h : now < expires
    · simp [h]
    · simp only [Option.bind_some, h, if_false, Option.any_none, Option.some.injEq,
        Prod.mk.injEq, false_iff, not_exists, not_and, and_imp, reduceCtorEq]
      rintro _ _ rfl rfl hlater
      exact absurd hlater h

@[simp] theorem get_put_self (entry : EdgeCacheEntry) (ttl : Int) :
    (kv.put key entry ttl now).get key later =
      if later < now + ttl * 1000000 then some entry else none := by
  simp [get, put]

/-- Entries only time out. -/
theorem serves_of_later (hle : now ≤ later) (h : kv.serves key later = true) :
    kv.serves key now = true := by
  rw [serves_iff] at h ⊢
  obtain ⟨entry, expires, hentry, hlater, hredirect⟩ := h
  exact ⟨entry, expires, hentry, by omega, hredirect⟩

theorem serves_delete : (kv.delete key).serves k now = true ↔ k ≠ key ∧ kv.serves k now = true := by
  simp only [serves_iff, delete]
  by_cases h : k = key <;> simp [h]

theorem serves_put {entry : EdgeCacheEntry} {ttl : Int}
    (h : (kv.put key entry ttl now).serves k later = true) :
    k = key ∧ entry.isRedirect = true ∨ k ≠ key ∧ kv.serves k later = true := by
  rw [serves_iff] at h ⊢
  obtain ⟨stored, expires, hstored, hlater, hredirect⟩ := h
  simp only [put] at hstored
  split at hstored
  · rename_i heq
    cases hstored
    exact .inl ⟨heq, hredirect⟩
  · rename_i hne
    exact .inr ⟨hne, stored, expires, hstored, hlater, hredirect⟩

theorem serves_bulkDelete {keys : List String} :
    (kv.bulkDelete keys).serves k now = true ↔ k ∉ keys ∧ kv.serves k now = true := by
  simp only [serves_iff, bulkDelete]
  by_cases h : k ∈ keys <;> simp [h]

/-- Preview entries are no redirects. -/
theorem serves_bulkPut {ttl : Int} :
    ∀ {puts : List (String × EdgeCacheEntry)} {kv : EdgeKv},
      (∀ e ∈ puts, e.2.isRedirect = false) →
      (kv.bulkPut puts ttl now).serves k later = true → kv.serves k later = true
  | [], _, _, h => h
  | e :: puts, kv, hputs, h => by
    obtain ⟨hhead, htail⟩ := List.forall_mem_cons.1 hputs
    rcases serves_put (serves_bulkPut htail h) with ⟨-, hredirect⟩ | ⟨-, hserves⟩
    · rw [hhead] at hredirect
      cases hredirect
    · exact hserves

end EdgeKv

/-- `promotion_skip_reason`: why a link must not be edge-cached (`promotion.py:39-69`). -/
def promotionSkipReason (url : UrlCacheData) (hotDomain systemDomain : String) (now : Int) :
    Option String :=
  if hotDomain ≠ systemDomain then some "non_system_domain"
  else if url.urlStatus ≠ .active then some "not_active"
  else if url.passwordHash.any (· ≠ "") then some "password_protected"
  else if url.maxClicks.any (· ≠ 0) then some "max_clicks"
  else if url.blockBots then some "block_bots"
  else if url.expirationTime.any (· ≠ 0) then some "has_expiration"
  else if url.isNotYetLive now then some "not_yet_live"
  else if url.abVariants.any (· ≠ []) then some "ab_variants"
  else none

section

variable (render : UrlCacheData → String)

/-- The entry a promotion writes: geo links get a `geo_redirect` (`promotion.py:117-126`). -/
def promotedEntry (url : UrlCacheData) : EdgeCacheEntry :=
  let ogHtml := if url.metaTitle.isSome then some (render url) else none
  match url.geoRules with
  | some rules =>
    if rules.entries ≠ [] then .geoRedirect url.longUrl 302 rules ogHtml
    else .redirect url.longUrl 302 ogHtml
  | none => .redirect url.longUrl 302 ogHtml

/-- `PromoteToEdgeCacheAction.promote`; `ttl` is the value of `_jittered_ttl()`
(`promotion.py:105-146`). -/
def promote (cache : UrlCache) (kv : EdgeKv) (systemDomain hotDomain hotShortCode : String)
    (ttl : Int) (now : Int) : EdgeKv :=
  match cache.get hotShortCode hotDomain with
  | none => kv
  | some url =>
    match promotionSkipReason url hotDomain systemDomain now with
    | some _ => kv
    | none => kv.put (cacheKey hotDomain hotShortCode) (promotedEntry render url) ttl now

/-- `build_og_entry` (`og_writethrough.py:38-46`). -/
def buildOgEntry (url : UrlCacheData) : String × EdgeCacheEntry :=
  (cacheKey url.domain url.linkAlias, .ogOnly (render url))

/-- `OgEdgeWritethrough.sync` (`og_writethrough.py:56-93`). -/
def ogSync (kv : EdgeKv) (systemDomain : String) (ogTtl : Int) (url : UrlCacheData)
    (now : Int) : EdgeKv :=
  if url.domain ≠ systemDomain then kv
  else if url.metaTitle.isSome ∧ url.urlStatus = .active then
    kv.put (buildOgEntry render url).1 (buildOgEntry render url).2 ogTtl now
  else kv.delete (cacheKey url.domain url.linkAlias)

end

/-- `OgEdgeWritethrough.remove` (`og_writethrough.py:95-103`). -/
def ogRemove (kv : EdgeKv) (systemDomain domain linkAlias : String) : EdgeKv :=
  if domain ≠ systemDomain then kv else kv.delete (cacheKey domain linkAlias)

end Spoo
