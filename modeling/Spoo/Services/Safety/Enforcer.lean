import Mathlib.Algebra.GroupWithZero.Nat
import Spoo.Lib.Interleave
import Spoo.Repositories.LegacyUrlRepository
import Spoo.Repositories.UrlRepository
import Spoo.Services.EdgeCache

/-!
# SafetyEnforcer (`services/safety/enforcer.py`)

A method of the enforcer is a sequence of repository and cache calls. It is given as the list
of these calls, in the order of the source, over the variables they fill, so that the same
definition runs the method alone or interleaved with others. `now` is the clock of the call.
-/

namespace Spoo

open Interleave

/-- A `DomainEvent`: its type, the owner it goes to, the link whose snapshot it carries and
the reason it names. -/
structure DomainEvent where
  type : String
  ownerId : ObjectId
  link : UrlV2Doc
  reason : String

/-- The stores a link lives in. -/
structure Stores where
  urls : UrlStore
  legacy : LegacyUrlStore
  emoji : LegacyUrlStore
  cache : UrlCache := .empty
  kv : EdgeKv := .empty
  events : List DomainEvent := []

/-- What a deployment fixes for the enforcer. `edgeEnabled` is `edge_kv is not None`. -/
structure EnforcerConfig where
  systemDefaultDomain : String
  edgeEnabled : Bool
  /-- `v2_lookup_code` (`shared/alias_dispatch.py`). -/
  v2LookupCode : String → String

/-- The local variables of the enforcer's methods. -/
structure EnforcerVars where
  triples : List (String × String × String) := []
  legacyRows : List (String × String) := []
  emojiRows : List (String × String) := []
  owned : List UrlV2Doc := []
  blocked : Nat := 0
  legacy : Nat := 0
  evicted : Nat := 0

/-- `EnforcementResult`. -/
structure EnforcementResult where
  host : String
  blockedCount : Nat
  legacyCount : Nat
  cacheInvalidated : Nat
  deriving DecidableEq, Repr

namespace SafetyEnforcer

abbrev Call := Action EnforcerVars Stores

variable (cfg : EnforcerConfig)

/-! ## Eviction and events -/

/-- `by_domain[domain].append(linkAlias)`. -/
def appendUnder (byDomain : PyDict String (List String)) (domain linkAlias : String) :
    PyDict String (List String) :=
  byDomain.assign domain ((byDomain.get? domain).getD [] ++ [linkAlias])

/-- The grouping `_evict` works on: an empty domain is the system one. -/
def byDomain (pairs : List (String × String)) (systemExtra : List String) :
    PyDict String (List String) :=
  let grouped := pairs.foldl (fun d pair =>
    appendUnder d (if pair.2 = "" then cfg.systemDefaultDomain else pair.2) pair.1)
    PyDict.empty
  systemExtra.foldl (fun d linkAlias => appendUnder d cfg.systemDefaultDomain linkAlias) grouped

/-- `_evict`: Redis per domain, then the edge for the system domain (`enforcer.py:225-249`). -/
def evict (pairs : List (String × String)) (systemExtra : List String) : Call := fun v s =>
  let groups := byDomain cfg pairs systemExtra
  let cache := groups.entries.foldl (fun c group => c.invalidateMany group.2 group.1) s.cache
  let systemAliases := (groups.get? cfg.systemDefaultDomain).getD []
  let kv := if cfg.edgeEnabled then
      s.kv.bulkDelete (systemAliases.map (cacheKey cfg.systemDefaultDomain))
    else s.kv
  ({ v with evicted := (groups.values.map List.length).sum }, { s with cache, kv })

/-- `_emit_blocked`: one event for each owned link (`enforcer.py:251-266`). -/
def emitBlocked (reason : String) : Call := fun v s =>
  let events := (v.owned.filter (·.ownerId ≠ anonymousOwnerId)).map fun doc =>
    { type := "link.blocked", ownerId := doc.ownerId, link := { doc with status := .blocked },
      reason := reason }
  (v, { s with events := s.events ++ events })

/-! ## block_host -/

/-- `url_repo.block_active_by_dest_host`, as a call of the enforcer. -/
def flipByDestHost (host reason : String) (now : Int) : Call := fun v s =>
  let r := UrlRepository.blockActiveByDestHost s.urls host reason now
  ({ v with blocked := r.2 }, { s with urls := r.1 })

/-- `url_repo.list_by_dest_host_with_urls`, as a call of the enforcer. -/
def collectTriples (host : String) : Call := fun v s =>
  ({ v with triples := UrlRepository.listByDestHostWithUrls s.urls host }, s)

/-- `legacy_repo.list_by_dest_host`, as a call of the enforcer. -/
def collectLegacy (host : String) : Call := fun v s =>
  ({ v with legacyRows := LegacyUrlRepository.listByDestHost s.legacy host }, s)

/-- `emoji_repo.list_by_dest_host`, as a call of the enforcer. -/
def collectEmoji (host : String) : Call := fun v s =>
  ({ v with emojiRows := LegacyUrlRepository.listByDestHost s.emoji host }, s)

/-- Evict everything the listings found. -/
def evictListed : Call := fun v s =>
  evict cfg (v.triples.map fun t => (t.1, t.2.1))
    (v.legacyRows.map Prod.fst ++ v.emojiRows.map fun e => cfg.v2LookupCode e.1) v s

/-- The calls of `block_host` (`enforcer.py:74-116`). -/
def blockHostCalls (host reason : String) (now : Int) : List Call := [
  collectTriples host,
  fun v s => ({ v with owned := UrlRepository.listActiveOwnedByDestHost s.urls host }, s),
  collectLegacy host,
  collectEmoji host,
  flipByDestHost host reason now,
  fun v s =>
    let r := LegacyUrlRepository.blockByDestHost s.legacy host reason now
    ({ v with legacy := r.2 }, { s with legacy := r.1 }),
  fun v s =>
    let r := LegacyUrlRepository.blockByDestHost s.emoji host reason now
    ({ v with legacy := v.legacy + r.2 }, { s with emoji := r.1 }),
  evictListed cfg,
  emitBlocked reason]

/-- What a method returns. -/
def result (host : String) (v : EnforcerVars) : EnforcementResult :=
  ⟨host, v.blocked, v.legacy, v.evicted⟩

/-- `block_host`. -/
def blockHost (host reason : String) (now : Int) (s : Stores) : Stores × EnforcementResult :=
  let r := runActions (blockHostCalls cfg host reason now) {} s
  (r.2, result host r.1)

/-! ## block_matching and block_aliases -/

/-- The v2 links `_select` picks: the matcher sees the long URL. -/
def hits (matcher : String → Bool) (v : EnforcerVars) : List (String × String) :=
  (v.triples.filter fun t => matcher t.2.2).map fun t => (t.1, t.2.1)

/-- The v1 or emoji links `_select` picks. -/
def legacyHits (matcher : String → Bool) (rows : List (String × String)) : List String :=
  (rows.filter fun row => matcher row.2).map Prod.fst

/-- `url_repo.list_active_owned_by_aliases` (`url_repository.py:668-692`), as a call. The
limit of a thousand documents runs over the chunks. -/
def collectOwnedByAliases (pairs : List (String × String)) : Call := fun v s =>
  let owned := (UrlRepository.aliasChunks pairs).flatMap fun chunk =>
    s.urls.find fun row => (UrlRepository.aliasesFilter chunk).Matches row &&
      decide (row.ownerId ≠ anonymousOwnerId)
  ({ v with owned := (owned.take 1000).map UrlV2Doc.fromMongo }, s)

/-- `url_repo.block_active_by_aliases`, as a call of the enforcer. -/
def flipByAliases (pairs : List (String × String)) (reason : String) (now : Int) : Call :=
  fun v s =>
    let r := UrlRepository.blockActiveByAliases s.urls pairs reason now
    ({ v with blocked := r.2 }, { s with urls := r.1 })

/-- The calls of `block_matching` (`enforcer.py:118-170`). -/
def blockMatchingCalls (host : String) (matcher : String → Bool) (reason : String)
    (now : Int) : List Call := [
  collectTriples host,
  collectLegacy host,
  collectEmoji host,
  fun v s => collectOwnedByAliases (hits matcher v) v s,
  fun v s => flipByAliases (hits matcher v) reason now v s,
  fun v s =>
    let r := LegacyUrlRepository.blockByIds s.legacy (legacyHits matcher v.legacyRows) reason
      now
    ({ v with legacy := r.2 }, { s with legacy := r.1 }),
  fun v s =>
    let r := LegacyUrlRepository.blockByIds s.emoji (legacyHits matcher v.emojiRows) reason now
    ({ v with legacy := v.legacy + r.2 }, { s with emoji := r.1 }),
  fun v s => evict cfg (hits matcher v) (legacyHits matcher v.legacyRows ++
    (legacyHits matcher v.emojiRows).map cfg.v2LookupCode) v s,
  emitBlocked reason]

/-- `block_matching`. -/
def blockMatching (host : String) (matcher : String → Bool) (reason : String) (now : Int)
    (s : Stores) : Stores × EnforcementResult :=
  let r := runActions (blockMatchingCalls cfg host matcher reason now) {} s
  (r.2, result host r.1)

/-- The calls of `block_aliases` (`enforcer.py:203-223`). -/
def blockAliasesCalls (pairs : List (String × String)) (reason : String) (now : Int) :
    List Call := [
  collectOwnedByAliases pairs,
  flipByAliases pairs reason now,
  evict cfg pairs [],
  emitBlocked reason]

/-- `block_aliases`. -/
def blockAliases (pairs : List (String × String)) (host reason : String) (now : Int)
    (s : Stores) : Stores × EnforcementResult :=
  let r := runActions (blockAliasesCalls cfg pairs reason now) {} s
  (r.2, result host r.1)

/-! ## unblock_host -/

/-- The calls of `unblock_host` (`enforcer.py:172-201`). -/
def unblockHostCalls (host : String) (now : Int) : List Call := [
  fun v s =>
    let r := UrlRepository.unblockByDestHost s.urls host now
    ({ v with blocked := r.2 }, { s with urls := r.1 }),
  collectLegacy host,
  collectEmoji host,
  fun v s =>
    let r := LegacyUrlRepository.unblockByDestHost s.legacy host now
    ({ v with legacy := r.2 }, { s with legacy := r.1 }),
  fun v s =>
    let r := LegacyUrlRepository.unblockByDestHost s.emoji host now
    ({ v with legacy := v.legacy + r.2 }, { s with emoji := r.1 }),
  collectTriples host,
  evictListed cfg]

/-- `unblock_host`. -/
def unblockHost (host : String) (now : Int) (s : Stores) : Stores × EnforcementResult :=
  let r := runActions (unblockHostCalls cfg host now) {} s
  (r.2, result host r.1)

/-! ## What the methods do to the links -/

variable (host reason : String) (now : Int) (s : Stores)

@[simp] theorem urls_blockHost : (blockHost cfg host reason now s).1.urls =
    (UrlRepository.blockActiveByDestHost s.urls host reason now).1 := rfl

/-- The `(alias, domain)` pairs `block_matching` blocks. -/
def matchingPairs (urls : UrlStore) (host : String) (matcher : String → Bool) :
    List (String × String) :=
  hits matcher { triples := UrlRepository.listByDestHostWithUrls urls host }

/-- The short codes `block_matching` blocks in a v1 or emoji collection. -/
def matchingCodes (store : LegacyUrlStore) (host : String) (matcher : String → Bool) :
    List String :=
  legacyHits matcher (LegacyUrlRepository.listByDestHost store host)

@[simp] theorem urls_blockMatching (matcher : String → Bool) :
    (blockMatching cfg host matcher reason now s).1.urls =
      (UrlRepository.blockActiveByAliases s.urls (matchingPairs s.urls host matcher) reason
        now).1 := rfl

end SafetyEnforcer

end Spoo
