import Spoo.Lib.Agents
import Spoo.Repositories.CustomDomainRepository

/-!
# The tenant of a host (`services/tenant_resolver/cached_mongo.py`)

A read-through cache in Redis over the custom domains. `resolve` asks the cache, asks the collection,
looks for a tombstone and writes the cache, each in a move of its own. A change of a domain
(`custom_domain_service.py`) is written first, and then deletes the entry of its host and leaves a
tombstone, which is one transaction. Redis and the collection answer.
-/

namespace Spoo

open Agents

/-- `TenantInfo` (`protocol.py`), with all of its fields. -/
structure CachedMongo.TenantInfo where
  domainId : Option ObjectId
  fqdn : String
  ownerId : Option ObjectId
  status : DomainStatus
  isSystemDefault : Bool
  rootRedirect : Option String := none
  notFoundRedirect : Option String := none
  customRobotsTxt : Option String := none
  deriving DecidableEq, Repr

/-- How the resolver is set up. -/
structure ResolverConfig where
  lib : UrlLib
  systemDefaultDomain : String
  positiveTtlSeconds : Nat := 60
  negativeTtlSeconds : Nat := 300
  tombstoneTtlSeconds : Nat := 5

/-- A value in Redis and when it expires. The value of a host is its tenant, and no tenant for
`_NEG_SENTINEL`. -/
structure CachedTenant where
  tenant : Option CachedMongo.TenantInfo
  expiresAt : Int
  deriving DecidableEq, Repr

/-- What a change of a domain writes. -/
inductive DomainChange where
  | status (newStatus : DomainStatus) (error : Option String) (bumpLastVerifiedAt : Bool)
  | routing (ops : CustomDomainRepository.RoutingOps)
  deriving DecidableEq, Repr

/-- How a call ends. -/
inductive TenantOutcome where
  | resolved (tenant : Option CachedMongo.TenantInfo)
  | changed
  | refused
  deriving DecidableEq, Repr

/-- Where a call stands, with what it has read. -/
inductive TenantPhase where
  | idle (last : Option TenantOutcome)
  | getting (host : String)
  | reading (host : String)
  | checking (host : String) (tenant : Option CachedMongo.TenantInfo)
  | caching (host : String) (tenant : Option CachedMongo.TenantInfo)
  | loading (domainId : ObjectId) (change : DomainChange)
  | changing (doc : CustomDomainDoc) (change : DomainChange)
  | evicting (doc : CustomDomainDoc) (newStatus : DomainStatus)
  | invalidating (fqdn : String)
  deriving DecidableEq, Repr

/-- What comes with a move. -/
inductive TenantChoice where
  | go
  | resolve (host : String)
  | change (domainId : ObjectId) (change : DomainChange)
  deriving DecidableEq, Repr

/-- The time since the last move of anyone, what comes with this one, and whether the edge answers that
it has dropped the domain. -/
structure TenantAnswer where
  delay : Nat
  choice : TenantChoice
  edgeEvicted : Bool := true
  deriving DecidableEq, Repr

/-- The collection, the keys `tenant:` and `tenant_tomb:` of each host, and the clock. -/
structure TenantWorld where
  domains : DomainStore
  tenants : String → Option CachedTenant
  tombs : String → Option Int
  clock : Int

/-- The clock goes on. -/
def TenantWorld.wait (s : TenantWorld) (delay : Nat) : TenantWorld := { s with clock := s.clock + delay }

namespace CachedMongo

open CustomDomainRepository

variable (cfg : ResolverConfig)

/-- `self._system_default_domain`. -/
def systemDefault : String := rstripDots (cfg.lib.lower cfg.systemDefaultDomain)

/-- `_normalise_host`. -/
def normaliseHost (host : String) : String :=
  if host = "" then ""
  else match cfg.lib.urlsplit ("//" ++ pyStrip host) with
    | some (_, some parsedHost) => rstripDots parsedHost
    | _ => ""

/-- `is_system_default_host` (`url_utils.py:244-253`). -/
def isSystemDefaultHost (host : String) : Bool :=
  host = systemDefault cfg || host = "www." ++ systemDefault cfg

/-- The tenant of the default domain. -/
def defaultTenant : TenantInfo where
  domainId := none
  fqdn := systemDefault cfg
  ownerId := none
  status := .active
  isSystemDefault := true

/-- The tenant that a document stands for. -/
def tenantInfo (doc : CustomDomainDoc) : TenantInfo where
  domainId := some doc.id
  fqdn := doc.fqdn
  ownerId := if doc.ownerId = anonymousOwnerId then none else some doc.ownerId
  status := doc.status
  isSystemDefault := doc.isSystemDefault
  rootRedirect := doc.rootRedirect
  notFoundRedirect := doc.notFoundRedirect
  customRobotsTxt := doc.customRobotsTxt

/-- What the collection has for a host. -/
def readTenant (domains : DomainStore) (host : String) : Option TenantInfo :=
  (findActiveByFqdn domains (canonical cfg.lib host)).map tenantInfo

/-- `_cache_get`: `none` is `_CACHE_MISS`. -/
def cacheGet (s : TenantWorld) (host : String) : Option (Option TenantInfo) :=
  ((s.tenants host).filter (s.clock < ·.expiresAt)).map (·.tenant)

/-- `_is_tombstoned`. -/
def isTombstoned (s : TenantWorld) (host : String) : Bool := (s.tombs host).any (s.clock < ·)

/-- The write of `_cache_set` and of `_cache_set_negative`. -/
def cacheSet (s : TenantWorld) (host : String) (tenant : Option TenantInfo) : TenantWorld :=
  let ttlSeconds := if tenant.isSome then cfg.positiveTtlSeconds else cfg.negativeTtlSeconds
  { s with tenants := Function.update s.tenants host (some ⟨tenant, s.clock + ttlSeconds * 1000⟩) }

/-- `invalidate`. -/
def invalidate (s : TenantWorld) (host : String) : TenantWorld :=
  let normalised := normaliseHost cfg host
  if normalised = "" ∨ normalised = systemDefault cfg then s
  else { s with
    tenants := Function.update s.tenants normalised none
    tombs := Function.update s.tombs normalised (some (s.clock + cfg.tombstoneTtlSeconds * 1000)) }

/-- `resolve`, up to the cache. -/
def resolve (host : String) : TenantPhase :=
  let normalised := normaliseHost cfg host
  if normalised = "" then .idle (some (.resolved none))
  else if isSystemDefaultHost cfg normalised then .idle (some (.resolved (some (defaultTenant cfg))))
  else .getting normalised

/-- What a change does with the document that it has loaded: `_transition`, and the checks of
`update_routing`. -/
def startChange (change : DomainChange) (doc : CustomDomainDoc) : TenantPhase :=
  match change with
  | .status newStatus _ _ =>
    if doc.status = newStatus ∨ newStatus ∈ legalTransitions doc.status then .changing doc change
    else .idle (some .refused)
  | .routing ops =>
    if doc.status ≠ .active then .idle (some .refused)
    else if ops = {} then .idle (some .changed)
    else .changing doc change

/-- One move of a call. -/
def move (answer : TenantAnswer) (phase : TenantPhase) (s : TenantWorld) : TenantPhase × TenantWorld :=
  match phase with
  | .idle last =>
    match answer.choice with
    | .go => (.idle last, s)
    | .resolve host => (resolve cfg host, s)
    | .change domainId change => (.loading domainId change, s)
  | .getting host =>
    match cacheGet s host with
    | some tenant => (.idle (some (.resolved tenant)), s)
    | none => (.reading host, s)
  | .reading host => (.checking host (readTenant cfg s.domains host), s)
  | .checking host tenant =>
    if isTombstoned s host then (.idle (some (.resolved tenant)), s) else (.caching host tenant, s)
  | .caching host tenant => (.idle (some (.resolved tenant)), cacheSet cfg s host tenant)
  | .loading domainId change =>
    match findById s.domains domainId with
    | none => (.idle (some .refused), s)
    | some doc => (startChange change doc, s)
  | .changing doc (.status newStatus error bumpLastVerifiedAt) =>
    match updateStatus s.domains doc.id newStatus error bumpLastVerifiedAt s.clock with
    | none => (.idle (some .refused), s)
    | some domains =>
      (if newStatus = .revoked ∨ newStatus = .suspended then .evicting doc newStatus
        else .invalidating doc.fqdn, { s with domains })
  | .changing doc (.routing ops) =>
    let (updated, domains) := updateRouting s.domains doc.id ops s.clock
    (if updated then .invalidating doc.fqdn else .idle (some .refused), { s with domains })
  | .evicting doc newStatus =>
    -- `_announce_eviction`.
    let kind := if newStatus = .revoked then "revoked" else "suspended"
    let error := if answer.edgeEvicted then none else some s!"caddy {kind} eviction failed"
    (.invalidating doc.fqdn, { s with
      domains := setEvictionPending s.domains doc.id (!answer.edgeEvicted) error s.clock })
  | .invalidating fqdn => (.idle (some .changed), invalidate cfg s fqdn)

end CachedMongo

/-- One move of a call. -/
def TenantPhase.move {ι : Type} (cfg : ResolverConfig) : Move ι TenantAnswer TenantPhase TenantWorld :=
  fun _ answer phase s => CachedMongo.move cfg answer phase (s.wait answer.delay)

end Spoo
