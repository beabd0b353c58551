import Spoo.Services.Safety.Enforcer
import Spoo.Services.UrlService.Handlers

/-!
# UrlService: update, delete, claim and expiry (`services/url_service.py`)

An owner's method reads a document, decides on it in Python and writes it back by `_id`, then clears
the redirect cache and the edge. As with the enforcer, a method is the list of its calls on
the stores: the decision is part of the call that reads, the side effects are calls of their
own.
-/

namespace Spoo

open Interleave

/-- What a method raises: an `AppError`, or the driver's `DuplicateKeyError`. -/
inductive Raised where
  | app (e : AppError)
  | duplicateKey

/-! ## Deciding on an update -/

/-- `_check_start_before_expiry` (`url_service.py:354-366`). -/
def checkStartBeforeExpiry (startsAt expireAfter : Option Datetime) : Except AppError Unit :=
  match startsAt, expireAfter with
  | some s, some e =>
    if asAwareUtc e ≤ asAwareUtc s then
      validationError "starts_at must be before expire_after" "starts_at"
    else .ok ()
  | _, _ => .ok ()

/-- `update_ops.get("starts_at", existing.starts_at)` and its `expire_after` twin. -/
def mergedInstant (op : Option (Option Int)) (current : Option Datetime) : Option Datetime :=
  match op with
  | some value => value.map Datetime.aware
  | none => current

namespace UrlOps

/-- Some destination is in the operations. -/
def changesDestination (ops : UrlOps) : Bool :=
  ops.longUrl.isSome || ops.geoRules.isSome || ops.abVariants.isSome ||
    ops.preStartUrl.isSome || ops.expiredRedirectUrl.isSome

/-- The stamp of the link the operations lead to. -/
def stamp (lib : UrlLib) (existing : UrlV2Doc) (ops : UrlOps) : Option UrlDestination :=
  UrlDestination.forLink lib (ops.longUrl.getD existing.longUrl)
    (ops.geoRules.getD existing.geoRules)
    (variantUrls (ops.abVariants.getD existing.abVariants))
    (ops.preStartUrl.getD existing.preStartUrl)
    (ops.expiredRedirectUrl.getD existing.expiredRedirectUrl)

/-- Any destination change re-stamps `dest` (`url_service.py:1327-1349`). -/
def restamp (lib : UrlLib) (existing : UrlV2Doc) (ops : UrlOps) : UrlOps :=
  if ops.changesDestination then { ops with dest := some (ops.stamp lib existing) } else ops

/-- The writer's address goes onto freshly written meta-tags (`url_service.py:1351-1354`). -/
def stampMetaIp (clientIp : Option String) (ops : UrlOps) : UrlOps :=
  match ops.metaTags with
  | some (some tags) => { ops with metaTags := some (some { tags with updatedIp := clientIp }) }
  | _ => ops

/-- The requested change improves an expiry condition (`url_service.py:1514-1531`). -/
def improvesExpiry (existing : UrlV2Doc) (now : Int) (ops : UrlOps) : Bool :=
  (match ops.maxClicks with
    | some none => true
    | some (some maxClicks) => decide (existing.totalClicks < maxClicks)
    | none => false) ||
  match ops.expireAfter with
    | some none => true
    | some (some expireAfter) => decide (now < expireAfter)
    | none => false

/-- `_auto_reactivate` (`url_service.py:1500-1532`). -/
def autoReactivate (existing : UrlV2Doc) (now : Int) (ops : UrlOps) : UrlOps :=
  if existing.status = .expired ∧ ops.status = none ∧ ops.improvesExpiry existing now then
    { ops with status := some .active }
  else ops

/-- What `$set` and `$unset` of the operations leave in a document. -/
def toUpdate (ops : UrlOps) : Mongo.Update UrlRow where
  apply row := { row with
    longUrl := ops.longUrl.getD row.longUrl
    linkAlias := ops.linkAlias.getD row.linkAlias
    domain := ops.domain.getD row.domain
    password := ops.password.getD row.password
    maxClicks := ops.maxClicks.getD row.maxClicks
    expireAfter := (ops.expireAfter.map (·.map BsonDate.encode)).getD row.expireAfter
    startsAt := (ops.startsAt.map (·.map BsonDate.encode)).getD row.startsAt
    preStartUrl := ops.preStartUrl.getD row.preStartUrl
    blockBots := ops.blockBots.getD row.blockBots
    privateStats := ops.privateStats.getD row.privateStats
    status := ops.status.getD row.status
    geoRules := ops.geoRules.getD row.geoRules
    tagIds := ops.tagIds.getD row.tagIds
    abVariants := ops.abVariants.getD row.abVariants
    expiredRedirectUrl := ops.expiredRedirectUrl.getD row.expiredRedirectUrl
    metaTags := ops.metaTags.getD row.metaTags
    dest := ops.dest.getD row.dest
    updatedAt := (ops.updatedAt.map fun t => some (BsonDate.encode t)).getD row.updatedAt }
  id_apply _ := rfl

/-- The merged document a method goes on with instead of reading again. -/
def merge (existing : UrlV2Doc) (ops : UrlOps) : UrlV2Doc :=
  { existing with
    longUrl := ops.longUrl.getD existing.longUrl
    linkAlias := ops.linkAlias.getD existing.linkAlias
    domain := ops.domain.getD existing.domain
    password := ops.password.getD existing.password
    maxClicks := ops.maxClicks.getD existing.maxClicks
    expireAfter := mergedInstant ops.expireAfter existing.expireAfter
    startsAt := mergedInstant ops.startsAt existing.startsAt
    preStartUrl := ops.preStartUrl.getD existing.preStartUrl
    blockBots := ops.blockBots.getD existing.blockBots
    privateStats := ops.privateStats.getD existing.privateStats
    status := ops.status.getD existing.status
    geoRules := ops.geoRules.getD existing.geoRules
    tagIds := ops.tagIds.getD existing.tagIds
    abVariants := ops.abVariants.getD existing.abVariants
    expiredRedirectUrl := ops.expiredRedirectUrl.getD existing.expiredRedirectUrl
    metaTags := ops.metaTags.getD existing.metaTags }

end UrlOps

/-- The checks that open `update` and `delete` (`url_service.py:1312-1325`, `1543-1552`). -/
def loadOwned (found : Option UrlV2Doc) (ownerId : ObjectId) (blockedMessage : String) :
    Except AppError UrlV2Doc :=
  match found with
  | none => .error ⟨.notFound, "URL not found", none⟩
  | some existing =>
    if existing.ownerId ≠ ownerId then
      .error ⟨.forbidden, "Access denied: you do not own this URL", none⟩
    else if existing.status = .blocked then .error ⟨.forbidden, blockedMessage, none⟩
    else .ok existing

/-- The operations a request leads to on the document that was read
(`url_service.py:1321-1356`). -/
def buildOps (env : UpdateEnv) (now : Int) (request : UpdateUrlRequest)
    (clientIp : Option String) (existing : UrlV2Doc) : Except AppError UrlOps := do
  let ops ← fieldHandlers.foldlM (fun ops handler => handler env now request existing ops)
    ({} : UrlOps)
  if ops.startsAt.isSome ∨ ops.expireAfter.isSome then
    checkStartBeforeExpiry (mergedInstant ops.startsAt existing.startsAt)
      (mergedInstant ops.expireAfter existing.expireAfter)
  .ok (((ops.restamp env.lib existing).stampMetaIp clientIp).autoReactivate existing now)

/-! ## The methods -/

/-- The edge of a deployment: `og_writethrough` and `edge_kv` are wired together, both or
neither. -/
structure EdgeConfig where
  enabled : Bool
  systemDefaultDomain : String
  ogTtlSeconds : Int
  /-- `render_meta_preview`. -/
  render : UrlCacheData → String

/-- The local variables of an owner's method: the document it read with the operations it
decided on, while there is something to do, and what it returns or raises. -/
structure OwnerVars where
  pending : Option (UrlV2Doc × UrlOps) := none
  outcome : Option (Except Raised UrlV2Doc) := none

namespace UrlService

abbrev Call := Action OwnerVars Stores

/-- A call that runs while the method has something to do. -/
def onPending (f : UrlV2Doc → UrlOps → Stores → Stores) : Call := fun v s =>
  match v.pending with
  | some (existing, ops) => (v, f existing ops s)
  | none => (v, s)

/-- The operations are to be written, and the merged document returned. -/
def toWrite (existing : UrlV2Doc) (ops : UrlOps) : OwnerVars where
  pending := some (existing, ops)
  outcome := some (.ok (ops.merge existing))

/-- `find_by_id` and everything `update` decides before it writes. -/
def readForUpdate (env : UpdateEnv) (urlId : ObjectId) (request : UpdateUrlRequest)
    (ownerId : ObjectId) (clientIp : Option String) (now : Int) : Call := fun v s =>
  let decision := do
    let existing ← loadOwned (UrlRepository.findById s.urls urlId) ownerId
      "Cannot modify a blocked URL"
    let ops ← buildOps env now request clientIp existing
    .ok (existing, ops)
  match decision with
  | .error e => ({ v with outcome := some (.error (.app e)) }, s)
  | .ok (existing, ops) =>
    -- No changes detected: nothing is written.
    if ops = ({} : UrlOps) then ({ v with outcome := some (.ok existing) }, s)
    else (toWrite existing { ops with updatedAt := some now }, s)

/-- `url_repo.update`. -/
def writeUpdate (urlId : ObjectId) : Call := fun v s =>
  match v.pending with
  | some (_, ops) =>
    match UrlRepository.update s.urls urlId ops.toUpdate with
    | some urls => (v, { s with urls })
    | none => ({ pending := none, outcome := some (.error .duplicateKey) }, s)
  | none => (v, s)

/-- The key of the link changes. -/
def keyChanges (existing : UrlV2Doc) (ops : UrlOps) : Bool :=
  decide ((ops.linkAlias.getD existing.linkAlias, ops.domain.getD existing.domain) ≠
    (existing.linkAlias, existing.domain))

/-- The old key is cleared, and the new one when it differs (`url_service.py:1372-1381`). -/
def invalidateKeys : Call := onPending fun existing ops s =>
  let newAlias := ops.linkAlias.getD existing.linkAlias
  let newDomain := ops.domain.getD existing.domain
  let cache := s.cache.invalidate existing.linkAlias existing.domain
  if keyChanges existing ops then { s with cache := cache.invalidate newAlias newDomain }
  else { s with cache }

/-- `_purge_edge_key` (`url_service.py:1466-1486`). -/
def purgeEdgeKey (edge : EdgeConfig) (kv : EdgeKv) (domain linkAlias : String) : EdgeKv :=
  if !edge.enabled ∨ domain ≠ edge.systemDefaultDomain then kv
  else kv.delete (cacheKey domain linkAlias)

/-- The operations touch what an edge entry of a link with meta-tags depends on. -/
def ogRelevant (ops : UrlOps) : Bool :=
  ops.metaTags.isSome || ops.longUrl.isSome || ops.status.isSome || ops.linkAlias.isSome ||
    ops.domain.isSome || ops.startsAt.isSome

/-- What `update` does to the edge (`url_service.py:1396-1427`). -/
def updateEdge (edge : EdgeConfig) (existing : UrlV2Doc) (ops : UrlOps) (now : Int)
    (kv : EdgeKv) : EdgeKv :=
  let merged := ops.merge existing
  let isOg := existing.metaTags.isSome || merged.metaTags.isSome
  if edge.enabled && isOg then
    if ogRelevant ops then
      let kv := if keyChanges existing ops then
          ogRemove kv edge.systemDefaultDomain existing.domain existing.linkAlias
        else kv
      ogSync edge.render kv edge.systemDefaultDomain edge.ogTtlSeconds
        (UrlCacheData.fromV2Doc merged) now
    else kv
  else if !isOg && (decide (ops.status = some .inactive) || ops.startsAt.isSome ||
      keyChanges existing ops) then
    purgeEdgeKey edge kv existing.domain existing.linkAlias
  else kv

/-- The edge call of `update`. -/
def reconcileEdge (edge : EdgeConfig) (now : Int) : Call := onPending fun existing ops s =>
  { s with kv := updateEdge edge existing ops now s.kv }

/-- The calls of `update` (`url_service.py:1285-1443`). -/
def updateCalls (env : UpdateEnv) (edge : EdgeConfig) (urlId : ObjectId)
    (request : UpdateUrlRequest) (ownerId : ObjectId) (clientIp : Option String) (now : Int) :
    List Call := [
  readForUpdate env urlId request ownerId clientIp now,
  writeUpdate urlId,
  invalidateKeys,
  reconcileEdge edge now]

/-- `update`: what it returns or raises, and the stores it leaves. -/
def update (env : UpdateEnv) (edge : EdgeConfig) (urlId : ObjectId)
    (request : UpdateUrlRequest) (ownerId : ObjectId) (clientIp : Option String) (now : Int)
    (s : Stores) : Option (Except Raised UrlV2Doc) × Stores :=
  let r := runActions (updateCalls env edge urlId request ownerId clientIp now) {} s
  (r.1.outcome, r.2)

/-- `find_by_id` and the checks of `delete`. -/
def readForDelete (urlId ownerId : ObjectId) : Call := fun v s =>
  match loadOwned (UrlRepository.findById s.urls urlId) ownerId "Cannot delete a blocked URL" with
  | .error e => ({ v with outcome := some (.error (.app e)) }, s)
  | .ok existing => ({ pending := some (existing, {}), outcome := some (.ok existing) }, s)

/-- `url_repo.delete`. -/
def writeDelete (urlId : ObjectId) : Call := onPending fun _ _ s =>
  { s with urls := UrlRepository.delete s.urls urlId }

/-- What `delete` does to the edge (`url_service.py:1556-1559`). -/
def dropEdge (edge : EdgeConfig) : Call := onPending fun existing _ s =>
  if existing.metaTags.isSome && edge.enabled then
    { s with kv := ogRemove s.kv edge.systemDefaultDomain existing.domain existing.linkAlias }
  else { s with kv := purgeEdgeKey edge s.kv existing.domain existing.linkAlias }

/-- The calls of `delete` (`url_service.py:1534-1569`). -/
def deleteCalls (edge : EdgeConfig) (urlId ownerId : ObjectId) : List Call := [
  readForDelete urlId ownerId,
  writeDelete urlId,
  invalidateKeys,
  dropEdge edge]

/-- `delete`. -/
def delete (edge : EdgeConfig) (urlId ownerId : ObjectId) (s : Stores) :
    Option (Except Raised UrlV2Doc) × Stores :=
  let r := runActions (deleteCalls edge urlId ownerId) {} s
  (r.1.outcome, r.2)

/-! ## Claims -/

/-- `ClaimResult.status`. -/
inductive ClaimStatus where
  | claimed
  | alreadyYours
  | invalid
  deriving DecidableEq, Repr

/-- One item of a claim batch; `hashToken` is `hash_token` (`url_service.py:1237-1281`). -/
def claimItem (hashToken : String → String) (ownerId : ObjectId) (now : Int)
    (item : ObjectId × String) (s : Stores) : ClaimStatus × Stores :=
  match UrlRepository.findById s.urls item.1 with
  | none => (.invalid, s)
  | some existing =>
    if existing.ownerId = ownerId then (.alreadyYours, s)
    else if existing.ownerId ≠ anonymousOwnerId ∨ existing.claimTokenHash.getD "" = "" then
      (.invalid, s)
    else if existing.claimTokenHash ≠ some (hashToken item.2) then (.invalid, s)
    else
      let r := UrlRepository.claimByTokenHash s.urls item.1 (hashToken item.2) ownerId now
      if r.2 then
        (.claimed, { s with
          urls := r.1
          cache := s.cache.invalidate existing.linkAlias existing.domain })
      else (.invalid, s)

/-- `CLAIM_LIMIT_PER_ACCOUNT`. -/
def claimLimitPerAccount : Nat := 500

/-- `claim`: the items of a batch one after the other, under the ceiling of the account
(`url_service.py:1199-1283`). -/
def claim (hashToken : String → String) (ownerId : ObjectId) (now : Int)
    (claims : List (ObjectId × String)) (s : Stores) :
    Except AppError (List ClaimStatus) × Stores :=
  let alreadyClaimed :=
    s.urls.docs.countP fun row => row.ownerId = ownerId && row.claimedAt.isSome
  if claimLimitPerAccount < alreadyClaimed + claims.length then
    (.error ⟨.forbidden, "Claim limit reached: an account can claim up to " ++
      toString claimLimitPerAccount ++ " links", none⟩, s)
  else
    let r := claims.foldl (fun acc item =>
      let r := claimItem hashToken ownerId now item acc.2
      (acc.1 ++ [r.1], r.2)) (([], s) : List ClaimStatus × Stores)
    (.ok r.1, r.2)

/-! ## Expiry found by a redirect -/

/-- `build_link_expired`, for links that have an owner (`webhooks/payloads.py:142-153`). -/
def buildLinkExpired (doc : UrlV2Doc) (reason : String) : Option DomainEvent :=
  if doc.ownerId = anonymousOwnerId then none
  else some { type := "link.expired", ownerId := doc.ownerId, link := doc, reason }

/-- The `link.expired` event of the link, if it is still there. -/
def emitExpired (urlId : ObjectId) (reason : String) (s : Stores) : Stores :=
  let event := (UrlRepository.findById s.urls urlId).bind (buildLinkExpired · reason)
  { s with events := s.events ++ event.toList }

/-- What a redirect of an expired link raises. -/
inductive ResolveError where
  | expiredRedirect (url : String)
  | gone (message : String)
  deriving DecidableEq, Repr

/-- What `_raise_if_time_expired` raises. -/
def timeError (data : UrlCacheData) : ResolveError :=
  match data.expiredRedirectUrl with
  | some url =>
    if url = "" then .gone "URL has expired (expiration time reached)" else .expiredRedirect url
  | none => .gone "URL has expired (expiration time reached)"

/-- `_raise_if_time_expired`: a v2 link that is ACTIVE in the cache is flipped
(`url_service.py:744-783`). -/
def raiseIfTimeExpired (data : UrlCacheData) (shortCode : String) (now : Int) (s : Stores) :
    Except ResolveError Unit × Stores :=
  if !data.isTimeExpired now then (.ok (), s)
  else
    let error := timeError data
    match data.objectId with
    | some urlId =>
      if data.schemaVersion = "v2" ∧ data.urlStatus = .active then
        let r := UrlRepository.expireIfTimeReached s.urls urlId now
        let flipped :=
          { s with urls := r.1, cache := s.cache.invalidate shortCode data.domain }
        (.error error, if r.2 then emitExpired urlId "time_expired" flipped
          else { s with urls := r.1 })
      else (.error error, s)
    | none => (.error error, s)

end UrlService

end Spoo
