import Spoo.Lib.PyList
import Spoo.Schemas.Url

/-!
# The `urlsV2` repository (`repositories/url_repository.py`)

Every filter is the dictionary literal of the source, key by key, and every write is the
update it carries. `now` is the value of `datetime.now(timezone.utc)` inside a call.
-/

namespace Spoo

open Mongo

/-- The field paths the repository filters on. -/
inductive UrlField where
  | id
  | linkAlias
  | domain
  | ownerId
  | status
  | destHost
  | destSecondaryHosts
  | blockedReason
  | blockedHosts
  | claimTokenHash
  | totalClicks
  | expireAfter
  | tagIds
  | metaImage
  deriving DecidableEq

abbrev UrlQuery := Query UrlField UrlRow

/-- The `urlsV2` collection. -/
abbrev UrlStore := Collection UrlRow

namespace UrlRepository

/-! ## Filter clauses -/

/-- `"status": status`. -/
def statusIs (status : UrlStatus) : Key UrlField × (UrlRow → Bool) :=
  Query.field .status fun row => row.status = status

/-- `"_id": urlId`. -/
def idIs (urlId : ObjectId) : Key UrlField × (UrlRow → Bool) :=
  Query.field .id fun row => row.id = urlId

/-- `"_id": {"$in": urlIds}`. -/
def idIn (urlIds : List ObjectId) : Key UrlField × (UrlRow → Bool) :=
  Query.field .id fun row => row.id ∈ urlIds

/-- `"owner_id": ownerId`. -/
def ownerIs (ownerId : ObjectId) : Key UrlField × (UrlRow → Bool) :=
  Query.field .ownerId fun row => row.ownerId = ownerId

/-- `"dest.host": host`. -/
def destHostIs (host : String) : Key UrlField × (UrlRow → Bool) :=
  Query.field .destHost fun row => row.dest.any (·.host = host)

/-- `"dest.secondary_hosts": host`. -/
def destSecondaryHostsHas (host : String) : Key UrlField × (UrlRow → Bool) :=
  Query.field .destSecondaryHosts fun row => row.dest.any (host ∈ ·.secondaryHosts)

/-- `"blocked_reason": {"$exists": True}`. -/
def blockedReasonExists : Key UrlField × (UrlRow → Bool) :=
  Query.field .blockedReason fun row => row.blockedReason.isPresent

/-- `"blocked_hosts": {"$exists": False}`. -/
def blockedHostsMissing : Key UrlField × (UrlRow → Bool) :=
  Query.field .blockedHosts fun row => !row.blockedHosts.isPresent

/-- `dest_host_filter` (`url_repository.py:26-31`). -/
def destHostFilter (host : String) : UrlQuery :=
  PyDict.ofList [
    Query.or [PyDict.ofList [destHostIs host], PyDict.ofList [destSecondaryHostsHas host]]]

theorem matches_destHostFilter (host : String) (row : UrlRow) :
    (destHostFilter host).Matches row = decide (host ∈ row.hosts) := by
  cases hdest : row.dest with
  | none =>
    simp [destHostFilter, Query.Matches, Query.or, Query.field, PyDict.ofList,
      PyDict.assignEntry, destHostIs, destSecondaryHostsHas, UrlRow.hosts, hdest]
  | some dest =>
    simp [destHostFilter, Query.Matches, Query.or, Query.field, PyDict.ofList,
      PyDict.assignEntry, destHostIs, destSecondaryHostsHas, UrlRow.hosts, hdest,
      UrlDestination.hosts, eq_comm]

/-! ## Reads and owner writes -/

/-- `{"_id": urlId}`. -/
def idFilter (urlId : ObjectId) : UrlQuery := PyDict.ofList [idIs urlId]

/-- `find_by_id` (`url_repository.py:119-121`). -/
def findById (store : UrlStore) (urlId : ObjectId) : Option UrlV2Doc :=
  (store.findOne (idFilter urlId).Matches).map UrlV2Doc.fromMongo

/-- `{"alias": linkAlias, "domain": domain}`. -/
def aliasClause (pair : String × String) : UrlQuery :=
  PyDict.ofList [
    Query.field .linkAlias fun row => row.linkAlias = pair.1,
    Query.field .domain fun row => row.domain = pair.2]

/-- `find_by_alias` (`url_repository.py:110-112`). -/
def findByAlias (store : UrlStore) (linkAlias domain : String) : Option UrlV2Doc :=
  (store.findOne (aliasClause (linkAlias, domain)).Matches).map UrlV2Doc.fromMongo

/-- `check_alias_exists` (`url_repository.py:538-541`). -/
def checkAliasExists (store : UrlStore) (linkAlias domain : String) : Bool :=
  (store.findOne (aliasClause (linkAlias, domain)).Matches).isSome

/-- `insert`: `none` is a `DuplicateKeyError` (`url_repository.py:123-150`). -/
protected def insert (store : UrlStore) (row : UrlRow) : Option UrlStore := store.insertOne row

/-- `update`: `none` is a `DuplicateKeyError` (`url_repository.py:152-157`). -/
def update (store : UrlStore) (urlId : ObjectId) (updateOps : Update UrlRow) :
    Option UrlStore :=
  store.updateManyUnique (idFilter urlId).Matches updateOps

/-- `delete` (`url_repository.py:159-161`). -/
def delete (store : UrlStore) (urlId : ObjectId) : UrlStore :=
  store.deleteMany (idFilter urlId).Matches

/-- The filter of `claim_by_token_hash`. -/
def claimFilter (urlId : ObjectId) (tokenHash : String) : UrlQuery :=
  PyDict.ofList [
    idIs urlId,
    Query.field .claimTokenHash fun row => row.claimTokenHash = some tokenHash,
    ownerIs anonymousOwnerId]

/-- The update of `claim_by_token_hash`. -/
def transferTo (newOwnerId : ObjectId) (claimedAt : Int) : KeyedUpdate UrlRow where
  apply row := { row with
    ownerId := newOwnerId
    claimedAt := some (.encode claimedAt)
    updatedAt := some (.encode claimedAt)
    claimTokenHash := none }
  id_apply _ := rfl
  key_apply _ := rfl

/-- `claim_by_token_hash` (`url_repository.py:163-190`). -/
def claimByTokenHash (store : UrlStore) (urlId : ObjectId) (tokenHash : String)
    (newOwnerId : ObjectId) (claimedAt : Int) : UrlStore × Bool :=
  let filter := (claimFilter urlId tokenHash).Matches
  (store.updateMany filter (transferTo newOwnerId claimedAt), (store.findOne filter).isSome)

/-- The filter of the bulk operations. -/
def idsAndOwnerFilter (urlIds : List ObjectId) (ownerId : ObjectId) : UrlQuery :=
  PyDict.ofList [idIn urlIds, ownerIs ownerId]

/-- `find_by_ids_and_owner` (`url_repository.py:379-401`). -/
def findByIdsAndOwner (store : UrlStore) (urlIds : List ObjectId) (ownerId : ObjectId) :
    List UrlV2Doc :=
  (store.find (idsAndOwnerFilter urlIds ownerId).Matches).map UrlV2Doc.fromMongo

/-- `delete_by_ids_and_owner` (`url_repository.py:403-428`). -/
def deleteByIdsAndOwner (store : UrlStore) (urlIds : List ObjectId) (ownerId : ObjectId) :
    UrlStore :=
  store.deleteMany (idsAndOwnerFilter urlIds ownerId).Matches

/-- `update_by_ids_and_owner` and `apply_by_ids_and_owner`: `none` is a `DuplicateKeyError`
(`url_repository.py:430-487`). -/
def updateByIdsAndOwner (store : UrlStore) (urlIds : List ObjectId) (ownerId : ObjectId)
    (setOps : Update UrlRow) : Option UrlStore :=
  store.updateManyUnique (idsAndOwnerFilter urlIds ownerId).Matches setOps

/-! ## Safety enforcement -/

/-- `list_by_dest_host_with_urls` (`url_repository.py:547-564`). -/
def listByDestHostWithUrls (store : UrlStore) (host : String) (limit : Nat := 50000) :
    List (String × String × String) :=
  ((store.find (destHostFilter host).Matches).take limit).map fun row =>
    (row.linkAlias, row.domain, row.longUrl)

/-- The filter of the first update of `unblock_by_dest_host`. -/
def pullFilter (host : String) : UrlQuery :=
  PyDict.ofList [
    Query.field .blockedHosts fun row => row.blockedHosts.has host,
    statusIs .blocked]

/-- The first update of `unblock_by_dest_host`. -/
def pullHost (host : String) : KeyedUpdate UrlRow where
  apply row := { row with blockedHosts := row.blockedHosts.pull host }
  id_apply _ := rfl
  key_apply _ := rfl

/-- `{**dest_host_filter(host), "blocked_hosts": []}`. -/
def noCauseLeft (host : String) : UrlQuery :=
  (destHostFilter host).extend [Query.field .blockedHosts fun row => row.blockedHosts.is []]

/-- `{"blocked_hosts": {"$exists": False}, "dest.host": host}`. -/
def blockedBeforeCauses (host : String) : UrlQuery :=
  PyDict.ofList [blockedHostsMissing, destHostIs host]

/-- The filter of the second update of `unblock_by_dest_host`. -/
def releaseFilter (host : String) : UrlQuery :=
  PyDict.ofList [
    Query.or [noCauseLeft host, blockedBeforeCauses host],
    statusIs .blocked,
    blockedReasonExists]

/-- The second update of `unblock_by_dest_host`. -/
def release (now : Int) : KeyedUpdate UrlRow where
  apply row := { row with
    status := .active
    unblockedAt := some (.encode now)
    updatedAt := some (.encode now) }
  id_apply _ := rfl
  key_apply _ := rfl

/-- `unblock_by_dest_host`: the host is removed as a cause, then the links that have no cause
left are reactivated (`url_repository.py:566-596`). -/
def unblockByDestHost (store : UrlStore) (host : String) (now : Int) : UrlStore × Nat :=
  let pulled := store.updateMany (pullFilter host).Matches (pullHost host)
  (pulled.updateMany (releaseFilter host).Matches (release now),
    pulled.modifiedCount (releaseFilter host).Matches (release now).toUpdate)

/-- The filter of `list_active_owned_by_dest_host`. -/
def activeOwnedFilter (host : String) : UrlQuery :=
  (destHostFilter host).extend [
    statusIs .active,
    Query.field .ownerId fun row => row.ownerId ≠ anonymousOwnerId]

/-- `list_active_owned_by_dest_host` (`url_repository.py:598-614`). -/
def listActiveOwnedByDestHost (store : UrlStore) (host : String) (limit : Nat := 1000) :
    List UrlV2Doc :=
  ((store.find (activeOwnedFilter host).Matches).take limit).map UrlV2Doc.fromMongo

/-- The `$set` a safety block writes, with the causes it records. -/
def blockWith (reason : String) (blockedHosts : DocField (List String)) (now : Int) :
    KeyedUpdate UrlRow where
  apply row := { row with
    status := .blocked
    updatedAt := some (.encode now)
    blockedAt := some (.encode now)
    blockedReason := .value reason
    blockedHosts := blockedHosts }
  id_apply _ := rfl
  key_apply _ := rfl

/-- `_alias_chunks`: `_ALIAS_CHUNK` clauses a query (`url_repository.py:79-88`). -/
def aliasChunks (pairs : List (String × String)) : List (List UrlQuery) :=
  PyList.chunks 1000 (pairs.map aliasClause)

/-- The filter of one chunk of `block_active_by_aliases`. -/
def aliasesFilter (chunk : List UrlQuery) : UrlQuery :=
  PyDict.ofList [Query.or chunk, statusIs .active]

/-- One round of the loop of `block_active_by_aliases`. -/
def blockChunk (reason : String) (now : Int) (acc : UrlStore × Nat) (chunk : List UrlQuery) :
    UrlStore × Nat :=
  let block := blockWith reason .null now
  (acc.1.updateMany (aliasesFilter chunk).Matches block,
    acc.2 + acc.1.modifiedCount (aliasesFilter chunk).Matches block.toUpdate)

/-- `block_active_by_aliases`: per-link causes are null (`url_repository.py:694-723`). -/
def blockActiveByAliases (store : UrlStore) (pairs : List (String × String))
    (reason : String) (now : Int) : UrlStore × Nat :=
  (aliasChunks pairs).foldl (blockChunk reason now) (store, 0)

/-- The filter of the first update of `block_active_by_dest_host`. -/
def blockFilter (host : String) : UrlQuery := (destHostFilter host).extend [statusIs .active]

/-- The filter of the second update of `block_active_by_dest_host`. Both the host filter and
the literal have a key `"$or"`. -/
def addCauseFilter (host : String) : UrlQuery :=
  (destHostFilter host).extend [
    statusIs .blocked,
    blockedReasonExists,
    Query.or [
      PyDict.ofList [Query.field .blockedHosts fun row => row.blockedHosts.isArray],
      PyDict.ofList [blockedHostsMissing]]]

/-- `{"$ifNull": ["$blocked_hosts", [dest.host] or []]}`. -/
def causesBefore (row : UrlRow) : List String :=
  match row.blockedHosts with
  | .value hosts => hosts
  | _ => (row.dest.map (·.host)).toList

/-- The second update of `block_active_by_dest_host`. -/
def addCause (host : String) : KeyedUpdate UrlRow where
  apply row := { row with blockedHosts := .value (setUnion (causesBefore row) [host]) }
  id_apply _ := rfl
  key_apply _ := rfl

/-- `block_active_by_dest_host` (`url_repository.py:837-896`). -/
def blockActiveByDestHost (store : UrlStore) (host reason : String) (now : Int) :
    UrlStore × Nat :=
  let block := blockWith reason (.value [host]) now
  ((store.updateMany (blockFilter host).Matches block).updateMany
      (addCauseFilter host).Matches (addCause host),
    store.modifiedCount (blockFilter host).Matches block.toUpdate)

/-! ## Clicks and expiry -/

/-- `{"$inc": {"total_clicks": 1}, "$max": {"last_click": …}}`. -/
def countClick (lastClickTime : Int) : KeyedUpdate UrlRow where
  apply row :=
    let ms := (BsonDate.encode lastClickTime).ms
    { row with
      totalClicks := row.totalClicks + 1
      lastClick := some ⟨row.lastClick.elim ms fun d => max d.ms ms⟩ }
  id_apply _ := rfl
  key_apply _ := rfl

/-- `increment_clicks` (`url_repository.py:898-913`). -/
def incrementClicks (store : UrlStore) (urlId : ObjectId) (lastClickTime : Int) : UrlStore :=
  store.updateMany (idFilter urlId).Matches (countClick lastClickTime)

/-- The filter of `expire_if_max_clicks`. -/
def maxClicksFilter (urlId : ObjectId) (maxClicks : Int) : UrlQuery :=
  PyDict.ofList [
    idIs urlId,
    Query.field .totalClicks fun row => maxClicks ≤ row.totalClicks]

/-- The filter of `expire_if_time_reached`. `$lte` never matches a missing date. -/
def timeReachedFilter (urlId : ObjectId) (now : Int) : UrlQuery :=
  PyDict.ofList [
    idIs urlId,
    statusIs .active,
    Query.field .expireAfter fun row =>
      row.expireAfter.any fun d : BsonDate => d.ms ≤ (BsonDate.encode now).ms]

/-- `{"$set": {"status": EXPIRED}}`. -/
def setExpired : KeyedUpdate UrlRow where
  apply row := { row with status := .expired }
  id_apply _ := rfl
  key_apply _ := rfl

/-- `expire_if_max_clicks` (`url_repository.py:915-926`). -/
def expireIfMaxClicks (store : UrlStore) (urlId : ObjectId) (maxClicks : Int) :
    UrlStore × Bool :=
  (store.updateMany (maxClicksFilter urlId maxClicks).Matches setExpired,
    0 < store.modifiedCount (maxClicksFilter urlId maxClicks).Matches setExpired.toUpdate)

/-- `expire_if_time_reached` (`url_repository.py:928-944`). -/
def expireIfTimeReached (store : UrlStore) (urlId : ObjectId) (now : Int) :
    UrlStore × Bool :=
  (store.updateMany (timeReachedFilter urlId now).Matches setExpired,
    0 < store.modifiedCount (timeReachedFilter urlId now).Matches setExpired.toUpdate)

/-! ## Image validation -/

/-- The filter of the writes below, `{"_id": urlId, "meta_tags.image": imageUrl}`. -/
def metaImageFilter (urlId : ObjectId) (imageUrl : String) : UrlQuery :=
  PyDict.ofList [
    idIs urlId,
    Query.field .metaImage fun row => row.metaTags.bind (·.image) = some imageUrl]

/-- `{"$set": {"meta_tags.image_meta": imageMeta}}`. -/
def setImageMeta (imageMeta : MetaImageMeta) : KeyedUpdate UrlRow where
  apply row :=
    { row with metaTags := row.metaTags.map fun tags => { tags with imageMeta := some imageMeta } }
  id_apply _ := rfl
  key_apply _ := rfl

/-- `record_meta_image_validation` (`url_repository.py:227-238`). -/
def recordMetaImageValidation (store : UrlStore) (urlId : ObjectId) (imageUrl : String)
    (imageMeta : MetaImageMeta) : UrlStore × Bool :=
  let filter := (metaImageFilter urlId imageUrl).Matches
  (store.updateMany filter (setImageMeta imageMeta), (store.findOne filter).isSome)

/-- `{"$set": {"meta_tags.image": None, "meta_tags.image_meta": None}}`. -/
def unsetImage : KeyedUpdate UrlRow where
  apply row :=
    { row with
      metaTags := row.metaTags.map fun tags => { tags with image := none, imageMeta := none } }
  id_apply _ := rfl
  key_apply _ := rfl

/-- `clear_meta_image` (`url_repository.py:240-245`). -/
def clearMetaImage (store : UrlStore) (urlId : ObjectId) (imageUrl : String) : UrlStore × Bool :=
  let filter := (metaImageFilter urlId imageUrl).Matches
  (store.updateMany filter unsetImage, (store.findOne filter).isSome)

/-! ## Account erasure -/

/-- The filter of `iter_by_owner` (`url_repository.py:299-319`). -/
def ownerFilter (ownerId : ObjectId) : UrlQuery := PyDict.ofList [ownerIs ownerId]

/-- The filter of `delete_by_owner` (`url_repository.py:321-336`). -/
def unblockedOwnerFilter (ownerId : ObjectId) : UrlQuery :=
  PyDict.ofList [ownerIs ownerId, Query.field .status fun row => row.status ≠ .blocked]

/-- The filter of `scrub_blocked_owner_pii` (`url_repository.py:338-370`). -/
def blockedOwnerFilter (ownerId : ObjectId) (domain : Option String := none) : UrlQuery :=
  (PyDict.ofList [ownerIs ownerId, statusIs .blocked]).extend
    (domain.toList.map fun domain => Query.field .domain fun row => row.domain = domain)

/-- The update of `scrub_blocked_owner_pii`. -/
def unsetPii : KeyedUpdate UrlRow where
  apply row := { row with
    creationIp := none
    metaTags := row.metaTags.map fun tags => { tags with updatedIp := none }
    password := none }
  id_apply _ := rfl
  key_apply _ := rfl

/-! ## What the filters select -/

section

variable {row : UrlRow}

@[simp] theorem matches_idFilter (urlId : ObjectId) :
    (idFilter urlId).Matches row = decide (row.id = urlId) := by
  simp [idFilter, Query.Matches, PyDict.ofList, PyDict.assignEntry, idIs, Query.field]

@[simp] theorem matches_idsAndOwnerFilter (urlIds : List ObjectId) (ownerId : ObjectId) :
    (idsAndOwnerFilter urlIds ownerId).Matches row =
      (decide (row.id ∈ urlIds) && decide (row.ownerId = ownerId)) := by
  simp [idsAndOwnerFilter, Query.Matches, PyDict.ofList, PyDict.assignEntry, idIn, ownerIs,
    Query.field]

@[simp] theorem matches_aliasClause (pair : String × String) :
    (aliasClause pair).Matches row = decide ((row.linkAlias, row.domain) = pair) := by
  simp [aliasClause, Query.Matches, PyDict.ofList, PyDict.assignEntry, Query.field,
    Prod.ext_iff]

@[simp] theorem matches_aliasesFilter (pairs : List (String × String)) :
    (aliasesFilter (pairs.map aliasClause)).Matches row =
      (decide ((row.linkAlias, row.domain) ∈ pairs) && decide (row.status = .active)) := by
  have hany : (pairs.map aliasClause).any (·.Matches row) =
      decide ((row.linkAlias, row.domain) ∈ pairs) := by
    rw [Bool.eq_iff_iff]
    simp
  simp [aliasesFilter, Query.Matches, PyDict.ofList, PyDict.assignEntry, statusIs,
    Query.field, Query.or, ← hany]

@[simp] theorem matches_maxClicksFilter (urlId : ObjectId) (maxClicks : Int) :
    (maxClicksFilter urlId maxClicks).Matches row =
      (decide (row.id = urlId) && decide (maxClicks ≤ row.totalClicks)) := by
  simp [maxClicksFilter, Query.Matches, PyDict.ofList, PyDict.assignEntry, idIs, Query.field]

@[simp] theorem matches_metaImageFilter (urlId : ObjectId) (imageUrl : String) :
    (metaImageFilter urlId imageUrl).Matches row =
      (decide (row.id = urlId) && decide (row.metaTags.bind (·.image) = some imageUrl)) := by
  simp [metaImageFilter, Query.Matches, PyDict.ofList, PyDict.assignEntry, idIs, Query.field]

@[simp] theorem matches_ownerFilter (ownerId : ObjectId) :
    (ownerFilter ownerId).Matches row = decide (row.ownerId = ownerId) := by
  simp [ownerFilter, Query.Matches, PyDict.ofList, PyDict.assignEntry, ownerIs, Query.field]

@[simp] theorem matches_unblockedOwnerFilter (ownerId : ObjectId) :
    (unblockedOwnerFilter ownerId).Matches row =
      (decide (row.ownerId = ownerId) && decide (row.status ≠ .blocked)) := by
  simp [unblockedOwnerFilter, Query.Matches, PyDict.ofList, PyDict.assignEntry, ownerIs, Query.field]

@[simp] theorem matches_blockedOwnerFilter (ownerId : ObjectId) :
    (blockedOwnerFilter ownerId).Matches row =
      (decide (row.ownerId = ownerId) && decide (row.status = .blocked)) := by
  simp [blockedOwnerFilter, Query.Matches, PyDict.ofList, PyDict.extend, PyDict.assignEntry, ownerIs,
    statusIs, Query.field]

@[simp] theorem matches_blockFilter (host : String) :
    (blockFilter host).Matches row =
      (decide (host ∈ row.hosts) && decide (row.status = .active)) := by
  have h := matches_destHostFilter host row
  simp [destHostFilter, Query.Matches, PyDict.ofList, PyDict.assignEntry, Query.or] at h
  simp [blockFilter, destHostFilter, Query.Matches, PyDict.ofList, PyDict.assignEntry,
    Query.or, statusIs, Query.field, h]

end

end UrlRepository

end Spoo
