import Spoo.Services.UrlService.Service

/-!
# BulkUrlService (`services/bulk_url_service.py`)

The set-based twins of the owner's methods: one fetch scoped to the owner answers for every requested id, and one write
changes the slice that is left. Again a method is the list of its calls. `bulk_move_domain` writes item by item and is
given as a loop, and by its turns. The methods are given once more with an error at any of their calls on the database: a write that
raises may have been carried out, in whole or in part. There the edge is left out: its flush is detached and raises
nothing.
-/

namespace Spoo

open Interleave

/-- `BulkUrlResultRow`. -/
structure BulkUrlResultRow where
  id : String
  linkAlias : Option String := none
  ok : Bool
  errorCode : Option String := none
  error : Option String := none
  deriving DecidableEq, Repr

/-- `BulkUrlOperationResponse` with its `BulkOperationSummary`. -/
structure BulkUrlOperationResponse where
  total : Nat
  succeeded : Nat
  failed : Nat
  results : List BulkUrlResultRow
  deriving DecidableEq, Repr

/-- `_INTERNAL_MSG`. -/
def internalMsg : String := "Unexpected failure; retry these items"

/-- `BulkBatch`. The fetched documents have distinct ids, so the dictionary over them is their
list. -/
structure BulkBatch where
  order : List ObjectId := []
  docs : List UrlV2Doc := []
  rows : PyDict ObjectId BulkUrlResultRow := PyDict.empty

namespace BulkBatch

/-- `docs.get(url_id)`. -/
def doc? (batch : BulkBatch) (urlId : ObjectId) : Option UrlV2Doc :=
  batch.docs.find? (·.id = urlId)

def reject (batch : BulkBatch) (urlId : ObjectId) (code message : String)
    (linkAlias : Option String) : BulkBatch :=
  let row : BulkUrlResultRow :=
    ⟨toString urlId, linkAlias, false, some code, some message⟩
  { batch with rows := batch.rows.assign urlId row }

def ok (batch : BulkBatch) (doc : UrlV2Doc) : BulkBatch :=
  let row : BulkUrlResultRow := ⟨toString doc.id, some doc.linkAlias, true, none, none⟩
  { batch with rows := batch.rows.assign doc.id row }

/-- One verdict for each of several documents. -/
def okAll (batch : BulkBatch) (docs : List UrlV2Doc) : BulkBatch := docs.foldl ok batch

/-- `batch.reject(doc.id, "internal", _INTERNAL_MSG, alias=doc.alias)` for each document. -/
def rejectAll (batch : BulkBatch) (docs : List UrlV2Doc) : BulkBatch :=
  docs.foldl (fun b doc => b.reject doc.id "internal" internalMsg (some doc.linkAlias)) batch

/-- Fetched documents without a verdict yet. -/
def pending (batch : BulkBatch) : List UrlV2Doc :=
  batch.order.filterMap fun urlId =>
    if urlId ∈ batch.rows.keys then none else batch.doc? urlId

/-- `report`: `none` is the `RuntimeError` over an id without a verdict. -/
def report (batch : BulkBatch) : Option BulkUrlOperationResponse :=
  (batch.order.mapM batch.rows.get?).map fun rows =>
    let succeeded := rows.countP (·.ok)
    ⟨rows.length, succeeded, rows.length - succeeded, rows⟩

end BulkBatch

/-- The local variables of the bulk methods: the batch, and the documents still to be written;
`reactivate` is the EXPIRED part of an expiry change. -/
structure BulkVars where
  batch : BulkBatch := {}
  changed : List UrlV2Doc := []
  reactivate : List UrlV2Doc := []
  rejected : Option AppError := none

namespace BulkUrlService

abbrev Call := Action BulkVars Stores

/-! ## Shared stages -/

/-- The verdict `_load` hands out for one id. -/
def loadVerdict (blockedMessage : String) (batch : BulkBatch) (urlId : ObjectId) : BulkBatch :=
  match batch.doc? urlId with
  | none => batch.reject urlId "not_found" "URL not found" none
  | some doc =>
    if doc.status = .blocked then
      batch.reject urlId "forbidden" blockedMessage (some doc.linkAlias)
    else batch

/-- `_load`: the ids without their repetitions, fetched under their owner
(`bulk_url_service.py:159-184`). -/
def load (urls : UrlStore) (ids : List ObjectId) (ownerId : ObjectId)
    (blockedMessage : String) : BulkBatch :=
  let unique := ids.eraseDups
  unique.foldl (loadVerdict blockedMessage)
    { order := unique, docs := UrlRepository.findByIdsAndOwner urls unique ownerId }

/-- `_invalidate` (`bulk_url_service.py:186-192`). -/
def invalidate (cache : UrlCache) (pairs : List (String × String)) : UrlCache :=
  let byDomain := pairs.foldl (fun d pair => SafetyEnforcer.appendUnder d pair.2 pair.1)
    PyDict.empty
  byDomain.entries.foldl (fun c group => c.invalidateMany group.2 group.1) cache

/-- The keys of documents as they were read. -/
def pairsOf (docs : List UrlV2Doc) : List (String × String) :=
  docs.map fun doc => (doc.linkAlias, doc.domain)

/-- `_edge_flush` and `_flush_edge`: puts first (`bulk_url_service.py:194-232`). -/
def edgeFlush (edge : EdgeConfig) (kv : EdgeKv) (purgeKeys : List String)
    (putEntries : List (String × EdgeCacheEntry)) (now : Int) : EdgeKv :=
  if edge.enabled then (kv.bulkPut putEntries edge.ogTtlSeconds now).bulkDelete purgeKeys
  else kv

/-- `_system_domain_keys` (`bulk_url_service.py:234-247`). -/
def systemDomainKeys (edge : EdgeConfig) (docs : List UrlV2Doc) : List String :=
  (docs.filter (·.domain = edge.systemDefaultDomain)).map fun doc =>
    cacheKey doc.domain doc.linkAlias

/-- `_og_put_entries`, judged on the merged document (`bulk_url_service.py:249-268`). -/
def ogPutEntries (edge : EdgeConfig) (docs : List UrlV2Doc) (updates : UrlOps) :
    List (String × EdgeCacheEntry) :=
  ((docs.map updates.merge).filter fun merged =>
    merged.domain = edge.systemDefaultDomain && merged.metaTags.isSome &&
      merged.status = .active).map fun merged =>
    buildOgEntry edge.render (UrlCacheData.fromV2Doc merged)

/-- `_apply_update`: one write over the documents, with a verdict for each either way
(`bulk_url_service.py:688-722`). -/
def applyUpdate (edge : EdgeConfig) (ownerId : ObjectId) (setOps : UrlOps) (now : Int)
    (docs : List UrlV2Doc) (batch : BulkBatch) (s : Stores) : Bool × BulkBatch × Stores :=
  match UrlRepository.updateByIdsAndOwner s.urls (docs.map (·.id)) ownerId setOps.toUpdate with
  | some urls => (true, batch.okAll docs, { s with urls })
  | none =>
    (false, batch.rejectAll docs, { s with
      cache := invalidate s.cache (pairsOf docs)
      kv := edgeFlush edge s.kv (systemDomainKeys edge docs) [] now })

/-- `_apply_update` on the changed documents, if there are any. -/
def writeChanged (edge : EdgeConfig) (ownerId : ObjectId) (setOps : UrlOps) (now : Int) :
    Call := fun v s =>
  if v.changed = [] then (v, s)
  else
    let r := applyUpdate edge ownerId setOps now v.changed v.batch s
    ({ v with batch := r.2.1, changed := if r.1 then v.changed else [] }, r.2.2)

/-- `_apply_update` on the documents to reactivate, if there are any. -/
def writeReactivate (edge : EdgeConfig) (ownerId : ObjectId) (setOps : UrlOps) (now : Int) :
    Call := fun v s =>
  if v.reactivate = [] then (v, s)
  else
    let r := applyUpdate edge ownerId setOps now v.reactivate v.batch s
    ({ v with batch := r.2.1, reactivate := if r.1 then v.reactivate else [] }, r.2.2)

/-- `_invalidate` over the documents that were written. -/
def invalidateApplied : Call := fun v s =>
  (v, { s with cache := invalidate s.cache (pairsOf (v.changed ++ v.reactivate)) })

/-! ## bulk_delete -/

/-- `_load` for `bulk_delete`. -/
def loadForDelete (ids : List ObjectId) (ownerId : ObjectId) : Call := fun _ s =>
  let batch := load s.urls ids ownerId "Cannot delete a blocked URL"
  ({ batch, changed := batch.pending }, s)

/-- `delete_by_ids_and_owner`, then a verdict for each document. -/
def writeDelete (ownerId : ObjectId) : Call := fun v s =>
  if v.changed = [] then (v, s)
  else
    let urls := UrlRepository.deleteByIdsAndOwner s.urls (v.changed.map (·.id)) ownerId
    ({ v with batch := v.batch.okAll v.changed }, { s with urls })

/-- The edge part of `_finish_deleted`, and of a deactivation. -/
def purgeChanged (edge : EdgeConfig) (now : Int) : Call := fun v s =>
  (v, { s with kv := edgeFlush edge s.kv (systemDomainKeys edge v.changed) [] now })

/-- The calls of `bulk_delete` (`bulk_url_service.py:271-341`). -/
def bulkDeleteCalls (edge : EdgeConfig) (ids : List ObjectId) (ownerId : ObjectId)
    (now : Int) : List Call := [
  loadForDelete ids ownerId,
  writeDelete ownerId,
  invalidateApplied,
  purgeChanged edge now]

/-! ## bulk_set_status -/

/-- `_load` for `bulk_set_status`: a link that has the status already is a success. -/
def loadForStatus (ids : List ObjectId) (status : OwnerStatus) (ownerId : ObjectId) : Call :=
  fun _ s =>
    let batch := load s.urls ids ownerId "Cannot modify a blocked URL"
    let pending := batch.pending
    ({ batch := batch.okAll (pending.filter (·.status = status.toUrlStatus))
       changed := pending.filter (·.status ≠ status.toUrlStatus) }, s)

/-- The `set_ops` of `bulk_set_status`. -/
def statusOps (status : OwnerStatus) (now : Int) : UrlOps :=
  { status := some status.toUrlStatus, updatedAt := some now }

/-- The edge part of `bulk_set_status`. -/
def statusEdge (edge : EdgeConfig) (status : OwnerStatus) (now : Int) : Call := fun v s =>
  match status with
  | .inactive => purgeChanged edge now v s
  | .active =>
    let puts := ogPutEntries edge v.changed { status := some .active }
    (v, { s with kv := edgeFlush edge s.kv [] puts now })

/-- The calls of `bulk_set_status` (`bulk_url_service.py:343-378`). -/
def bulkSetStatusCalls (edge : EdgeConfig) (ids : List ObjectId) (status : OwnerStatus)
    (ownerId : ObjectId) (now : Int) : List Call := [
  loadForStatus ids status ownerId,
  writeChanged edge ownerId (statusOps status now) now,
  invalidateApplied,
  statusEdge edge status now]

/-! ## bulk_set_expiry -/

/-- The link's expiry is not the requested one. A stored date is naive and never equals an
aware one. -/
def expiryDiffers (expireAfter : Option Int) (doc : UrlV2Doc) : Bool :=
  match expireAfter with
  | none => doc.expireAfter.isSome
  | some value => doc.expireAfter ≠ some (.aware value)

/-- The check and `_load` of `bulk_set_expiry`; the EXPIRED links come back. -/
def loadForExpiry (ids : List ObjectId) (expireAfter : Option Int) (ownerId : ObjectId)
    (now : Int) : Call := fun v s =>
  if expireAfter.any (· ≤ now) then
    let error : AppError :=
      ⟨.validation, "expire_after must be in the future", some "expire_after"⟩
    ({ v with rejected := some error }, s)
  else
    let batch := load s.urls ids ownerId "Cannot modify a blocked URL"
    let changed := batch.pending.filter (expiryDiffers expireAfter ·)
    ({ batch := batch.okAll (batch.pending.filter (!expiryDiffers expireAfter ·))
       changed := changed.filter (·.status ≠ .expired)
       reactivate := changed.filter (·.status = .expired) }, s)

/-- The `plain_ops` of `bulk_set_expiry`. -/
def plainOps (expireAfter : Option Int) (now : Int) : UrlOps :=
  { expireAfter := some expireAfter, updatedAt := some now }

/-- The `react_ops` of `bulk_set_expiry`. -/
def reactOps (expireAfter : Option Int) (now : Int) : UrlOps :=
  { plainOps expireAfter now with status := some .active }

/-- The edge part of `bulk_set_expiry`. -/
def expiryEdge (edge : EdgeConfig) (expireAfter : Option Int) (now : Int) : Call := fun v s =>
  let puts := ogPutEntries edge v.reactivate
    { status := some .active, expireAfter := some expireAfter }
  (v, { s with kv := edgeFlush edge s.kv [] puts now })

/-- The calls of `bulk_set_expiry` (`bulk_url_service.py:380-454`). -/
def bulkSetExpiryCalls (edge : EdgeConfig) (ids : List ObjectId) (expireAfter : Option Int)
    (ownerId : ObjectId) (now : Int) : List Call := [
  loadForExpiry ids expireAfter ownerId now,
  writeChanged edge ownerId (plainOps expireAfter now) now,
  writeReactivate edge ownerId (reactOps expireAfter now) now,
  invalidateApplied,
  expiryEdge edge expireAfter now]

/-! ## bulk_move_domain -/

/-- The state of the loop of `bulk_move_domain`. -/
structure MoveState where
  batch : BulkBatch
  moved : List UrlV2Doc := []
  claimed : List String := []
  urls : UrlStore

/-- One item of a move. -/
def moveItem (env : UpdateEnv) (target : String) (ownerId : ObjectId) (now : Int)
    (m : MoveState) (doc : UrlV2Doc) : MoveState :=
  let inUse := "Alias '" ++ doc.linkAlias ++ "' is already in use on " ++ target
  let reserved := "Alias '" ++ doc.linkAlias ++ "' is reserved on " ++ target
  let refuse := fun code message =>
    { m with batch := m.batch.reject doc.id code message (some doc.linkAlias) }
  if doc.domain = target then { m with batch := m.batch.ok doc }
  else if target = env.systemDefaultDomain ∧ env.isReservedAlias doc.linkAlias then
    refuse "validation_error" reserved
  else if doc.linkAlias ∈ m.claimed ∨ !env.aliasAvailable doc.linkAlias target then
    refuse "conflict" inUse
  else
    let setOps : UrlOps := { domain := some target, updatedAt := some now }
    match UrlRepository.updateByIdsAndOwner m.urls [doc.id] ownerId setOps.toUpdate with
    -- The unique index arbitrates a race.
    | none => refuse "conflict" inUse
    | some urls =>
      { batch := m.batch.ok doc
        moved := m.moved ++ [doc]
        claimed := doc.linkAlias :: m.claimed
        urls }

/-- `bulk_move_domain` (`bulk_url_service.py:456-584`). -/
def bulkMoveDomain (env : UpdateEnv) (edge : EdgeConfig) (ids : List ObjectId)
    (domain : Option String) (ownerId : ObjectId) (now : Int) (s : Stores) :
    BulkBatch × Stores :=
  let target := targetDomain env domain
  let batch := load s.urls ids ownerId "Cannot modify a blocked URL"
  let m := batch.pending.foldl (moveItem env target ownerId now) { batch, urls := s.urls }
  let pairs := m.moved.flatMap fun doc =>
    [(doc.linkAlias, doc.domain), (doc.linkAlias, target)]
  let puts := ogPutEntries edge m.moved { domain := some target }
  (m.batch, { s with
    urls := m.urls
    cache := invalidate s.cache pairs
    kv := edgeFlush edge s.kv (systemDomainKeys edge m.moved) puts now })

/-- The local variables of `bulk_move_domain`, and the documents that its loop has still to come to. -/
structure MoveVars where
  batch : BulkBatch := {}
  moved : List UrlV2Doc := []
  claimed : List String := []
  pending : List UrlV2Doc := []

/-- `_load` for `bulk_move_domain`. -/
def loadForMove (ids : List ObjectId) (ownerId : ObjectId) : Action MoveVars Stores := fun v s =>
  let batch := load s.urls ids ownerId "Cannot modify a blocked URL"
  ({ v with batch, pending := batch.pending }, s)

/-- One turn of the loop, where there is a document left. -/
def moveNext (env : UpdateEnv) (target : String) (ownerId : ObjectId) (now : Int) :
    Action MoveVars Stores := fun v s =>
  match v.pending with
  | [] => (v, s)
  | doc :: pending =>
    let m := moveItem env target ownerId now ⟨v.batch, v.moved, v.claimed, s.urls⟩ doc
    (⟨m.batch, m.moved, m.claimed, pending⟩, { s with urls := m.urls })

/-- `_invalidate` over both keys of each link that has moved. -/
def invalidateMoved (target : String) : Action MoveVars Stores := fun v s =>
  (v, { s with
    cache := invalidate s.cache <| v.moved.flatMap fun doc =>
      [(doc.linkAlias, doc.domain), (doc.linkAlias, target)] })

/-- The edge part of `bulk_move_domain`. -/
def flushMoved (edge : EdgeConfig) (target : String) (now : Int) : Action MoveVars Stores := fun v s =>
  let puts := ogPutEntries edge v.moved { domain := some target }
  (v, { s with kv := edgeFlush edge s.kv (systemDomainKeys edge v.moved) puts now })

/-- The turns of the loop, and what follows it. -/
def moveCalls (env : UpdateEnv) (edge : EdgeConfig) (target : String) (ownerId : ObjectId) (now : Int) :
    Nat → List (Action MoveVars Stores)
  | 0 => [invalidateMoved target, flushMoved edge target now]
  | turns + 1 => moveNext env target ownerId now :: moveCalls env edge target ownerId now turns

/-- The calls of `bulk_move_domain`: no batch has more documents than ids. -/
def bulkMoveDomainCalls (env : UpdateEnv) (edge : EdgeConfig) (ids : List ObjectId)
    (domain : Option String) (ownerId : ObjectId) (now : Int) : List (Action MoveVars Stores) :=
  loadForMove ids ownerId :: moveCalls env edge (targetDomain env domain) ownerId now ids.length

/-! ## bulk_tag -/

/-- `TAGS_MAX_PER_LINK`. -/
def tagsMaxPerLink : Nat := 10

/-- `(existing minus remove) plus add`, in Python and in the pipeline of the write. -/
def nextTags (add remove tagIds : List ObjectId) : List ObjectId :=
  let kept := tagIds.filter (· ∉ remove)
  kept ++ add.filter (· ∉ kept)

/-- The pipeline of `bulk_tag`. -/
def retag (add remove : List ObjectId) (now : Int) : Mongo.KeyedUpdate UrlRow where
  apply row := { row with
    tagIds := nextTags add remove row.tagIds
    updatedAt := some (.encode now) }
  id_apply _ := rfl
  key_apply _ := rfl

/-- The verdict of `bulk_tag` on one document: `none` leaves it to the write. -/
def tagVerdict (add remove : List ObjectId) (batch : BulkBatch) (doc : UrlV2Doc) :
    Option BulkBatch :=
  if nextTags add remove doc.tagIds = doc.tagIds then some (batch.ok doc)
  else if tagsMaxPerLink < (nextTags add remove doc.tagIds).length then
    some (batch.reject doc.id "validation_error"
      ("a link can carry at most " ++ toString tagsMaxPerLink ++ " tags") (some doc.linkAlias))
  else none

/-- `bulk_tag`; `assertOwned` is `tag_service.assert_owned`, where there is a tag service
(`bulk_url_service.py:589-684`). -/
def bulkTag (assertOwned : Option (ObjectId → List ObjectId → Except AppError Unit))
    (ids add remove : List ObjectId) (ownerId : ObjectId) (now : Int) (s : Stores) :
    Except AppError BulkBatch × Stores :=
  let vouched : Except AppError Unit :=
    if add = [] then .ok ()
    else match assertOwned with
      | none => validationError "tags are not available" "add"
      | some assertOwned => assertOwned ownerId add
  match vouched with
  | .error e => (.error e, s)
  | .ok () =>
    let loaded := load s.urls ids ownerId "Cannot modify a blocked URL"
    let judged := loaded.pending.foldl (fun acc doc =>
      match tagVerdict add remove acc.1 doc with
      | some batch => (batch, acc.2)
      | none => (acc.1, acc.2 ++ [doc])) (loaded, ([] : List UrlV2Doc))
    let changed := judged.2
    if changed = [] then (.ok judged.1, s)
    else match UrlRepository.updateByIdsAndOwner s.urls (changed.map (·.id)) ownerId
        (retag add remove now).toUpdate with
      | some urls => (.ok (judged.1.okAll changed), { s with urls })
      | none => (.ok (judged.1.rejectAll changed), s)

/-! ## The methods in sequence -/

/-- What a bulk method of calls answers. -/
def answer (v : BulkVars) : Except AppError (Option BulkUrlOperationResponse) :=
  match v.rejected with
  | some e => .error e
  | none => .ok v.batch.report

/-- `bulk_delete`. -/
def bulkDelete (edge : EdgeConfig) (ids : List ObjectId) (ownerId : ObjectId) (now : Int)
    (s : Stores) : Except AppError (Option BulkUrlOperationResponse) × Stores :=
  let r := runActions (bulkDeleteCalls edge ids ownerId now) {} s
  (answer r.1, r.2)

/-- `bulk_set_status`. -/
def bulkSetStatus (edge : EdgeConfig) (ids : List ObjectId) (status : OwnerStatus)
    (ownerId : ObjectId) (now : Int) (s : Stores) :
    Except AppError (Option BulkUrlOperationResponse) × Stores :=
  let r := runActions (bulkSetStatusCalls edge ids status ownerId now) {} s
  (answer r.1, r.2)

/-- `bulk_set_expiry`. -/
def bulkSetExpiry (edge : EdgeConfig) (ids : List ObjectId) (expireAfter : Option Int)
    (ownerId : ObjectId) (now : Int) (s : Stores) :
    Except AppError (Option BulkUrlOperationResponse) × Stores :=
  let r := runActions (bulkSetExpiryCalls edge ids expireAfter ownerId now) {} s
  (answer r.1, r.2)

end BulkUrlService

/-! ## Errors of the database -/

/-- How the write of one item of a move raises. -/
inductive MoveError where
  | duplicateKey
  /-- Any other `PyMongoError`: the write was applied, or it was not. -/
  | lost (applied : Bool)
  deriving DecidableEq, Repr

/-- The calls that raise a `PyMongoError`. A grouped write has reached some documents by then. -/
structure DatabaseErrors where
  /-- `find_by_ids_and_owner` in `_load`. -/
  load : Bool := false
  /-- `delete_by_ids_and_owner`, or the first `update_by_ids_and_owner`. -/
  write : Option (ObjectId → Bool) := none
  /-- The second `update_by_ids_and_owner` of `bulk_set_expiry`. -/
  reactivate : Option (ObjectId → Bool) := none
  /-- `find_by_ids_and_owner` in `_attribute_delete_failure`. -/
  requery : Bool := false
  /-- `check_alias_available` for an item of a move. -/
  check : ObjectId → Bool := fun _ => false
  /-- `update_by_ids_and_owner` for an item of a move. -/
  move : ObjectId → Option MoveError := fun _ => none

/-- What a bulk method comes to: its report, `none` where it raises, the links it leaves, and the keys
that it has handed to `_invalidate`. -/
structure BulkRun where
  report : Option BulkUrlOperationResponse
  urls : UrlStore
  cleared : List (String × String) := []

namespace BulkBatch

/-- `batch.reject(doc.id, "not_attempted", ...)` for each document. -/
def rejectNotAttempted (batch : BulkBatch) (docs : List UrlV2Doc) : BulkBatch :=
  docs.foldl (fun b doc => b.reject doc.id "not_attempted" "Processing aborted before completion"
    (some doc.linkAlias)) batch

end BulkBatch

namespace BulkUrlService

/-! ## bulk_delete -/

/-- `_attribute_delete_failure` on the links that the failed write has left
(`bulk_url_service.py:313-341`). -/
def attributeDeleteFailure (errors : DatabaseErrors) (batch : BulkBatch) (docs : List UrlV2Doc)
    (ownerId : ObjectId) (urls : UrlStore) : BulkRun :=
  if errors.requery then { report := (batch.rejectNotAttempted docs).report, urls }
  else
    let survivors :=
      (UrlRepository.findByIdsAndOwner urls (docs.map (·.id)) ownerId).map (·.id)
    let gone := docs.filter (·.id ∉ survivors)
    { report := ((batch.okAll gone).rejectAll (docs.filter (·.id ∈ survivors))).report
      urls
      cleared := pairsOf gone }

/-- `bulk_delete` (`bulk_url_service.py:271-341`). -/
def bulkDeleteUnder (errors : DatabaseErrors) (ids : List ObjectId) (ownerId : ObjectId)
    (urls : UrlStore) : BulkRun :=
  if errors.load then { report := none, urls }
  else
    let batch := load urls ids ownerId "Cannot delete a blocked URL"
    let docs := batch.pending
    if docs = [] then { report := batch.report, urls }
    else match errors.write with
      | none =>
        { report := (batch.okAll docs).report
          urls := UrlRepository.deleteByIdsAndOwner urls (docs.map (·.id)) ownerId
          cleared := pairsOf docs }
      | some reached =>
        let removed := (docs.filter (reached ·.id)).map (·.id)
        attributeDeleteFailure errors batch docs ownerId
          (UrlRepository.deleteByIdsAndOwner urls removed ownerId)

/-! ## bulk_set_status and bulk_set_expiry -/

/-- What `_apply_update` leaves: the documents that the caller goes on with, none after a failure. -/
structure AppliedUpdate where
  applied : List UrlV2Doc
  batch : BulkBatch
  urls : UrlStore
  cleared : List (String × String) := []

/-- `_apply_update`, if there are documents: a failed write leaves the rows and the keys of all of them
in doubt (`bulk_url_service.py:688-720`). -/
def applyUpdateUnder (error : Option (ObjectId → Bool)) (ownerId : ObjectId) (setOps : UrlOps)
    (docs : List UrlV2Doc) (batch : BulkBatch) (urls : UrlStore) : AppliedUpdate :=
  if docs = [] then { applied := [], batch, urls }
  else match error with
    | none =>
      match UrlRepository.updateByIdsAndOwner urls (docs.map (·.id)) ownerId setOps.toUpdate with
      | some urls => { applied := docs, batch := batch.okAll docs, urls }
      | none => { applied := [], batch := batch.rejectAll docs, urls, cleared := pairsOf docs }
    | some reached =>
      let written := UrlRepository.updateByIdsAndOwner urls
        ((docs.filter (reached ·.id)).map (·.id)) ownerId setOps.toUpdate
      { applied := [], batch := batch.rejectAll docs, urls := written.getD urls, cleared := pairsOf docs }

/-- `bulk_set_status` (`bulk_url_service.py:343-378`). -/
def bulkSetStatusUnder (errors : DatabaseErrors) (ids : List ObjectId) (status : OwnerStatus)
    (ownerId : ObjectId) (now : Int) (urls : UrlStore) : BulkRun :=
  if errors.load then { report := none, urls }
  else
    let batch := load urls ids ownerId "Cannot modify a blocked URL"
    let pending := batch.pending
    let update := applyUpdateUnder errors.write ownerId (statusOps status now)
      (pending.filter (·.status ≠ status.toUrlStatus))
      (batch.okAll (pending.filter (·.status = status.toUrlStatus))) urls
    { report := update.batch.report
      urls := update.urls
      cleared := update.cleared ++ pairsOf update.applied }

/-- `bulk_set_expiry` (`bulk_url_service.py:380-454`). -/
def bulkSetExpiryUnder (errors : DatabaseErrors) (ids : List ObjectId) (expireAfter : Option Int)
    (ownerId : ObjectId) (now : Int) (urls : UrlStore) : BulkRun :=
  if expireAfter.any (· ≤ now) ∨ errors.load then { report := none, urls }
  else
    let batch := load urls ids ownerId "Cannot modify a blocked URL"
    let changed := batch.pending.filter (expiryDiffers expireAfter ·)
    let unchanged := batch.pending.filter (!expiryDiffers expireAfter ·)
    let plain := applyUpdateUnder errors.write ownerId (plainOps expireAfter now)
      (changed.filter (·.status ≠ .expired)) (batch.okAll unchanged) urls
    let reactivated := applyUpdateUnder errors.reactivate ownerId (reactOps expireAfter now)
      (changed.filter (·.status = .expired)) plain.batch plain.urls
    { report := reactivated.batch.report
      urls := reactivated.urls
      cleared := plain.cleared ++ reactivated.cleared ++
        pairsOf (plain.applied ++ reactivated.applied) }

/-! ## bulk_move_domain -/

/-- The state of the loop of `bulk_move_domain`. -/
structure MovingState extends MoveState where
  cleared : List (String × String) := []

/-- Both keys of a link that moves. -/
def moveKeys (target : String) (doc : UrlV2Doc) : List (String × String) :=
  [(doc.linkAlias, doc.domain), (doc.linkAlias, target)]

/-- One item of a move: an alias check that raises ends the loop. -/
def moveItemUnder (errors : DatabaseErrors) (env : UpdateEnv) (target : String) (ownerId : ObjectId)
    (now : Int) (m : MovingState) (doc : UrlV2Doc) : Except MovingState MovingState :=
  let inUse := "Alias '" ++ doc.linkAlias ++ "' is already in use on " ++ target
  let reserved := "Alias '" ++ doc.linkAlias ++ "' is reserved on " ++ target
  let refuse := fun code message =>
    { m with batch := m.batch.reject doc.id code message (some doc.linkAlias) }
  let setOps : UrlOps := { domain := some target, updatedAt := some now }
  let written := UrlRepository.updateByIdsAndOwner m.urls [doc.id] ownerId setOps.toUpdate
  if doc.domain = target then .ok { m with batch := m.batch.ok doc }
  else if target = env.systemDefaultDomain ∧ env.isReservedAlias doc.linkAlias then
    .ok (refuse "validation_error" reserved)
  else if doc.linkAlias ∈ m.claimed then .ok (refuse "conflict" inUse)
  else if errors.check doc.id then .error m
  else if !env.aliasAvailable doc.linkAlias target then .ok (refuse "conflict" inUse)
  else match errors.move doc.id with
    | some .duplicateKey => .ok (refuse "conflict" inUse)
    | some (.lost applied) =>
      -- The outcome is unknown: both keys are cleared at once.
      .ok { refuse "internal" internalMsg with
        urls := if applied then written.getD m.urls else m.urls
        cleared := m.cleared ++ moveKeys target doc }
    | none =>
      match written with
      | none => .ok (refuse "conflict" inUse)
      | some urls => .ok { m with
          batch := m.batch.ok doc
          moved := m.moved ++ [doc]
          claimed := doc.linkAlias :: m.claimed
          urls }

/-- `bulk_move_domain`; each item asks the links as they are then (`bulk_url_service.py:456-584`). -/
def bulkMoveDomainUnder (errors : DatabaseErrors) (envOn : UrlStore → UpdateEnv) (ids : List ObjectId)
    (domain : Option String) (ownerId : ObjectId) (now : Int) (urls : UrlStore) : BulkRun :=
  if errors.load then { report := none, urls }
  else
    let target := targetDomain (envOn urls) domain
    let batch := load urls ids ownerId "Cannot modify a blocked URL"
    let step := fun m doc => moveItemUnder errors (envOn m.urls) target ownerId now m doc
    match batch.pending.foldlM step { batch, urls } with
    | .error m => { report := none, urls := m.urls, cleared := m.cleared }
    | .ok m =>
      { report := m.batch.report
        urls := m.urls
        cleared := m.cleared ++ m.moved.flatMap (moveKeys target) }

end BulkUrlService

end Spoo
