import Spoo.Lib.Agents
import Spoo.Services.UrlService.Service

/-!
# UrlService: claims and erasure in single calls (`services/url_service.py:1194-1283`, `1622-1658`)

A batch of claims counts the links that its account has claimed, and then takes its items one by one: the link is
read, the transfer is one conditional update, and the cached redirect is evicted. The erasure purges the caches of
every link of an owner, then scrubs the blocked links and deletes the others, while the enforcer blocks links. A bulk
write is not atomic: it comes to one document after the other, in an order that MongoDB leaves open, and each document
is tested and written in one move.
-/

namespace Spoo

open Agents Mongo

/-! ## Claims -/

/-- The items of a batch that are still to come, with what became of those before. -/
structure ClaimBatch where
  ownerId : ObjectId
  now : Int
  rest : List (ObjectId × String)
  results : List UrlService.ClaimStatus := []
  deriving DecidableEq, Repr

/-- The next item has come to its verdict. -/
def ClaimBatch.settle (batch : ClaimBatch) (status : UrlService.ClaimStatus) : ClaimBatch :=
  { batch with rest := batch.rest.tail, results := batch.results ++ [status] }

/-- A call of `claim`. -/
inductive ClaimPhase where
  | called (ownerId : ObjectId) (claims : List (ObjectId × String))
  | finding (batch : ClaimBatch)
  /-- The id and the link of the next item, with the hash of its token. -/
  | swapping (batch : ClaimBatch) (urlId : ObjectId) (existing : UrlV2Doc) (tokenHash : String)
  | evicting (batch : ClaimBatch) (existing : UrlV2Doc)
  | done (outcome : Except AppError (List UrlService.ClaimStatus))

/-- The links and what goes with them, and the clock. -/
structure ClaimWorld where
  stores : Stores
  clock : Int

/-- The clock goes on. -/
def ClaimWorld.wait (s : ClaimWorld) (delay : Nat) : ClaimWorld := { s with clock := s.clock + delay }

namespace UrlService

variable (hashToken : String → String)

/-- The error of a batch that goes over the ceiling. -/
def claimLimitError : AppError :=
  ⟨.forbidden, "Claim limit reached: an account can claim up to " ++ toString claimLimitPerAccount ++
    " links", none⟩

/-- `url_repo.count_claimed`. -/
def countClaimed (urls : UrlStore) (ownerId : ObjectId) : Nat :=
  urls.docs.countP fun row => row.ownerId = ownerId && row.claimedAt.isSome

/-- The verdict on an item that is not written (`url_service.py:1232-1254`). -/
def refusedClaim (ownerId : ObjectId) (token : String) : Option UrlV2Doc → Option UrlService.ClaimStatus
  | none => some .invalid
  | some existing =>
    if existing.ownerId = ownerId then some .alreadyYours
    else if existing.ownerId ≠ anonymousOwnerId ∨ existing.claimTokenHash.getD "" = "" then
      some .invalid
    else if existing.claimTokenHash ≠ some (hashToken token) then some .invalid
    else none

/-- The check of an item, once its link is read. -/
def checkClaim (batch : ClaimBatch) (item : ObjectId × String) (found : Option UrlV2Doc) : ClaimPhase :=
  match refusedClaim hashToken batch.ownerId item.2 found, found with
  | some status, _ => .finding (batch.settle status)
  | none, some existing => .swapping batch item.1 existing (hashToken item.2)
  | none, none => .finding (batch.settle .invalid)

/-- One move of a call of `claim`. -/
def claimMove (phase : ClaimPhase) (s : ClaimWorld) : ClaimPhase × ClaimWorld :=
  match phase with
  | .called ownerId claims =>
    if claimLimitPerAccount < countClaimed s.stores.urls ownerId + claims.length then
      (.done (.error claimLimitError), s)
    else (.finding { ownerId, now := s.clock, rest := claims }, s)
  | .finding batch =>
    match batch.rest with
    | [] => (.done (.ok batch.results), s)
    | item :: _ =>
      (checkClaim hashToken batch item (UrlRepository.findById s.stores.urls item.1), s)
  | .swapping batch urlId existing tokenHash =>
    let swapped := UrlRepository.claimByTokenHash s.stores.urls urlId tokenHash batch.ownerId batch.now
    if swapped.2 then
      (.evicting batch existing, { s with stores := { s.stores with urls := swapped.1 } })
    else (.finding (batch.settle .invalid), s)
  | .evicting batch existing =>
    (.finding (batch.settle .claimed),
      { s with stores := { s.stores with
        cache := s.stores.cache.invalidate existing.linkAlias existing.domain } })
  | .done outcome => (.done outcome, s)

end UrlService

/-- One move of a call, some time after the last move of anyone. -/
def ClaimPhase.move {ι : Type} (hashToken : String → String) : Move ι Nat ClaimPhase ClaimWorld :=
  fun _ delay phase s => UrlService.claimMove hashToken phase (s.wait delay)

/-! ## Erasure -/

/-- `OwnerUrlErasure`. -/
structure OwnerUrlErasure where
  deleted : Nat
  blockedRetained : Nat
  urlIds : List ObjectId
  deriving DecidableEq, Repr

/-- Where `delete_all_by_owner` stands: in a scan, with the links that it has not come to. -/
inductive LinkErasure where
  | idle
  | purging (ownerId : ObjectId) (rest urlIds : List ObjectId)
  | scrubbing (ownerId : ObjectId) (rest urlIds : List ObjectId) (blockedRetained : Nat)
  | deleting (ownerId : ObjectId) (rest urlIds : List ObjectId) (blockedRetained deleted : Nat)
  | done (ownerId : ObjectId) (result : OwnerUrlErasure)
  deriving DecidableEq, Repr

/-- An `update_many`. -/
structure BulkWrite where
  filter : UrlQuery
  update : KeyedUpdate UrlRow

/-- Where a block stands: in an update, with the links that it has not come to, and before others. -/
inductive SafetyBlock where
  | idle
  | writing (write : BulkWrite) (rest : List ObjectId) (later : List BulkWrite)

/-- An erasure, or a block of the enforcer. -/
inductive LinkAgent where
  | eraser (erasure : LinkErasure)
  | blocker (block : SafetyBlock)

/-- What comes with a move. -/
inductive LinkChoice where
  | erase (ownerId : ObjectId)
  | blockHost (host reason : String)
  | blockAliases (pairs : List (String × String)) (reason : String)
  /-- A scan comes to the link. -/
  | visit (urlId : ObjectId)
  /-- A scan has come to its end. -/
  | go
  /-- The call raises. -/
  | fail
  deriving DecidableEq, Repr

/-- The clock, and what comes with the move. -/
structure LinkAnswer where
  now : Int
  choice : LinkChoice
  deriving DecidableEq, Repr

/-- The links that a scan of the collection comes to. -/
def scanned (urls : UrlStore) : List ObjectId := urls.docs.map (·.id)

namespace UrlRepository

/-- The updates of `block_active_by_dest_host` (`url_repository.py:837-896`). -/
def destHostWrites (host reason : String) (now : Int) : List BulkWrite := [
  ⟨blockFilter host, blockWith reason (.value [host]) now⟩,
  ⟨addCauseFilter host, addCause host⟩]

/-- The updates of `block_active_by_aliases` (`url_repository.py:696-723`). -/
def aliasesWrites (pairs : List (String × String)) (reason : String) (now : Int) : List BulkWrite :=
  (aliasChunks pairs).map fun chunk => ⟨aliasesFilter chunk, blockWith reason .null now⟩

/-- The updates one after the other, with nothing in between. -/
def writeAll (writes : List BulkWrite) (urls : UrlStore) : UrlStore :=
  writes.foldl (fun urls write => urls.updateMany write.filter.Matches write.update) urls

/-- With nothing in between, the updates are those of the enforcer's calls. -/
theorem writeAll_destHostWrites (urls : UrlStore) (host reason : String) (now : Int) :
    writeAll (destHostWrites host reason now) urls = (blockActiveByDestHost urls host reason now).1 := rfl

theorem writeAll_aliasesWrites (urls : UrlStore) (pairs : List (String × String)) (reason : String)
    (now : Int) :
    writeAll (aliasesWrites pairs reason now) urls = (blockActiveByAliases urls pairs reason now).1 := by
  have hfold (chunks : List (List UrlQuery)) (acc : UrlStore × Nat) :
      (chunks.foldl (blockChunk reason now) acc).1 =
        writeAll (chunks.map fun chunk => ⟨aliasesFilter chunk, blockWith reason .null now⟩) acc.1 := by
    induction chunks generalizing acc with
    | nil => rfl
    | cons chunk chunks ih => exact ih (blockChunk reason now acc chunk)
  exact (hfold (aliasChunks pairs) (urls, 0)).symm

end UrlRepository

/-- The next update begins. -/
def SafetyBlock.begin (writes : List BulkWrite) (urls : UrlStore) : SafetyBlock :=
  match writes with
  | [] => .idle
  | write :: later => .writing write (scanned urls) later

/-- One move of a block: the listings, evictions and events of the enforcer leave the links alone. -/
def SafetyBlock.move (answer : LinkAnswer) (block : SafetyBlock) (s : Stores) : SafetyBlock × Stores :=
  match block, answer.choice with
  | .idle, .blockHost host reason =>
    (.begin (UrlRepository.destHostWrites host reason answer.now) s.urls, s)
  | .idle, .blockAliases pairs reason =>
    (.begin (UrlRepository.aliasesWrites pairs reason answer.now) s.urls, s)
  | .writing write rest later, .visit urlId =>
    if urlId ∈ rest then
      (.writing write (rest.erase urlId) later,
        { s with urls := s.urls.updateOne urlId write.filter.Matches write.update })
    else (.writing write rest later, s)
  | .writing write rest later, .go =>
    if rest = [] then (.begin later s.urls, s) else (.writing write rest later, s)
  | .writing .., .fail => (.idle, s)
  | block, _ => (block, s)

namespace UrlService

/-- What the erasure does to the caches of a link. -/
def purge (edge : EdgeConfig) (existing : UrlV2Doc) (s : Stores) : Stores :=
  { s with
    cache := s.cache.invalidate existing.linkAlias existing.domain
    kv := if existing.metaTags.isSome && edge.enabled then
        ogRemove s.kv edge.systemDefaultDomain existing.domain existing.linkAlias
      else purgeEdgeKey edge s.kv existing.domain existing.linkAlias }

/-- One move of `delete_all_by_owner`. -/
def erase (edge : EdgeConfig) (answer : LinkAnswer) (erasure : LinkErasure) (s : Stores) :
    LinkErasure × Stores :=
  match erasure, answer.choice with
  | .idle, .erase ownerId =>
    if ownerId = anonymousOwnerId then (.idle, s)
    else (.purging ownerId (scanned s.urls) [], s)
  | .purging ownerId rest urlIds, .visit urlId =>
    if urlId ∈ rest then
      match (s.urls.lookup urlId).filter (UrlRepository.ownerFilter ownerId).Matches with
      | none => (.purging ownerId (rest.erase urlId) urlIds, s)
      | some row =>
        (.purging ownerId (rest.erase urlId) (urlIds ++ [urlId]), purge edge (.fromMongo row) s)
    else (.purging ownerId rest urlIds, s)
  | .purging ownerId rest urlIds, .go =>
    if rest = [] then (.scrubbing ownerId (scanned s.urls) urlIds 0, s)
    else (.purging ownerId rest urlIds, s)
  | .scrubbing ownerId rest urlIds blockedRetained, .visit urlId =>
    if urlId ∈ rest then
      let filter := (UrlRepository.blockedOwnerFilter ownerId).Matches
      let matched := (s.urls.lookup urlId).any filter
      (.scrubbing ownerId (rest.erase urlId) urlIds (blockedRetained + matched.toNat),
        { s with urls := s.urls.updateOne urlId filter UrlRepository.unsetPii })
    else (.scrubbing ownerId rest urlIds blockedRetained, s)
  | .scrubbing ownerId rest urlIds blockedRetained, .go =>
    if rest = [] then (.deleting ownerId (scanned s.urls) urlIds blockedRetained 0, s)
    else (.scrubbing ownerId rest urlIds blockedRetained, s)
  | .deleting ownerId rest urlIds blockedRetained deleted, .visit urlId =>
    if urlId ∈ rest then
      let filter := (UrlRepository.unblockedOwnerFilter ownerId).Matches
      let matched := (s.urls.lookup urlId).any filter
      (.deleting ownerId (rest.erase urlId) urlIds blockedRetained (deleted + matched.toNat),
        { s with urls := s.urls.deleteMany fun row => row.id = urlId && filter row })
    else (.deleting ownerId rest urlIds blockedRetained deleted, s)
  | .deleting ownerId rest urlIds blockedRetained deleted, .go =>
    if rest = [] then (.done ownerId ⟨deleted, blockedRetained, urlIds⟩, s)
    else (.deleting ownerId rest urlIds blockedRetained deleted, s)
  | .done ownerId result, _ => (.done ownerId result, s)
  | _, .fail => (.idle, s)
  | erasure, _ => (erasure, s)

end UrlService

/-- One move of an agent. -/
def LinkAgent.move {ι : Type} (edge : EdgeConfig) : Move ι LinkAnswer LinkAgent Stores :=
  fun _ answer agent s =>
    match agent with
    | .eraser erasure =>
      let moved := UrlService.erase edge answer erasure s
      (.eraser moved.1, moved.2)
    | .blocker block =>
      let moved := SafetyBlock.move answer block s
      (.blocker moved.1, moved.2)

end Spoo
