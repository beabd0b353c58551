import Spoo.Lib.Mongo
import Spoo.Shared.DatetimeUtils
import Spoo.Shared.UrlUtils

/-!
# The feed-domain repository (`repositories/feed_domain_repository.py`)

One document a feed and a domain, under an `_id` of both. A refresh writes what was downloaded under
a new stamp and deletes the documents of the feed that carry an older one. Stamps are in
milliseconds, which is what BSON keeps of them, in the documents and in the filter.
-/

namespace Spoo

open Mongo Mongo.Collection

/-- A document of `safety_feed_domains`. -/
structure FeedDomainDoc where
  id : String
  feed : DocField String
  domain : DocField String
  syncedAt : DocField Int
  deriving DecidableEq, Repr

instance : Document FeedDomainDoc String String := ⟨(·.id), (·.id)⟩

/-- The `safety_feed_domains` collection. -/
abbrev FeedStore := Collection FeedDomainDoc

/-- The field paths the queries filter on. -/
inductive FeedDomainField where
  | feed
  | syncedAt
  deriving DecidableEq

abbrev FeedDomainQuery := Query FeedDomainField FeedDomainDoc

namespace FeedDomainRepository

/-- `_BULK_BATCH`. -/
def bulkBatch : Nat := 5000

/-- `_key`. -/
def key (feed domain : String) : String := feed ++ ":" ++ domain

/-- `UpdateOne({"_id": …}, {"$set": …}, upsert=True)` with the values that `$set` has. -/
structure UpdateOne where
  feed : String
  domain : String
  syncedAt : Int
  deriving DecidableEq, Repr

namespace UpdateOne

variable (op : UpdateOne)

/-- The document where there was none. -/
def doc : FeedDomainDoc where
  id := key op.feed op.domain
  feed := .value op.feed
  domain := .value op.domain
  syncedAt := .value op.syncedAt

/-- `$set`. -/
def set : KeyedUpdate FeedDomainDoc where
  apply doc := { doc with
    feed := .value op.feed
    domain := .value op.domain
    syncedAt := .value op.syncedAt }
  id_apply _ := rfl
  key_apply _ := rfl

def run (store : FeedStore) (op : UpdateOne) : FeedStore := store.upsertOne op.set op.doc

end UpdateOne

/-- The order in which the server takes the operations of an unordered bulk write. -/
structure ServerOrder where
  order : List UpdateOne → List UpdateOne
  perm : ∀ ops, (order ops).Perm ops

/-- `bulk_write(ops, ordered=False)`. -/
def bulkWrite (server : ServerOrder) (store : FeedStore) (ops : List UpdateOne) : FeedStore :=
  (server.order ops).foldl UpdateOne.run store

/-- `{"feed": feed}`. -/
def feedFilter (feed : String) : FeedDomainQuery :=
  PyDict.ofList [Query.field .feed fun doc => doc.feed.is feed]

/-- `{"feed": feed, "synced_at": {"$lt": now}}`. -/
def staleFilter (feed : String) (now : Int) : FeedDomainQuery :=
  PyDict.ofList [
    Query.field .feed fun doc => doc.feed.is feed,
    Query.field .syncedAt fun doc => doc.syncedAt.lt now]

/-- The strings of `distinct("domain", {"feed": feed})`. -/
def distinctDomains (store : FeedStore) (feed : String) : List String :=
  ((store.find (feedFilter feed).Matches).filterMap (·.domain.toOption)).dedup

section

variable (lib : UrlLib) (server : ServerOrder) (store : FeedStore) (feed : String)

/-- `str(raw).strip().lower().rstrip(".")`. -/
def normalise (raw : String) : String := rstripDots (lib.lower (pyStrip raw))

/-- The local variables of `replace_feed` that the loop changes, with the collection. -/
structure Sync where
  store : FeedStore
  kept : Nat := 0
  newDomains : List String := []
  batch : List UpdateOne := []

/-- One turn of the loop of `replace_feed`. -/
def syncStep (existing : List String) (now : Int) (s : Sync) (raw : String) : Sync :=
  let domain := normalise lib raw
  if domain = "" then s
  else
    let newDomains := if domain ∈ existing then s.newDomains else s.newDomains.insert domain
    let batch := s.batch ++ [⟨feed, domain, now⟩]
    if bulkBatch ≤ batch.length then
      { store := bulkWrite server s.store batch, kept := s.kept + 1, newDomains, batch := [] }
    else { store := s.store, kept := s.kept + 1, newDomains, batch }

/-- What `replace_feed` returns. -/
structure Replaced where
  kept : Nat
  purged : Nat
  newDomains : List String
  deriving DecidableEq, Repr

/-- `replace_feed`, at `clock` in microseconds (`feed_domain_repository.py:33-76`). -/
def replaceFeed (domains : List String) (clock : Int) : Replaced × FeedStore :=
  let existing := distinctDomains store feed
  let now := (BsonDate.encode clock).ms
  let s := domains.foldl (syncStep lib server feed existing now) { store }
  let written := if s.batch = [] then s.store else bulkWrite server s.store s.batch
  if s.kept = 0 then (⟨s.kept, 0, s.newDomains⟩, written)
  else
    -- A download without a domain purges nothing.
    (⟨s.kept, (written.find (staleFilter feed now).Matches).length, s.newDomains⟩,
      written.deleteMany (staleFilter feed now).Matches)

/-- The form of a domain that `contains` looks up. -/
def probe (domain : String) : String := rstripDots (lib.lower domain)

/-- `contains` (`feed_domain_repository.py:100-104`). -/
def contains (domain : String) : Bool := (store.lookup (key feed (probe lib domain))).isSome

end

end FeedDomainRepository

end Spoo
