import Spoo.Lib.Paging
import Spoo.Services.StatsService
import Spoo.Services.UrlService.Handlers
import Spoo.Services.UrlService.StatusClause

/-!
# UrlService: the pages of an owner's links (`services/url_service.py:1678-1803`)

A page is two reads of one query: how many links match, and a slice of them in the order that was asked for. MongoDB
sorts links with equal values in any order, and need not do so alike in two answers.
-/

namespace Spoo

open Mongo

/-- A link with the date that the list is sorted by where nothing else is asked for. -/
structure ListedUrl extends StoredUrl where
  createdAt : BsonDate

/-- The unique index of `urlsV2`, as for `UrlRow`. -/
instance : Document ListedUrl ObjectId (String × String) :=
  ⟨fun doc => doc.row.id, fun doc => (doc.row.domain, doc.row.linkAlias)⟩

abbrev ListedUrlStore := Collection ListedUrl

/-! ## The request (`schemas/dto/requests/url.py:160-201, 614-720`) -/

/-- A JSON value of a date filter. -/
inductive DateValue where
  | text (s : String)
  | epoch (n : Int)
  deriving DecidableEq, Repr

/-- Neither empty nor zero. -/
def DateValue.truthy : DateValue → Bool
  | .text s => s ≠ ""
  | .epoch n => n ≠ 0

/-- `parse_datetime` (`shared/datetime_utils.py:16-44`), in microseconds: an epoch is one of the years 1 to 9999. -/
def parseDatetime (fromisoformat : String → Option Int) : DateValue → Option Int
  | .text s => fromisoformat (if s.endsWith "Z" then String.ofList (s.toList.dropLast ++ "+00:00".toList) else s)
  | .epoch n => if -62135596800 ≤ n ∧ n ≤ 253402300799 then some (n * 1000000) else none

inductive TagsMatch where
  | any
  | all
  deriving DecidableEq, Repr

/-- `UrlFilter`, with what its validators leave: a list of ids or names is not empty, and names no tag twice. -/
structure UrlFilter where
  status : Option UrlStatus := none
  createdAfter : Option DateValue := none
  createdBefore : Option DateValue := none
  passwordSet : Option Bool := none
  maxClicksSet : Option Bool := none
  search : Option String := none
  tagIds : Option (List ObjectId) := none
  tagNames : Option (List String) := none
  tagsMatch : TagsMatch := .any
  tagIds_ne : tagIds ≠ some [] := by simp
  tagNames_ne : tagNames ≠ some [] := by simp
  tagNames_nodup : (tagNames.getD []).Nodup := by simp

inductive UrlSortField where
  | createdAt
  | lastClick
  | totalClicks
  deriving DecidableEq, Repr

inductive UrlSortOrder where
  | ascending
  | asc
  | one
  | descending
  | desc
  | minusOne
  deriving DecidableEq, Repr

/-- `ListUrlsQuery`, with its filter parsed. -/
structure ListUrlsQuery where
  page : Nat := 1
  pageSize : Nat := 20
  sortBy : UrlSortField := .createdAt
  sortOrder : UrlSortOrder := .descending
  domain : Option String := none
  parsedFilter : Option UrlFilter := none
  page_bounds : 1 ≤ page := by omega
  pageSize_bounds : 1 ≤ pageSize ∧ pageSize ≤ 100 := by omega

/-- What the service is built on. -/
structure ListingLib where
  /-- `datetime.fromisoformat`, where a naive time is one of UTC. -/
  fromisoformat : String → Option Int
  /-- The search of a text for an escaped pattern, whatever the case. -/
  searches : String → String → Bool

/-! ## The query -/

/-- The field paths of the query. -/
inductive ListField where
  | ownerId
  | domain
  | createdAt
  | password
  | maxClicks
  | tagIds
  | linkAlias
  | longUrl
  | status
  | expireAfter
  | startsAt
  deriving DecidableEq

abbrev ListQuery := Query ListField ListedUrl

/-- A path of the status clause. -/
def StatusField.path : StatusField → ListField
  | .status => .status
  | .expireAfter => .expireAfter
  | .maxClicks => .maxClicks
  | .startsAt => .startsAt

/-- A key of the status clause. -/
def statusKey : Key StatusField → Key ListField
  | .field f => .field f.path
  | .or => .or
  | .nor => .nor
  | .and => .and
  | .expr => .expr

namespace UrlService

variable (lib : ListingLib)

/-- The status clause, as entries of the query. -/
def statusEntries (status : UrlStatus) (now : Int) : List (Key ListField × (ListedUrl → Bool)) :=
  (effectiveStatusClause status now).entries.map fun e => (statusKey e.1, fun doc => e.2 doc.toStoredUrl)

/-- `created_at`, where a bound can be parsed. -/
def createdAtEntry (f : UrlFilter) : Option (Key ListField × (ListedUrl → Bool)) :=
  let after := (f.createdAfter.filter DateValue.truthy).bind (parseDatetime lib.fromisoformat)
  let before := (f.createdBefore.filter DateValue.truthy).bind (parseDatetime lib.fromisoformat)
  if after.isSome || before.isSome then
    some (Query.field .createdAt fun doc =>
      after.all (BsonDate.encode · ≤ doc.createdAt) && before.all (doc.createdAt ≤ BsonDate.encode ·))
  else none

/-- `password`: null is also a missing field. -/
def passwordEntry (f : UrlFilter) : Option (Key ListField × (ListedUrl → Bool)) :=
  f.passwordSet.map fun wanted => Query.field .password fun doc => doc.row.password.isSome = wanted

def maxClicksEntry (f : UrlFilter) : Option (Key ListField × (ListedUrl → Bool)) :=
  f.maxClicksSet.map fun wanted => Query.field .maxClicks fun doc => doc.maxClicks.isNotNull = wanted

/-- `tag_ids`, where tags are asked for. No document has all of no tags (`$all` of an empty list). -/
def tagEntry (tags : Option TagStore) (ownerId : ObjectId) (f : UrlFilter) :
    Except AppError (Option (Key ListField × (ListedUrl → Bool))) := do
  if f.tagIds.isNone && f.tagNames.isNone then return none
  let ids := f.tagIds.getD []
  let named ← match f.tagNames, tags with
    | none, _ => .ok []
    | some _, none => .error ⟨.validation, "tags are not available", some "tag_ids"⟩
    | some names, some tags => .ok (StatsService.idsForNames tags ownerId names)
  let unresolved := decide (named.length < (f.tagNames.getD []).length)
  let wanted := ids ++ named.filter (· ∉ ids)
  let wanted := if f.tagsMatch = .all ∧ unresolved then [] else wanted
  return some (Query.field .tagIds fun doc =>
    if f.tagsMatch = .all then wanted ≠ [] && wanted.all (· ∈ doc.row.tagIds)
    else wanted.any (· ∈ doc.row.tagIds))

/-- `$or` over the alias and the destination. -/
def searchEntry (f : UrlFilter) : Option (Key ListField × (ListedUrl → Bool)) :=
  (f.search.filter (· ≠ "")).map fun text => Query.or [
    PyDict.ofList [Query.field .linkAlias fun doc => lib.searches text doc.row.linkAlias],
    PyDict.ofList [Query.field .longUrl fun doc => lib.searches text doc.row.longUrl]]

/-- The clauses that may have an operator of their own: one is merged, and several go under `$and`. -/
def withClauses (q : ListQuery) : List (List (Key ListField × (ListedUrl → Bool))) → ListQuery
  | [] => q
  | [clause] => q.extend clause
  | clauses => q.assign .and fun doc => clauses.all fun clause => clause.all fun e => e.2 doc

/-- What every list is asked with: the owner, and a domain. -/
def scopeEntries (ownerId : ObjectId) (query : ListUrlsQuery) : List (Key ListField × (ListedUrl → Bool)) :=
  Query.field .ownerId (fun doc => doc.row.ownerId = ownerId) ::
    ((query.domain.filter (· ≠ "")).map fun domain =>
      Query.field .domain fun doc : ListedUrl => doc.row.domain = domain).toList

/-- The filters that have a path of their own. -/
def fieldEntries (f : UrlFilter) : List (Key ListField × (ListedUrl → Bool)) :=
  (createdAtEntry lib f).toList ++ (passwordEntry f).toList ++ (maxClicksEntry f).toList

/-- The query of a list. -/
def listQuery (tags : Option TagStore) (ownerId : ObjectId) (query : ListUrlsQuery) (now : Int) :
    Except AppError ListQuery :=
  match query.parsedFilter with
  | none => .ok (PyDict.ofList (scopeEntries ownerId query))
  | some f => do
    let tagClause ← tagEntry tags ownerId f
    let clauses := (f.status.map (statusEntries · now)).toList ++ (tagClause.map ([·])).toList ++
      ((searchEntry lib f).map ([·])).toList
    return withClauses (PyDict.ofList (scopeEntries ownerId query ++ fieldEntries lib f)) clauses

end UrlService

/-! ## The pages -/

/-- The value that a link is sorted by. -/
def UrlSortField.value (field : UrlSortField) (doc : ListedUrl) : Option Int :=
  match field with
  | .createdAt => some doc.createdAt.ms
  | .lastClick => doc.row.lastClick.map (·.ms)
  | .totalClicks => some doc.row.totalClicks

/-- `sort_order`, with whether it is -1. -/
def UrlSortOrder.descends : UrlSortOrder → Bool
  | .desc | .descending | .minusOne => true
  | .ascending | .asc | .one => false

/-- MongoDB's order of the values: a missing one, like null, comes before every date. -/
def bsonLE : Option Int → Option Int → Bool
  | none, _ => true
  | some _, none => false
  | some a, some b => a ≤ b

/-- One link may come before another one. -/
def SortsBefore (field : UrlSortField) (order : UrlSortOrder) (a b : ListedUrl) : Prop :=
  if order.descends then bsonLE (field.value b) (field.value a) else bsonLE (field.value a) (field.value b)

instance (field : UrlSortField) (order : UrlSortOrder) : DecidableRel (SortsBefore field order) := fun a b =>
  inferInstanceAs (Decidable
    (if order.descends then bsonLE (field.value b) (field.value a) else bsonLE (field.value a) (field.value b)))

/-- What MongoDB may answer a query with. -/
abbrev SortedAnswer (links : ListedUrlStore) (q : ListQuery) (field : UrlSortField) (order : UrlSortOrder) :=
  { docs : List ListedUrl // Paging.Sorts (SortsBefore field order) (links.find q.Matches) docs }

namespace UrlRepository

/-- `count_by_query`. -/
def countByQuery (links : ListedUrlStore) (q : ListQuery) : Nat := (links.find q.Matches).length

/-- `find_by_owner` (`url_repository.py:946-975`). -/
def findByOwner {links : ListedUrlStore} {q : ListQuery} {field : UrlSortField} {order : UrlSortOrder}
    (answer : SortedAnswer links q field order) (skip limit : Nat) : List ListedUrl := (answer.val.drop skip).take limit

end UrlRepository

/-- The result of `list_by_owner`. -/
structure UrlListPage where
  items : List ListedUrl
  page : Nat
  pageSize : Nat
  total : Nat
  hasNext : Bool
  sortBy : UrlSortField
  /-- `"descending"` or `"ascending"`. -/
  sortOrder : String

namespace UrlService

/-- `list_by_owner`, of the query that was built (`url_service.py:1757-1803`). -/
def listPage {links : ListedUrlStore} {q : ListQuery} (query : ListUrlsQuery) (page : Nat)
    (answer : SortedAnswer links q query.sortBy query.sortOrder) : UrlListPage :=
  let skip := (page - 1) * query.pageSize
  let total := UrlRepository.countByQuery links q
  let docs := UrlRepository.findByOwner answer skip query.pageSize
  { items := docs
    page
    pageSize := query.pageSize
    total
    hasNext := decide (skip + docs.length < total)
    sortBy := query.sortBy
    sortOrder := if query.sortOrder.descends then "descending" else "ascending" }

/-- The links that are met from a page on, by going to the next page as long as there is one
(`static/js/dashboard/links.js:1008-1010`). Each page is answered on its own; the query is one, so that a status
clause has the time of the first page on all of them. -/
def listFrom {links : ListedUrlStore} {q : ListQuery} (query : ListUrlsQuery)
    (answers : Nat → SortedAnswer links q query.sortBy query.sortOrder) : Nat → Nat → List ListedUrl
  | 0, _ => []
  | fuel + 1, page =>
    let result := listPage query page (answers page)
    result.items ++ if result.hasNext then listFrom query answers fuel (page + 1) else []

end UrlService

end Spoo
