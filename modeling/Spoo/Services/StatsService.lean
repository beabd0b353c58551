import Spoo.Lib.Fallible
import Spoo.Repositories.TagRepository
import Spoo.Repositories.UrlRepository
import Spoo.Schemas.Stats
import Spoo.Shared.AggregationStrategies

/-!
# The match stages of the statistics (`services/stats_service.py`)

Each call reads the clicks that one filter document selects. It is built in place: the scope first, then
a clause for each dimension that is filtered by, and the alternatives of both last.
-/

namespace Spoo

open Mongo

/-- A filter document over `clicks`. -/
abbrev ClickQuery := Query String ClickDoc

/-- A `$match` that is being built, with the alternatives that go under `$or`. -/
structure ClickMatch where
  query : ClickQuery
  orGroups : List (List ClickQuery) := []

/-- The window of a call. -/
structure StatsWindow where
  startDate : Int
  endDate : Int
  deriving DecidableEq, Repr

/-- The links and the tags. -/
structure StatsStores where
  urls : UrlStore
  tags : TagStore

/-- Why there is no window: a `ValidationError`, or an `OverflowError` that nothing catches. -/
inductive WindowError where
  | validation (message : String)
  | overflow
  deriving DecidableEq, Repr

namespace StatsService

/-! ## The window and the zone -/

/-- A bound of the window, as the request has it. -/
def parseBound (parseDatetime : String → Option Int) (message : String) (raw : Option String) :
    Except WindowError (Option Int) :=
  match raw.filter (· ≠ "") with
  | none => .ok none
  | some raw =>
    match parseDatetime raw with
    | none => .error (.validation message)
    | some t => .ok (some t)

/-- The bounds with their defaults. -/
def defaultWindow (now : Int) : Option Int → Option Int → StatsWindow
  | none, none => ⟨now - 7 * Calendar.microsPerDay, now⟩
  | none, some endDate => ⟨endDate - 7 * Calendar.microsPerDay, endDate⟩
  | some startDate, none => ⟨startDate, now⟩
  | some startDate, some endDate => ⟨startDate, endDate⟩

/-- The bounds, not beyond now, and what is demanded of them. -/
def checkWindow (maxDateRangeDays : Nat) (now : Int) (window : StatsWindow) :
    Except WindowError StatsWindow :=
  let startDate := min window.startDate now
  let endDate := min window.endDate now
  if Calendar.dayOf window.startDate < 0 then .error .overflow
  else if endDate < startDate then .error (.validation "start_date must be before end_date")
  else if maxDateRangeDays < (endDate - startDate) / Calendar.microsPerDay then
    .error (.validation ("date range cannot exceed " ++ toString maxDateRangeDays ++ " days"))
  else .ok ⟨startDate, endDate⟩

/-- `_resolve_window` (`stats_service.py:160-198`). -/
def resolveWindow (parseDatetime : String → Option Int) (maxDateRangeDays : Nat) (now : Int)
    (startRaw endRaw : Option String) : Except WindowError StatsWindow := do
  let startDate ← parseBound parseDatetime "invalid start_date format" startRaw
  let endDate ← parseBound parseDatetime "invalid end_date format" endRaw
  checkWindow maxDateRangeDays now (defaultWindow now startDate endDate)

/-- `_TIMEZONE_ALIASES`. -/
def timezoneAliases : PyDict String String := .ofList
  [("Asia/Calcutta", "Asia/Kolkata"), ("Asia/Katmandu", "Asia/Kathmandu"), ("Asia/Rangoon", "Asia/Yangon"),
    ("Asia/Saigon", "Asia/Ho_Chi_Minh"), ("US/Eastern", "America/New_York"),
    ("US/Central", "America/Chicago"), ("US/Mountain", "America/Denver"),
    ("US/Pacific", "America/Los_Angeles")]

/-- `normalize_timezone` (`stats_service.py:141-154`). -/
def normalizeTimezone (known : String → Bool) (tzName : String) : String :=
  let tzName := (timezoneAliases.get? tzName).getD tzName
  if known tzName then tzName else "UTC"

/-- The series over the time that `compute` answers for the clicks it has matched: an exception leaves
every dimension without rows. -/
def timeSeries (zoneInfo : String → Zone) (known : String → Bool) (tzName : String) (window : StatsWindow)
    (clicks : List ClickDoc) : List TimeRow :=
  let strategy : TimeAggregationStrategy :=
    { startDate := some window.startDate
      endDate := some window.endDate
      timezone := zoneInfo (normalizeTimezone known tzName) }
  (strategy.formatResults clicks).getD []

/-! ## Filters -/

/-- `_NO_URL_ID`. -/
def noUrlId : String := "000000000000000000000000"

/-- `_NULL_SENTINEL_FILTERS`. -/
def nullSentinel : StatsDimension → Option String
  | .referrer => some "Direct"
  | .device => some "unknown"
  | .utmSource => some "(none)"
  | .utmMedium => some "(none)"
  | .utmCampaign => some "(none)"
  | .variant => some "(default)"
  | _ => none

/-- `int(v) if v.isdigit() else v`. -/
def storedVariant (value : String) : Except StatsError StoredScalar :=
  if Py.isdigit value then
    match Py.int? value with
    | some n => .ok (.number n)
    | none => .error .uncaught
  else .ok (.text value)

/-- `_stored_values` (`stats_service.py:92-96`). -/
def storedValues (dimension : StatsDimension) (values : List String) :
    Except StatsError (List StoredScalar) :=
  if dimension = .variant then values.mapM storedVariant else .ok (values.map .text)

/-- `ObjectId(value)`. -/
def objectId (value : String) : Except StatsError ObjectId :=
  match parseObjectId value with
  | some i => .ok i
  | none => .error .uncaught

/-! ## The clauses -/

/-- A clause on the field of a dimension. -/
def onField (dimension : StatsDimension) (test : DocField StoredScalar → Bool) :
    Key String × (ClickDoc → Bool) :=
  Query.field dimension.storedField fun click => test (click.field dimension)

/-- `{field: {"$in": stored}}`. -/
def isStored (dimension : StatsDimension) (stored : List StoredScalar) : Key String × (ClickDoc → Bool) :=
  onField dimension fun field => field.isIn stored

/-- The alternatives of a dimension that is filtered by its sentinel. -/
def sentinelGroup (dimension : StatsDimension) (stored : List StoredScalar) : List ClickQuery :=
  [PyDict.ofList [isStored dimension stored],
    PyDict.ofList [onField dimension fun field => !field.isNotNull || field.is (.text "")],
    PyDict.ofList [onField dimension fun field => !field.isPresent]]

/-- `{"meta.owner_id": owner}`. -/
def ownerIs (ownerId : ObjectId) : Key String × (ClickDoc → Bool) :=
  Query.field "meta.owner_id" fun click => click.ownerId = ownerId

/-- `{"meta.url_id": {"$in": ids}}`. -/
def urlIdIn (ids : List ObjectId) : Key String × (ClickDoc → Bool) :=
  Query.field "meta.url_id" fun click => click.urlId ∈ ids

/-- `{"clicked_at": {"$gte": start, "$lte": end}}`. -/
def clickedWithin (window : StatsWindow) : Key String × (ClickDoc → Bool) :=
  Query.field "clicked_at" fun click => window.startDate ≤ click.clickedAt ∧ click.clickedAt ≤ window.endDate

/-- `query[key] = clause`. -/
def set (m : ClickMatch) (clause : Key String × (ClickDoc → Bool)) : ClickMatch :=
  { m with query := m.query.assign clause.1 clause.2 }

/-- One turn of the loop of `_apply_dimension_filters` (`stats_service.py:285-336`). -/
def applyFilter (m : ClickMatch) (entry : StatsDimension × List String) : Except StatsError ClickMatch :=
  let (dimension, values) := entry
  if values = [] then .ok m
  else if dimension = .shortCode then
    .ok (set m (Query.field "meta.short_code" fun click => click.shortCode ∈ values))
  else if dimension = .urlId then
    -- The lock of the per-link scope is the only clause on the owner there.
    if .field "meta.url_id" ∈ m.query.keys then .ok m
    else do
      let ids ← values.mapM objectId
      return set m (urlIdIn ids)
  else do
    let stored ← storedValues dimension values
    if (nullSentinel dimension).any (· ∈ values) then
      return { m with orGroups := m.orGroups ++ [sentinelGroup dimension stored] }
    else return set m (isStored dimension stored)

/-- `_apply_dimension_filters`. -/
def applyDimensionFilters (m : ClickMatch) (filters : StatsFilters) : Except StatsError ClickMatch :=
  filters.entries.foldlM applyFilter m

/-- `_merge_or_groups` (`stats_service.py:338-347`). -/
def mergeOrGroups (m : ClickMatch) : ClickQuery :=
  match m.orGroups with
  | [] => m.query
  | [group] => m.query.extend [Query.or group]
  | groups => m.query.extend [Query.and (groups.map fun group => PyDict.ofList [Query.or group])]

/-! ## The scopes -/

/-- The scope of `_build_click_query` (`stats_service.py:224-243`). -/
def accountScope (ownerId : ObjectId) (window : StatsWindow) (claimedUrlIds : List ObjectId) : ClickMatch :=
  if claimedUrlIds = [] then { query := PyDict.ofList [ownerIs ownerId, clickedWithin window] }
  else {
    query := PyDict.ofList [clickedWithin window]
    orGroups := [[PyDict.ofList [ownerIs ownerId], PyDict.ofList [urlIdIn claimedUrlIds]]] }

/-- The scope of `query_link` and of `_query_v2_stats`. -/
def linkScope (urlId : ObjectId) (window : StatsWindow) : ClickMatch where
  query := PyDict.ofList
    [Query.field "meta.url_id" fun click => click.urlId = urlId, clickedWithin window]

/-- A `$match` from its scope and its filters. -/
def buildMatch (scope : ClickMatch) (filters : StatsFilters) : Except StatsError ClickQuery := do
  let m ← applyDimensionFilters scope filters
  return mergeOrGroups m

/-- `_build_click_query`. -/
def buildClickQuery (ownerId : ObjectId) (window : StatsWindow) (filters : StatsFilters)
    (claimedUrlIds : List ObjectId) : Except StatsError ClickQuery :=
  buildMatch (accountScope ownerId window claimedUrlIds) filters

/-- `list_claimed_ids` (`url_repository.py:194-225`). -/
def listClaimedIds (urls : UrlStore) (ownerId : ObjectId) : List ObjectId :=
  ((urls.find fun row => row.ownerId = ownerId && row.claimedAt.isSome).map UrlRow.id).take 1024

/-- `str` of an id. -/
def objectIdText (i : ObjectId) : String :=
  let digits := Nat.toDigits 16 i
  String.ofList (List.replicate (24 - digits.length) '0' ++ digits)

/-- `list_ids_by_owner_and_tag_ids`. -/
def listIdsByOwnerAndTagIds (urls : UrlStore) (ownerId : ObjectId) (tagIds : List ObjectId) :
    List ObjectId :=
  (urls.find fun row => row.ownerId = ownerId && row.tagIds.any (· ∈ tagIds)).map UrlRow.id

/-- `TagService.ids_for_names`. -/
def idsForNames (tags : TagStore) (ownerId : ObjectId) (names : List String) : List ObjectId :=
  (tags.find fun doc => doc.ownerId = ownerId && doc.name ∈ names).map TagDoc.id

/-- `_resolve_tag_filter`, with a tag service (`stats_service.py:245-283`). -/
def resolveTagFilter (stores : StatsStores) (filters : StatsFilters) (ownerId : ObjectId) :
    Except StatsError StatsFilters := do
  let names := (filters.get? .tag).getD []
  let rawIds := (filters.get? .tagId).getD []
  if names = [] ∧ rawIds = [] then return filters
  let resolved := (filters.pop .tag).pop .tagId
  let given ← rawIds.mapM objectId
  let named := idsForNames stores.tags ownerId names
  let tagIds := given ++ named.filter (· ∉ given)
  let ids := ((listIdsByOwnerAndTagIds stores.urls ownerId tagIds).map objectIdText).dedup
  let explicit := (resolved.get? .urlId).getD []
  let ids := if explicit = [] then ids else ids.filter (· ∈ explicit)
  let sorted := ids.insertionSort (· ≤ ·)
  return resolved.assign .urlId (if sorted = [] then [noUrlId] else sorted)

end StatsService

/-- A call for statistics, as its route gets it. -/
inductive StatsCall where
  | account (params : StatsParams) (ownerId : Option ObjectId)
  | link (params : StatsParams) (urlId caller : ObjectId)
  | publicPage (urlId : ObjectId)
  deriving DecidableEq, Repr

namespace StatsService

variable (lib : StatsLib) (stores : StatsStores) (window : StatsWindow)

/-- `UrlService.get_owned`. -/
def getOwned (urls : UrlStore) (urlId caller : ObjectId) : Except StatsError UrlRow :=
  match urls.findOne fun row => row.id = urlId && row.ownerId = caller with
  | none => .error .notFound
  | some row => .ok row

/-- The `$match` of `query` (`stats_service.py:629-673`). -/
def queryMatch (params : StatsParams) (ownerId : Option ObjectId) : Except StatsError ClickQuery := do
  let filters ← StatsQuery.parsedFilters lib params
  match ownerId with
  | none => .error .authenticationRequired
  | some ownerId =>
    let claimedUrlIds := listClaimedIds stores.urls ownerId
    let resolved ← resolveTagFilter stores filters ownerId
    buildClickQuery ownerId window resolved claimedUrlIds

/-- The `$match` of `query_link`, for the link that the route has found (`stats_service.py:735-743`). -/
def queryLinkMatch (params : StatsParams) (urlId caller : ObjectId) : Except StatsError ClickQuery := do
  let filters ← StatsQuery.parsedLinkFilters lib params
  let url ← getOwned stores.urls urlId caller
  buildMatch (linkScope url.id window) filters

/-- The `$match` of a call. -/
def matchStage : StatsCall → Except StatsError ClickQuery
  | .account params ownerId => queryMatch lib stores window params ownerId
  | .link params urlId caller => queryLinkMatch lib stores window params urlId caller
  -- `_query_v2_stats` adds nothing to the scope of the link.
  | .publicPage urlId => buildMatch (linkScope urlId window) .empty

end StatsService

end Spoo
