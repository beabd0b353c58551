import Spoo.Schemas.Click
import Spoo.Schemas.Webhook

/-!
# Requests for statistics (`schemas/dto/requests/stats.py`)

A request names its filters in an object of JSON, in a parameter for each dimension, or in both; then the
parameter counts. Only the names that an endpoint allows come through.
-/

namespace Spoo

/-- A value of the `filters` object, with `str` of what is in it. -/
inductive FilterValue where
  | null
  | list (items : List String)
  | other (value : String)
  deriving DecidableEq, Repr

/-- What the requests are read with. -/
structure StatsLib where
  /-- `json.loads`: `none` is a `JSONDecodeError`, and `some none` is no object. -/
  loads : String → Option (Option (PyDict String FilterValue))
  /-- `normalise_tag`, with the message of its `ValueError`. -/
  normaliseTag : String → Except String String

/-- The parameters that select clicks. A per-link request has none of the last four. -/
structure StatsParams where
  filters : Option String := none
  browser : Option String := none
  os : Option String := none
  device : Option String := none
  country : Option String := none
  city : Option String := none
  referrer : Option String := none
  utmSource : Option String := none
  utmMedium : Option String := none
  utmCampaign : Option String := none
  variant : Option String := none
  shortCode : Option String := none
  urlId : Option String := none
  tag : Option String := none
  tagId : Option String := none
  deriving DecidableEq, Repr

/-- Filters as the service takes them: the values that are asked for, by dimension. -/
abbrev StatsFilters := PyDict StatsDimension (List String)

/-- Why there are no statistics. -/
inductive StatsError where
  | invalidJson
  | invalidTag (message : String)
  | invalidTagIds (values : List String)
  | invalidUrlIds (values : List String)
  | authenticationRequired
  | notFound
  /-- A `ValueError` or an `InvalidId` that nothing catches. -/
  | uncaught
  deriving DecidableEq, Repr

/-- The text of an error of the request. -/
def StatsError.message : StatsError → Option String
  | .invalidJson => some "filters must be valid JSON"
  | .invalidTag message => some message
  | .invalidTagIds values => some ("invalid tag_id filter values: " ++ ", ".intercalate values)
  | .invalidUrlIds values => some ("invalid url_id filter values: " ++ ", ".intercalate values)
  | .authenticationRequired => some "authentication required"
  | .notFound | .uncaught => none

namespace StatsQuery

/-- `value.split(",")`. -/
def splitCommas (value : String) : List String := (value.toList.splitOn ',').map String.ofList

/-- `_parse_comma_separated`. -/
def parseCommaSeparated : FilterValue → List String
  | .null => []
  | .list items => items.map pyStrip
  | .other value => ((splitCommas value).map pyStrip).filter (· ≠ "")

/-- The parameter of a dimension. -/
def param (params : StatsParams) : StatsDimension → Option String
  | .browser => params.browser
  | .os => params.os
  | .device => params.device
  | .country => params.country
  | .city => params.city
  | .referrer => params.referrer
  | .utmSource => params.utmSource
  | .utmMedium => params.utmMedium
  | .utmCampaign => params.utmCampaign
  | .variant => params.variant
  | .shortCode => params.shortCode
  | .urlId => params.urlId
  | .tag => params.tag
  | .tagId => params.tagId
  | .time => none

/-- The entries of the `filters` object that are allowed. -/
def fromObject (allowed : List StatsDimension) (entries : List (String × FilterValue)) : StatsFilters :=
  entries.foldl (fun filters (key, value) =>
    match StatsDimension.ofValue key with
    | some dimension =>
      if dimension ∈ allowed then filters.assign dimension (parseCommaSeparated value) else filters
    | none => filters) .empty

/-- The parameters of some dimensions, on top of what is there. -/
def withParams (params : StatsParams) (dimensions : List StatsDimension) (filters : StatsFilters) :
    StatsFilters :=
  dimensions.foldl (fun filters dimension =>
    let raw := (param params dimension).getD ""
    if raw = "" then filters else filters.assign dimension (parseCommaSeparated (.other raw))) filters

/-- The dimensions that every request can be filtered by. -/
def dimensionParams : List StatsDimension :=
  [.browser, .os, .device, .country, .city, .referrer, .utmSource, .utmMedium, .utmCampaign, .variant]

variable (lib : StatsLib)

/-- The filters of `_parse_multi_value_fields` (`stats.py:200-234`). -/
def parseFilters (allowed : List StatsDimension) (params : StatsParams) :
    Except StatsError StatsFilters :=
  let raw := params.filters.getD ""
  if raw = "" then .ok (withParams params dimensionParams .empty)
  else match lib.loads raw with
    | none => .error .invalidJson
    | some none => .ok (withParams params dimensionParams .empty)
    | some (some object) =>
      .ok (withParams params dimensionParams (fromObject allowed object.entries))

/-- The ids among some values that are none. -/
def invalidIds (filters : StatsFilters) (dimension : StatsDimension) : List String :=
  ((filters.get? dimension).getD []).filter fun value => (parseObjectId value).isNone

/-- `StatsQuery._apply_identity_filters`. -/
def applyIdentityFilters (params : StatsParams) (filters : StatsFilters) :
    Except StatsError StatsFilters := do
  let filters := withParams params [.shortCode, .urlId, .tag, .tagId] filters
  if invalidIds filters .tagId ≠ [] then .error (.invalidTagIds (invalidIds filters .tagId))
  let filters ← match filters.get? .tag with
    | none => .ok filters
    | some values => do
      -- As on the write side.
      let names ← (values.mapM lib.normaliseTag).mapError StatsError.invalidTag
      .ok (filters.assign .tag names)
  if invalidIds filters .urlId ≠ [] then .error (.invalidUrlIds (invalidIds filters .urlId))
  return filters

/-- `StatsQuery.parsed_filters`. -/
def parsedFilters (params : StatsParams) : Except StatsError StatsFilters := do
  let filters ← parseFilters lib StatsDimension.allowedFilters params
  applyIdentityFilters lib params filters

/-- `LinkStatsQuery.parsed_filters`. -/
def parsedLinkFilters (params : StatsParams) : Except StatsError StatsFilters :=
  parseFilters lib StatsDimension.linkAllowedFilters params

end StatsQuery

end Spoo
