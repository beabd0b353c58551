import Mathlib.Data.List.Sort
import Spoo.Schemas.Click
import Spoo.Shared.TimeBucketUtils

/-!
# Clicks grouped by a dimension (`shared/aggregation_strategies.py`)

A strategy reads one field of each click. Clicks without it go to a default. The strategy for the time
groups by buckets, and fills up the series of the buckets.
-/

namespace Spoo

open Mongo

/-- `FieldAggregationStrategy`. -/
structure FieldAggregationStrategy where
  mongoField : ClickDoc → DocField StoredScalar
  outputKey : String
  limit : Nat := 20
  default : Option String := none
  /-- `transform_fn`: without one a value, which is a text, is shown as it is. -/
  transform : StoredScalar → String := StoredScalar.str

/-- A row of the answer. -/
structure StatsBucket where
  value : String
  totalClicks : Nat
  uniqueClicks : Nat
  deriving DecidableEq, Repr

namespace FieldAggregationStrategy

variable (strategy : FieldAggregationStrategy)

/-- `{"$ifNull": [field, default]}`. -/
def groupId (click : ClickDoc) : StoredScalar :=
  match strategy.mongoField click with
  | .value v => v
  | _ => .text (strategy.default.getD "Unknown")

/-- The value that a click is counted under. -/
def bucketOf (click : ClickDoc) : String := strategy.transform (strategy.groupId click)

/-- The row of a group. -/
def group (clicks : List ClickDoc) (id : StoredScalar) : StatsBucket where
  value := strategy.transform id
  totalClicks := clicks.countP fun click => strategy.groupId click = id
  uniqueClicks := ((clicks.filter fun click => strategy.groupId click = id).map (·.ipAddress)).dedup.length

/-- `build_pipeline` and `format_results`: the groups with the most clicks. MongoDB leaves the order of
groups of one size open. -/
def buckets (clicks : List ClickDoc) : List StatsBucket :=
  let groups := ((clicks.map strategy.groupId).dedup).map (strategy.group clicks)
  (groups.insertionSort fun a b => b.totalClicks ≤ a.totalClicks).take strategy.limit

end FieldAggregationStrategy

/-- `_FIELD_STRATEGIES`, with `convert_country_name` from the library. -/
def fieldStrategies (convertCountryName : String → String) : StatsDimension → Option FieldAggregationStrategy
  | .browser => some { mongoField := (·.field .browser), outputKey := "browser", limit := 20 }
  | .os => some { mongoField := (·.field .os), outputKey := "os", limit := 20 }
  | .device => some
      { mongoField := (·.field .device), outputKey := "device", limit := 20, default := some "unknown" }
  | .country => some {
      mongoField := (·.field .country)
      outputKey := "country"
      limit := 50
      transform := fun value => convertCountryName value.str }
  | .city => some { mongoField := (·.field .city), outputKey := "city", limit := 50 }
  | .referrer => some
      { mongoField := (·.field .referrer), outputKey := "referrer", limit := 30, default := some "Direct" }
  | .shortCode => some
      { mongoField := fun click => .value (.text click.shortCode), outputKey := "short_code", limit := 100 }
  | .utmSource => some
      { mongoField := (·.field .utmSource), outputKey := "utm_source", limit := 50, default := some "(none)" }
  | .utmMedium => some
      { mongoField := (·.field .utmMedium), outputKey := "utm_medium", limit := 50, default := some "(none)" }
  | .utmCampaign => some {
      mongoField := (·.field .utmCampaign)
      outputKey := "utm_campaign"
      limit := 50
      default := some "(none)" }
  | .variant => some
      { mongoField := (·.field .variant), outputKey := "variant", limit := 50, default := some "(default)" }
  | .time | .urlId | .tag | .tagId => none

namespace FieldAggregationStrategy

variable {strategy : FieldAggregationStrategy} {clicks : List ClickDoc} {bucket : StatsBucket}

/-- A row is the group of some of the clicks. -/
theorem exists_of_mem_buckets (h : bucket ∈ strategy.buckets clicks) :
    ∃ click ∈ clicks, bucket = strategy.group clicks (strategy.groupId click) := by
  have hgroups := (List.mem_insertionSort _).1 (List.mem_of_mem_take h)
  obtain ⟨id, hid, rfl⟩ := List.mem_map.1 hgroups
  obtain ⟨click, hclick, rfl⟩ := List.mem_map.1 (List.mem_dedup.1 hid)
  exact ⟨click, hclick, rfl⟩

/-- The value of a row is that of the clicks in it. -/
theorem exists_bucketOf (h : bucket ∈ strategy.buckets clicks) :
    ∃ click ∈ clicks, strategy.bucketOf click = bucket.value := by
  obtain ⟨click, hclick, rfl⟩ := exists_of_mem_buckets h
  exact ⟨click, hclick, rfl⟩

end FieldAggregationStrategy

/-- `TimeAggregationStrategy`, without the legacy `time_format`, which no one gives. -/
structure TimeAggregationStrategy where
  startDate : Option Int := none
  endDate : Option Int := none
  timezone : Zone

namespace TimeAggregationStrategy

variable (strategy : TimeAggregationStrategy)

def bucketConfig : TimeBucketConfig := getOptimalBucketConfig strategy.startDate strategy.endDate

/-- The `_id` that a click is grouped by. -/
def groupId (click : ClickDoc) : String :=
  mongoTimeBucket strategy.bucketConfig strategy.timezone click.clickedAt

/-- `format_results` of one group. -/
def formatResult (clicks : List ClickDoc) (id : String) : TimeRow where
  date := formatTimeBucketDisplay id strategy.bucketConfig
  totalClicks := clicks.countP fun click => strategy.groupId click = id
  uniqueClicks := ((clicks.filter fun click => strategy.groupId click = id).map (·.ipAddress)).dedup.length
  bucketStrategy := strategy.bucketConfig.strategy.value
  rawBucket := id

/-- `build_pipeline` and `format_results`: `none` is an `OverflowError`. -/
def formatResults (clicks : List ClickDoc) : Option (List TimeRow) :=
  let ids := (clicks.map strategy.groupId).dedup.insertionSort (· ≤ ·)
  let formatted := ids.map (strategy.formatResult clicks)
  match strategy.startDate, strategy.endDate with
  | some startDate, some endDate =>
    match strategy.timezone.astimezone startDate, strategy.timezone.astimezone endDate with
    | some startInTz, some endInTz =>
      some (fillMissingBuckets formatted startInTz endInTz strategy.bucketConfig)
    | _, _ => none
  | _, _ => some formatted

end TimeAggregationStrategy

end Spoo
