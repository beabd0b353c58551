import Spoo.Lib.Calendar
import Spoo.Lib.Grid
import Spoo.Lib.PyDict

/-!
# Time buckets (`shared/time_bucket_utils.py`)

MongoDB names the bucket of a click by its time on the clock of the caller's zone. The series is filled up
with the names that a loop over the wall clock comes to, from the start of the window to its end.
-/

namespace Spoo

open Calendar Grid

/-- `TimeBucketStrategy`. -/
inductive TimeBucketStrategy where
  | minute10
  | hourly
  | daily
  | weekly
  | monthly
  deriving DecidableEq, Repr

def TimeBucketStrategy.value : TimeBucketStrategy → String
  | .minute10 => "10_minute"
  | .hourly => "hourly"
  | .daily => "daily"
  | .weekly => "weekly"
  | .monthly => "monthly"

/-- `TimeBucketConfig`. -/
structure TimeBucketConfig where
  strategy : TimeBucketStrategy
  mongoFormat : List Directive
  intervalMinutes : Nat
  displayFormat : List Directive := mongoFormat
  deriving DecidableEq, Repr

/-- `%Y-W%U`. -/
def weekFormat : List Directive := [.year, .char '-', .char 'W', .week]

/-- `%Y-%m`. -/
def monthFormat : List Directive := [.year, .char '-', .month]

/-- `BUCKET_CONFIGS`. -/
def bucketConfigs : TimeBucketStrategy → TimeBucketConfig
  | .minute10 => { strategy := .minute10, mongoFormat := minuteFormat, intervalMinutes := 10 }
  | .hourly => { strategy := .hourly, mongoFormat := hourFormat, intervalMinutes := 60 }
  | .daily => { strategy := .daily, mongoFormat := dateFormat, intervalMinutes := 1440 }
  | .weekly => { strategy := .weekly, mongoFormat := weekFormat, intervalMinutes := 10080 }
  | .monthly => { strategy := .monthly, mongoFormat := monthFormat, intervalMinutes := 43200 }

/-- `determine_optimal_bucket_strategy` (`time_bucket_utils.py:76-109`). -/
def determineOptimalBucketStrategy (startDate endDate : Option Int) : TimeBucketStrategy :=
  match startDate, endDate with
  | some startDate, some endDate =>
    if endDate - startDate ≤ microsPerHour then .minute10
    else if endDate - startDate ≤ 24 * microsPerHour then .hourly
    else .daily
  | _, _ => .daily

/-- `get_optimal_bucket_config`. -/
def getOptimalBucketConfig (startDate endDate : Option Int) : TimeBucketConfig :=
  bucketConfigs (determineOptimalBucketStrategy startDate endDate)

/-- A time zone of the tz database, which `zoneinfo` and MongoDB both read. -/
structure Zone where
  /-- The offset from UTC at an instant. -/
  offset : Int → Int
  /-- `$dateFromParts`: the instant that the zone has for a time of its wall clock. -/
  fromParts : Int → Int
  neg_lt_offset : ∀ t, -microsPerDay < offset t
  offset_lt : ∀ t, offset t < microsPerDay
  /-- A time that the clock shows is one that is read back, at one of the instants where it shows it. -/
  fromParts_shown : ∀ t, fromParts (t + offset t) + offset (fromParts (t + offset t)) = t + offset t
  /-- A time that the clock skips is moved, by less than a day. -/
  lt_fromParts : ∀ w, w - microsPerDay < fromParts w + offset (fromParts w)
  fromParts_lt : ∀ w, fromParts w + offset (fromParts w) < w + microsPerDay

namespace Zone

variable (zone : Zone)

/-- The time on the wall clock at an instant. -/
def wall (t : Int) : Int := t + zone.offset t

/-- `dt.astimezone(tz)`: `none` is an `OverflowError`. -/
def astimezone (t : Int) : Option Int :=
  if 0 ≤ dayOf (zone.wall t) ∧ dayOf (zone.wall t) < daysBeforeYear 10000 then some (zone.wall t) else none

/-- `$dateToString` with a timezone. -/
def dateToString (format : List Directive) (t : Int) : String := strftime format (stampOf (zone.wall t))

end Zone

/-- Ten minutes. -/
def tenMinutes : Int := 10 * microsPerMinute

/-- What `create_mongo_time_bucket_pipeline` makes of the time of a click (`time_bucket_utils.py:136-217`). -/
def mongoTimeBucket (config : TimeBucketConfig) (zone : Zone) (clickedAt : Int) : String :=
  if config.strategy = .minute10 then
    -- The parts of the time with the minute rounded down, and nothing below it.
    zone.dateToString minuteFormat (zone.fromParts (floorTo tenMinutes (zone.wall clickedAt)))
  else zone.dateToString config.mongoFormat clickedAt

/-- `format_time_bucket_display` (`time_bucket_utils.py:220-257`). -/
def formatTimeBucketDisplay (bucketValue : String) (config : TimeBucketConfig) : String :=
  match config.strategy with
  | .minute10 => ((strptime bucketValue).map (strftime minuteFormat)).getD bucketValue
  | .hourly =>
    let withTime := if ':' ∈ bucketValue.toList then bucketValue else bucketValue ++ " 00:00"
    ((strptime withTime).map (strftime hourFormat)).getD withTime
  | _ => bucketValue

/-- The first instant of the next month. -/
def nextMonth (w : Int) : Int :=
  let date := dateOf (dayOf w)
  w + (((monthLengths date.year)[date.month - 1]?).getD 31 : Nat) * microsPerDay

/-- `generate_complete_time_buckets`, between two times of a wall clock (`time_bucket_utils.py:260-332`). -/
def generateCompleteTimeBuckets (startDate endDate : Int) (config : TimeBucketConfig) : List String :=
  let day := floorTo microsPerDay startDate
  match config.strategy with
  | .minute10 =>
    (collect (· + tenMinutes) (floorTo tenMinutes startDate) endDate).map (strftime minuteFormat ∘ stampOf)
  | .hourly =>
    (collect (· + microsPerHour) (floorTo microsPerHour startDate) endDate).map
      (strftime hourFormat ∘ stampOf)
  | .daily => (collect (· + microsPerDay) day endDate).map (strftime dateFormat ∘ stampOf)
  | .weekly =>
    (collect (· + 7 * microsPerDay) (day - weekday (dayOf day) * microsPerDay) endDate).map
      (strftime weekFormat ∘ stampOf)
  | .monthly =>
    let first := day - ((dateOf (dayOf day)).day - 1 : Nat) * microsPerDay
    (collect nextMonth first endDate).map (strftime monthFormat ∘ stampOf)

/-- A row of a series. -/
structure TimeRow where
  date : String
  totalClicks : Nat
  uniqueClicks : Nat
  bucketStrategy : String
  rawBucket : String
  deriving DecidableEq, Repr

/-- `fill_missing_buckets` (`time_bucket_utils.py:335-386`). -/
def fillMissingBuckets (actualResults : List TimeRow) (startDate endDate : Int) (config : TimeBucketConfig) :
    List TimeRow :=
  let actualMap := PyDict.ofList (actualResults.map fun row => (row.date, row))
  (generateCompleteTimeBuckets startDate endDate config).map fun bucket =>
    (actualMap.get? bucket).getD ⟨bucket, 0, 0, config.strategy.value, bucket⟩

end Spoo
