import Mathlib.Data.Int.Order.Basic

/-!
# Ints and datetimes (`shared/datetime_utils.py`)

A Python `datetime` is naive or aware. Request values and `datetime.now(timezone.utc)` are
aware in UTC: they stand for an instant, an `Int` of microseconds since the epoch. The Mongo
client is not `tz_aware` and returns naive ones, and Python's `==` between the two kinds is
false.
-/

namespace Spoo

/-- A Python `datetime`, naive or aware in UTC, in microseconds since the epoch. -/
inductive Datetime where
  | naive (us : Int)
  | aware (us : Int)
  deriving DecidableEq, Repr

/-- A BSON date: whole milliseconds since the epoch. -/
structure BsonDate where
  ms : Int
  deriving DecidableEq, Repr

/-- `as_aware_utc`: naive values are taken as UTC (`datetime_utils.py:88-95`). -/
def asAwareUtc : Datetime → Int
  | .naive us => us
  | .aware us => us

/-- `to_unix_timestamp`, truncating towards zero (`datetime_utils.py:52-69`). -/
def toUnixTimestamp (dt : Datetime) : Int := (asAwareUtc dt).tdiv 1000000

/-- `to_unix_timestamp_ceil` (`datetime_utils.py:72-85`). -/
def toUnixTimestampCeil (dt : Datetime) : Int := -((-asAwareUtc dt) / 1000000)

/-- How the driver stores an instant: the part below a millisecond is dropped. -/
def BsonDate.encode (us : Int) : BsonDate := ⟨us / 1000⟩

/-- How the driver reads a date back: a naive `datetime`. -/
def BsonDate.decode (d : BsonDate) : Datetime := .naive (d.ms * 1000)

/-- A ceiled timestamp is never before the instant it stands for. -/
theorem le_toUnixTimestampCeil (dt : Datetime) :
    asAwareUtc dt ≤ toUnixTimestampCeil dt * 1000000 := by
  simp only [toUnixTimestampCeil]
  omega

end Spoo
