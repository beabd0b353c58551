import Spoo.Lib.Agents
import Spoo.Lib.PyDict
import Spoo.Lib.Redis

/-!
# CreationPatternScorer (`services/safety/scoring.py`)

The creates of a destination domain are counted in two fixed windows. A call reads the clock once for the
counters it increments, and again for each marker by which a window fires only once.
-/

namespace Spoo

open Agents Redis

/-- `_DAILY_WINDOW`. -/
def dailyWindow : Nat := 86400

/-- A window of a domain: the keys `l1:dom:{window}:{domain}:{bucket}` of its counter and
`l1:fired:dom:{window}:{domain}:{bucket}` of its marker. -/
structure PatternBucket where
  window : Nat
  domain : String
  bucket : Int
  deriving DecidableEq, Repr

/-- The bucket of a time, `int(time.time()) // window`. -/
def bucketAt (window : Nat) (now : Int) : Int := now / 1000000 / window

/-- The arguments of a create. The domain is one that `parse_destination` finds, and its host is not
empty. -/
structure CreateEvent where
  url : String
  host : String
  registrableDomain : String
  host_ne : host ≠ "" := by decide
  deriving DecidableEq, Repr

/-- The `SafetyAnalyzeEvent` that a window fires, with the context the scorer gives it. -/
structure PatternEvent where
  url : String
  host : String
  registrableDomain : String
  trigger : String := "pattern"
  windowSeconds : Nat
  creates : Nat
  deriving DecidableEq, Repr

/-- What a `CreationPatternScorer` is built from; the bounds are those of its settings. -/
structure CreationPatternScorer where
  hasRedis : Bool := true
  burstWindowSeconds : Nat := 600
  domainBurstThreshold : Nat := 50
  domainDailyThreshold : Nat := 300
  le_burstWindowSeconds : 60 ≤ burstWindowSeconds := by decide
  le_domainBurstThreshold : 2 ≤ domainBurstThreshold := by decide
  le_domainDailyThreshold : 2 ≤ domainDailyThreshold := by decide

/-- The queue Redis, what the sink was handed, and the clock. -/
structure PatternWorld where
  counters : Counters PatternBucket
  markers : Markers PatternBucket
  emitted : List PatternEvent := []
  clock : Int

/-- The clock goes on. -/
def PatternWorld.wait (s : PatternWorld) (delay : Nat) : PatternWorld :=
  { s with clock := s.clock + delay }

/-- The dict that `_bump` makes of the answers: the counts of the windows, each with its bucket. All
buckets of a call are of one time and one domain, so that they differ in their windows only. -/
abbrev PatternCounts : Type := List (PatternBucket × Nat)

/-- A call of `record_create`. The commands of the pipeline are sent together: each is run or lost
whatever comes of the others, and a failed one leaves no counts. -/
inductive RecordPhase where
  | called (event : CreateEvent)
  | incrementing (event : CreateEvent) (counts : Option PatternCounts) (bucket : PatternBucket)
    (pending : List PatternBucket)
  | expiring (event : CreateEvent) (counts : Option PatternCounts) (bucket : PatternBucket)
    (count : Option Nat) (pending : List PatternBucket)
  | checking (event : CreateEvent) (counts : PatternCounts) (fired : List PatternBucket)
  | marking (event : CreateEvent) (bucket : PatternBucket) (count : Nat) (marker : PatternBucket)
    (counts : PatternCounts) (fired : List PatternBucket)
  | done (fired : List PatternBucket)
  deriving DecidableEq, Repr

/-- The time since the last move of anyone, and what a Redis command comes to. -/
structure RecordAnswer where
  delay : Nat
  outcome : Outcome
  deriving DecidableEq, Repr

namespace CreationPatternScorer

variable (d : CreationPatternScorer)

/-- `self._thresholds[window]`. -/
def threshold (window : Nat) : Nat :=
  if window = dailyWindow then d.domainDailyThreshold else d.domainBurstThreshold

/-- What follows an `EXPIRE`: the next command of the pipeline, or the loop over the counts. -/
def afterExpire (event : CreateEvent) (counts : Option PatternCounts) : List PatternBucket → RecordPhase
  | bucket :: pending => .incrementing event counts bucket pending
  | [] =>
    match counts with
    | none => .done []
    | some counts => .checking event counts []

/-- `_on_domain_burst`. -/
def onDomainBurst (event : CreateEvent) (bucket : PatternBucket) (count : Nat) (s : PatternWorld) :
    PatternWorld :=
  { s with emitted := s.emitted ++
      [⟨event.url, event.host, event.registrableDomain, "pattern", bucket.window, count⟩] }

/-- One move of a call of `record_create` (`scoring.py:56-105`). -/
def move (outcome : Outcome) (phase : RecordPhase) (s : PatternWorld) : RecordPhase × PatternWorld :=
  match phase with
  | .called event =>
    if !d.hasRedis || event.registrableDomain = "" then (.done [], s)
    else
      let bucket (window : Nat) : PatternBucket :=
        ⟨window, event.registrableDomain, bucketAt window s.clock⟩
      (.incrementing event (some []) (bucket d.burstWindowSeconds) [bucket dailyWindow], s)
  | .incrementing event counts bucket pending =>
    let answer := s.counters.incr bucket s.clock
    match outcome with
    | .failedBefore => (.expiring event counts bucket none pending, s)
    | .failedAfter => (.expiring event counts bucket none pending, { s with counters := answer.2 })
    | .answered => (.expiring event counts bucket (some answer.1) pending, { s with counters := answer.2 })
  | .expiring event counts bucket count pending =>
    let expired := { s with counters := s.counters.expire bucket (bucket.window * 2) s.clock }
    match outcome with
    | .failedBefore => (afterExpire event none pending, s)
    | .failedAfter => (afterExpire event none pending, expired)
    | .answered =>
      let counts := counts.bind fun counts => count.map fun count =>
        PyDict.assignEntry bucket count counts
      (afterExpire event counts pending, expired)
  | .checking event counts fired =>
    match counts with
    | [] => (.done fired, s)
    | (bucket, count) :: counts =>
      if count < d.threshold bucket.window then (.checking event counts fired, s)
      else
        -- `_mark_fired` reads the clock anew.
        let marker := { bucket with bucket := bucketAt bucket.window s.clock }
        (.marking event bucket count marker counts fired, s)
  | .marking event bucket count marker counts fired =>
    let answer := s.markers.setNx marker (bucket.window * 2) s.clock
    match outcome with
    | .failedBefore => (.checking event counts fired, s)
    | .failedAfter => (.checking event counts fired, { s with markers := answer.2 })
    | .answered =>
      if answer.1 then
        (.checking event counts (fired ++ [bucket]),
          onDomainBurst event bucket count { s with markers := answer.2 })
      else (.checking event counts fired, { s with markers := answer.2 })
  | .done fired => (.done fired, s)

end CreationPatternScorer

/-- One move of a call. -/
def RecordPhase.move {ι : Type} (d : CreationPatternScorer) :
    Move ι RecordAnswer RecordPhase PatternWorld :=
  fun _ answer phase s => d.move answer.outcome phase (s.wait answer.delay)

end Spoo
