import Spoo.Lib.Agents
import Spoo.Lib.Redis

/-!
# HotUrlDetector (`services/click/consumers/hotness.py`)

A click is counted under the window its own time falls into, and the counter lives for two windows from
the time the click is processed. The click that brings the counter to the threshold runs the actions.
-/

namespace Spoo

open Agents Redis

/-- What the detector reads of a `ClickEvent`. -/
structure ClickEvent where
  shortCode : String
  /-- `url.domain`. -/
  domain : String := ""
  enqueuedAt : Int
  deriving DecidableEq, Repr

/-- `HotUrl`. -/
structure HotUrl where
  domain : String
  shortCode : String
  count : Nat
  windowBucket : Int
  deriving DecidableEq, Repr

/-- What a `HotUrlDetector` is built from; the actions go by the names of their types. -/
structure HotUrlDetector where
  threshold : Nat
  windowSeconds : Nat
  actions : List String
  deriving DecidableEq, Repr

/-- The counters, and the clock. -/
structure HotnessWorld where
  counters : Counters String
  clock : Int

/-- The clock goes on. -/
def HotnessWorld.wait (s : HotnessWorld) (delay : Nat) : HotnessWorld :=
  { s with clock := s.clock + delay }

/-- A window of a URL. -/
structure HotWindow where
  domain : String
  shortCode : String
  windowBucket : Int
  deriving DecidableEq, Repr

/-- The key `hot:{domain}:{short_code}:{bucket}`. -/
def HotWindow.key (window : HotWindow) : String :=
  "hot:" ++ window.domain ++ ":" ++ window.shortCode ++ ":" ++ toString window.windowBucket

/-- The window that a `HotUrl` is about. -/
def HotUrl.window (hot : HotUrl) : HotWindow := ⟨hot.domain, hot.shortCode, hot.windowBucket⟩

/-- A call of `consume`. The two commands of the pipeline are sent together: the second is run or lost
whatever comes of the first. -/
inductive ConsumePhase where
  | received (payload : Option ClickEvent)
  | incrementing (window : HotWindow)
  | expiring (window : HotWindow) (count : Option Nat)
  | acting (hot : HotUrl) (actions : List String)
  | done (fired : Option HotUrl)
  deriving DecidableEq, Repr

/-- The time since the last move of anyone, and what a Redis command comes to. -/
structure ConsumeAnswer where
  delay : Nat
  outcome : Outcome
  deriving DecidableEq, Repr

namespace HotUrlDetector

variable (d : HotUrlDetector)

/-- The window of a click, by the time the click was made. -/
def windowOf (event : ClickEvent) : HotWindow where
  domain := if event.domain = "" then "default" else event.domain
  shortCode := event.shortCode
  windowBucket := event.enqueuedAt / 1000000 / d.windowSeconds

/-- What follows the pipeline: the actions run at exactly the threshold. -/
def compare (window : HotWindow) (count : Nat) : ConsumePhase :=
  if count ≠ d.threshold then .done none
  else .acting ⟨window.domain, window.shortCode, count, window.windowBucket⟩ d.actions

/-- One move of a call of `consume` (`hotness.py:80-120`). An action that fails is logged, and the next
one runs. -/
def move (outcome : Outcome) (phase : ConsumePhase) (s : HotnessWorld) : ConsumePhase × HotnessWorld :=
  match phase with
  | .received payload =>
    match payload with
    | none => (.done none, s)
    | some event => (.incrementing (d.windowOf event), s)
  | .incrementing window =>
    let answer := s.counters.incr window.key s.clock
    match outcome with
    | .failedBefore => (.expiring window none, s)
    | .failedAfter => (.expiring window none, { s with counters := answer.2 })
    | .answered => (.expiring window (some answer.1), { s with counters := answer.2 })
  | .expiring window count =>
    let counters := s.counters.expire window.key (d.windowSeconds * 2) s.clock
    match outcome with
    | .failedBefore => (.done none, s)
    | .failedAfter => (.done none, { s with counters })
    | .answered =>
      match count with
      | none => (.done none, { s with counters })
      | some count => (d.compare window count, { s with counters })
  | .acting hot actions =>
    match actions with
    | [] => (.done (some hot), s)
    | _ :: rest => (.acting hot rest, s)
  | .done fired => (.done fired, s)

end HotUrlDetector

/-- One move of a call. -/
def ConsumePhase.move {ι : Type} (d : HotUrlDetector) : Move ι ConsumeAnswer ConsumePhase HotnessWorld :=
  fun _ answer phase s => d.move answer.outcome phase (s.wait answer.delay)

end Spoo
