import Spoo.Lib.Agents
import Spoo.Lib.Redis
import Mathlib.Order.Lattice

/-!
# The dual cache (`infrastructure/cache/dual_cache.py`)

An answer is kept twice as JSON, for a shorter and for a longer time. Where only the second copy is left it is
returned, and one request goes on to load the answer anew; where there is none, one request loads it and the others get
nothing. That it is one, a lock is for that runs out by itself. Without Redis every request runs the query. Written
along are the changes of what is queried, the answers, and the longest time that a load has taken from its query to the
cache. Keys do not meddle with each other, and this is one.
-/

namespace Spoo

open Agents

/-- Where an answer is from. -/
inductive DualSource where
  | live
  | stale
  | loaded
  deriving DecidableEq, Repr

/-- What a request got, with the time at which the copy was read, or the query run. -/
structure DualAnswer (α : Type) where
  readAt : Int
  source : DualSource
  value : α

/-- What the query yields, with its changes, and the two copies and the lock, with the times at which they run out. -/
structure DualWorld (α β : Type) where
  history : List (Int × α)
  live : Option (β × Int) := none
  stale : Option (β × Int) := none
  lock : Option Int := none
  clock : Int
  lag : Int := 0
  answers : List (DualAnswer α) := []

/-- What a load is for: a request that waits for it, or nobody. -/
inductive DualLoader where
  | request
  | background
  deriving DecidableEq, Repr

/-- Where a call stands. A load knows when its lock runs out. -/
inductive DualPhase (α β : Type) where
  | idle
  | calling
  | gettingLive
  | gettingStale
  | locking (stale : Option (β × Int))
  | querying (loader : DualLoader) (expiresAt : Int)
  | settingLive (loader : DualLoader) (expiresAt : Int) (data : α) (serialized : β) (readAt : Int)
  | settingStale (loader : DualLoader) (expiresAt : Int) (data : α) (serialized : β) (readAt : Int)
  | unlocking (expiresAt : Int) (data : α) (readAt : Int)

/-- What comes with a move. -/
inductive DualChoice (α : Type) where
  | go
  | request
  /-- What the query yields changes. -/
  | change (value : α)
  /-- The call fails, and has had its effect or not. -/
  | fail (outcome : Redis.Outcome)

/-- The time since the last move of anyone, and what comes with this one. -/
structure DualEvent (α : Type) where
  delay : Nat := 0
  choice : DualChoice α := .go

/-- What a cache is built from and called with. -/
structure DualConfig (α β : Type) where
  primaryTtl : Nat := 300
  staleTtl : Nat := 900
  lockTtl : Nat := 30
  /-- There is a client for Redis. -/
  redis : Bool := true
  /-- `json.dumps(serializer_fn(data))`, `none` where it raises. -/
  serialize : α → Option β
  /-- `json.loads`. -/
  loads : β → α

namespace DualCache

variable {α β : Type} (cfg : DualConfig α β)

def answer (readAt : Int) (source : DualSource) (value : α) (s : DualWorld α β) : DualWorld α β :=
  { s with answers := ⟨readAt, source, value⟩ :: s.answers }

/-- A copy that has not run out. -/
def current (copy : Option (β × Int)) (s : DualWorld α β) : Option β :=
  (copy.filter fun copy => s.clock < copy.2).map Prod.fst

/-- `SET NX EX`, with whether it is acquired. -/
def acquire (s : DualWorld α β) : Option (Int × DualWorld α β) :=
  if s.lock.any (s.clock < ·) then none
  else some (s.clock + cfg.lockTtl * 1000, { s with lock := some (s.clock + cfg.lockTtl * 1000) })

/-- The lock is asked for (`dual_cache.py:84-130`). With the longer copy at hand it is returned in any case. -/
def locking (stale : Option (β × Int)) (s : DualWorld α β) : DualPhase α β × DualWorld α β :=
  match acquire cfg s, stale with
  | some (expiresAt, s'), some (text, readAt) =>
    (.querying .background expiresAt, answer readAt .stale (cfg.loads text) s')
  | some (expiresAt, s'), none => (.querying .request expiresAt, s')
  | none, some (text, readAt) => (.idle, answer readAt .stale (cfg.loads text) s)
  | none, none => (.idle, s)

/-- `SETEX` of the first copy. -/
def setLive (serialized : β) (readAt : Int) (s : DualWorld α β) : DualWorld α β := { s with
  live := some (serialized, s.clock + cfg.primaryTtl * 1000), lag := max s.lag (s.clock - readAt) }

/-- `SETEX` of the second copy. -/
def setStale (serialized : β) (readAt : Int) (s : DualWorld α β) : DualWorld α β := { s with
  stale := some (serialized, s.clock + cfg.staleTtl * 1000), lag := max s.lag (s.clock - readAt) }

/-- What a call that fails leaves, with how much of it was done. -/
def failed (outcome : Redis.Outcome) (phase : DualPhase α β) (s : DualWorld α β) :
    DualPhase α β × DualWorld α β :=
  if outcome = .failedBefore then (.idle, s)
  else match phase with
    | .locking _ => (.idle, ((acquire cfg s).map Prod.snd).getD s)
    | .settingLive _ _ _ serialized readAt => (.idle, setLive cfg serialized readAt s)
    | .settingStale _ _ _ serialized readAt => (.idle, setStale cfg serialized readAt s)
    | .unlocking .. => (.idle, { s with lock := none })
    | _ => (.idle, s)

/-- One move of `get_or_set` or `_refresh` (`dual_cache.py:49-166`), or a change of what is queried. -/
def move (choice : DualChoice α) (phase : DualPhase α β) (s : DualWorld α β) : DualPhase α β × DualWorld α β :=
  match choice, phase with
  | .fail outcome, phase => failed cfg outcome phase s
  | .request, .idle => (if cfg.redis then .gettingLive else .calling, s)
  | .change value, .idle => (.idle, { s with history := (s.clock, value) :: s.history })
  | _, .idle => (.idle, s)
  | _, .calling =>
    match s.history.head? with
    | none => (.idle, s)
    | some change => (.idle, answer s.clock .loaded change.2 s)
  | _, .gettingLive =>
    match current s.live s with
    | some text => (.idle, answer s.clock .live (cfg.loads text) s)
    | none => (.gettingStale, s)
  | _, .gettingStale => (.locking ((current s.stale s).map (·, s.clock)), s)
  | _, .locking stale => locking cfg stale s
  | _, .querying loader expiresAt =>
    match s.history.head? with
    | none => (.idle, s)
    | some change =>
      match cfg.serialize change.2 with
      | none => (.idle, s)
      | some serialized => (.settingLive loader expiresAt change.2 serialized s.clock, s)
  | _, .settingLive loader expiresAt data serialized readAt =>
    (.settingStale loader expiresAt data serialized readAt, setLive cfg serialized readAt s)
  | _, .settingStale loader expiresAt data serialized readAt =>
    (if loader = .background then .idle else .unlocking expiresAt data readAt,
      setStale cfg serialized readAt s)
  | _, .unlocking _ data readAt => (.idle, answer readAt .loaded data { s with lock := none })

end DualCache

/-- The clock goes on. -/
def DualWorld.wait {α β : Type} (s : DualWorld α β) (delay : Nat) : DualWorld α β :=
  { s with clock := s.clock + delay }

/-- One move of anyone. -/
def DualPhase.step {ι α β : Type} (cfg : DualConfig α β) :
    Move ι (DualEvent α) (DualPhase α β) (DualWorld α β) :=
  fun _ event phase s => DualCache.move cfg event.choice phase (s.wait event.delay)

/-- The value with which everything begins, and empty caches. -/
def DualWorld.start {α β : Type} (value : α) (clock : Int) : DualWorld α β := { history := [(clock, value)], clock }

end Spoo
