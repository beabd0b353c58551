import Spoo.Lib.Agents
import Spoo.Lib.Redis
import Spoo.Schemas.Url
import Mathlib.Order.Lattice

/-!
# Feature flags (`services/feature_flag_service.py`, `infrastructure/cache/feature_flag_cache.py`)

A flag is edited in the database, and asked for through a cache that keeps it for a while, or keeps for a shorter while
that there is none. Written along are the edits with their times, the answers, and the longest time that a lookup has
taken from the database to the cache.
-/

namespace Spoo

open Agents

/-- `RolloutType`. -/
inductive RolloutType where
  | off
  | everyone
  | allowlist
  | percentage
  | hexDigit
  | tier
  deriving DecidableEq, Repr

/-- `FeatureFlagDoc`, as it is read. -/
structure FeatureFlagDoc where
  name : String
  enabled : Bool := false
  rolloutType : RolloutType := .off
  allowlistUserIds : List ObjectId := []
  allowlistEmails : List String := []
  percentage : Nat := 0
  enabledDigits : List Char := []
  tier : Option String := none
  deriving DecidableEq, Repr

/-- What the service reads of a `CurrentUser`. -/
structure FlagUser where
  userId : ObjectId
  email : Option String := none
  tier : Option String := none
  deriving DecidableEq, Repr

/-- What the service is built on, and the settings of the cache. -/
structure FlagConfig where
  /-- `str.lower`. -/
  lower : String → String
  /-- `_stable_hash`. -/
  stableHash : ObjectId → String → Nat
  /-- `_digit_bucket`. -/
  digitBucket : ObjectId → String → Char
  ttlSeconds : Nat := 60
  negativeTtlSeconds : Nat := 30
  /-- Without Redis, every lookup goes to the database. -/
  redis : Bool := true

/-- `is_user_in_allowlist`. -/
def FeatureFlagDoc.isUserInAllowlist (cfg : FlagConfig) (flag : FeatureFlagDoc) (user : FlagUser) : Bool :=
  flag.allowlistUserIds.contains user.userId ||
    (user.email.filter (· ≠ "")).any fun email => flag.allowlistEmails.contains (cfg.lower email)

namespace FeatureFlagService

/-- `is_enabled`, of the flag that was looked up (`feature_flag_service.py:117-161`). -/
def isEnabled (cfg : FlagConfig) (flag : Option FeatureFlagDoc) (user : Option FlagUser) : Bool :=
  match flag with
  | none => false
  | some flag =>
    if flag.enabled = false then false
    else match flag.rolloutType, user with
      | .off, _ => false
      | .everyone, _ => true
      | _, none => false
      | .allowlist, some user => flag.isUserInAllowlist cfg user
      | .percentage, some user => decide (cfg.stableHash user.userId flag.name < flag.percentage)
      | .hexDigit, some user => flag.enabledDigits.contains (cfg.digitBucket user.userId flag.name)
      | .tier, some user => flag.tier.isSome && user.tier = flag.tier

end FeatureFlagService

/-- A question that was answered. -/
structure FlagAnswer where
  name : String
  user : Option FlagUser
  time : Int
  enabled : Bool
  /-- The database did not answer. -/
  failed : Bool := false
  deriving DecidableEq, Repr

/-- The edits of each flag, the cache with the times at which its entries run out, and the clock. -/
structure FlagWorld where
  flags : String → List (Int × Option FeatureFlagDoc)
  cache : String → Option (Option FeatureFlagDoc × Int) := fun _ => none
  clock : Int
  lag : Int := 0
  answers : List FlagAnswer := []

/-- Where a question stands. -/
inductive FlagPhase where
  | idle
  | getting (name : String) (user : Option FlagUser)
  | finding (name : String) (user : Option FlagUser)
  | storing (name : String) (user : Option FlagUser) (flag : Option FeatureFlagDoc) (readAt : Int)
  deriving DecidableEq, Repr

/-- What comes with a move. -/
inductive FlagChoice where
  | go
  | ask (name : String) (user : Option FlagUser)
  /-- An edit in the database. -/
  | edit (name : String) (flag : Option FeatureFlagDoc)
  /-- `pull_allowlisted`. -/
  | pullAllowlisted (userId : ObjectId) (email : String)
  /-- `invalidate`. -/
  | invalidate (name : String)
  /-- The call fails, and has had its effect or not. -/
  | fail (outcome : Redis.Outcome)
  deriving DecidableEq, Repr

/-- The time since the last move of anyone, and what comes with this one. -/
structure FlagEvent where
  delay : Nat := 0
  choice : FlagChoice := .go
  deriving DecidableEq, Repr

namespace FeatureFlagService

variable (cfg : FlagConfig)

/-- The flag that is stored. -/
def stored (name : String) (s : FlagWorld) : Option FeatureFlagDoc := (s.flags name).head?.bind Prod.snd

/-- A question is answered with what was looked up. -/
def answer (name : String) (user : Option FlagUser) (flag : Option FeatureFlagDoc) (s : FlagWorld) :
    FlagPhase × FlagWorld :=
  (.idle, { s with answers := ⟨name, user, s.clock, isEnabled cfg flag user, false⟩ :: s.answers })

/-- The cache is asked. -/
def getting (choice : FlagChoice) (name : String) (user : Option FlagUser) (s : FlagWorld) :
    FlagPhase × FlagWorld :=
  match choice, (s.cache name).filter fun copy => s.clock < copy.2 with
  | .fail _, _ => (.finding name user, s)
  | _, none => (.finding name user, s)
  | _, some copy => answer cfg name user copy.1 s

/-- The database is asked. -/
def finding (choice : FlagChoice) (name : String) (user : Option FlagUser) (s : FlagWorld) :
    FlagPhase × FlagWorld :=
  match choice with
  | .fail _ => (.idle, { s with answers := ⟨name, user, s.clock, false, true⟩ :: s.answers })
  | _ => (.storing name user (stored name s) s.clock, s)

/-- How long the cache keeps a flag, or that there is none. -/
def keptFor (flag : Option FeatureFlagDoc) : Int :=
  if flag.isSome then cfg.ttlSeconds * 1000 else cfg.negativeTtlSeconds * 1000

/-- The cache is written, which never fails the lookup. -/
def storing (choice : FlagChoice) (name : String) (user : Option FlagUser) (flag : Option FeatureFlagDoc)
    (readAt : Int) (s : FlagWorld) : FlagPhase × FlagWorld :=
  answer cfg name user flag { s with
    cache := fun key =>
      if key = name ∧ cfg.redis = true ∧ choice ≠ .fail .failedBefore then some (flag, s.clock + keptFor cfg flag)
      else s.cache key
    lag := max s.lag (s.clock - readAt) }

/-- A flag without a user in its lists. -/
def pulled (userId : ObjectId) (email : String) (flag : FeatureFlagDoc) : FeatureFlagDoc :=
  { flag with
    allowlistUserIds := flag.allowlistUserIds.filter (· ≠ userId)
    allowlistEmails := flag.allowlistEmails.filter fun entry => entry ≠ email ∧ entry ≠ cfg.lower email }

/-- What happens to the flags and the cache beside the questions. -/
def beside (choice : FlagChoice) (s : FlagWorld) : FlagWorld :=
  match choice with
  | .edit name flag => { s with
      flags := fun key => if key = name then (s.clock, flag) :: s.flags key else s.flags key }
  | .pullAllowlisted userId email => { s with
      flags := fun key => match stored key s with
        | none => s.flags key
        | some flag => (s.clock, some (pulled cfg userId email flag)) :: s.flags key }
  | .invalidate name => { s with cache := fun key => if key = name then none else s.cache key }
  | _ => s

/-- One move of a question, or of what goes on beside it. -/
def move (choice : FlagChoice) (phase : FlagPhase) (s : FlagWorld) : FlagPhase × FlagWorld :=
  match phase with
  | .idle =>
    match choice with
    | .ask name user => (if cfg.redis then .getting name user else .finding name user, s)
    | choice => (.idle, beside cfg choice s)
  | .getting name user => getting cfg choice name user s
  | .finding name user => finding choice name user s
  | .storing name user flag readAt => storing cfg choice name user flag readAt s

end FeatureFlagService

/-- The clock goes on. -/
def FlagWorld.wait (s : FlagWorld) (delay : Nat) : FlagWorld := { s with clock := s.clock + delay }

/-- One move of anyone. -/
def FlagPhase.step {ι : Type} (cfg : FlagConfig) : Move ι FlagEvent FlagPhase FlagWorld :=
  fun _ event phase s => FeatureFlagService.move cfg event.choice phase (s.wait event.delay)

end Spoo
