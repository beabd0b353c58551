import Spoo.Lib.Agents
import Spoo.Lib.PyList
import Spoo.Repositories.UserRepository

/-!
# Account erasure (`services/account_erasure_service.py`)

Sweeps look for accounts whose deadline has passed, claim them one by one and delete what belongs to
them, while owners ask for the deletion of their accounts and take it back. Each access to a
collection, each reading of the clock and each deletion is a move of its own, and an exception or a
crash can come at any of them.
-/

namespace Spoo

open Agents

/-! ## The cascade -/

/-- Where the data of an account lies. -/
inductive DataKind where
  | url
  | customDomain
  | tag
  | click
  | apiKey
  | verificationToken
  | pageLayout
  | appGrant
  | webhookEndpoint
  | webhookEvent
  | webhookDelivery
  | reportSubmission
  | reporter
  | allowlisted
  | object
  | person
  deriving DecidableEq, Repr

/-- A document, an identifier in a shared document, an object or a person of the analytics. -/
structure DataItem where
  kind : DataKind
  id : ObjectId
  owner : ObjectId
  email : Option String := none
  /-- Of a click. -/
  urlId : Option ObjectId := none
  /-- Of a stored object. -/
  key : String := ""
  /-- Of a link. -/
  blocked : Bool := false
  scrubbed : Bool := false
  deriving DecidableEq, Repr

/-- How the service is set up. -/
structure ErasureConfig where
  batchLimit : Nat := 25
  timeBudgetSeconds : Nat := 480
  claimLeaseSeconds : Nat := 900
  graceDays : Nat
  r2Configured : Bool := false
  /-- `owner_key_prefix` under the service's secret. -/
  ownerKeyPrefix : ObjectId → String

/-- The deletions of a cascade. -/
inductive EraseStep where
  | urls
  | customDomains
  | tags
  | clicksByUrlIds (urlIds : List ObjectId)
  | clicksByOwner
  | apiKeys
  | verificationTokens
  | pageLayouts
  | appGrants
  | webhookEndpoints
  | webhookEvents
  | webhookDeliveries
  | reportSubmissions
  | reporters
  | allowlists
  | objects
  | person
  deriving DecidableEq, Repr

/-- `_CLICK_ID_CHUNK`. -/
def clickIdChunk : Nat := 500

namespace AccountErasureService

/-- The prefixes under which the objects of the account may lie (`erase`). -/
def r2Prefixes (cfg : ErasureConfig) (user : UserDoc) : List String :=
  let computed := cfg.ownerKeyPrefix user.id
  match user.storagePrefix with
  | none => [computed]
  | some stored =>
    if stored = "" then [computed]
    else if stored = computed then [stored] else [stored, computed]

/-- The key is under one of the scopes of `_sweep_r2`. -/
def inScope (prefixes : List String) (key : String) : Bool :=
  prefixes.any fun ownerPrefix =>
    ["profile-pictures/" ++ ownerPrefix ++ "/", "og/" ++ ownerPrefix ++ "/"].any fun scope =>
      scope.toList.isPrefixOf key.toList

/-- What a deletion goes for. -/
def hits (cfg : ErasureConfig) (user : UserDoc) (step : EraseStep) (item : DataItem) : Bool :=
  let owned (kind : DataKind) := item.kind = kind && item.owner = user.id
  let ownedOrMailed (kind : DataKind) :=
    item.kind = kind && (item.owner = user.id || item.email = some user.email)
  match step with
  | .urls => owned .url
  | .customDomains => owned .customDomain
  | .tags => owned .tag
  | .clicksByUrlIds urlIds => item.kind = .click && item.urlId.any (urlIds.contains ·)
  | .clicksByOwner => owned .click
  | .apiKeys => owned .apiKey
  | .verificationTokens =>
    if user.email = "" then owned .verificationToken else ownedOrMailed .verificationToken
  | .pageLayouts => owned .pageLayout
  | .appGrants => owned .appGrant
  | .webhookEndpoints => owned .webhookEndpoint
  | .webhookEvents => owned .webhookEvent
  | .webhookDeliveries => owned .webhookDelivery
  | .reportSubmissions => ownedOrMailed .reportSubmission
  | .reporters => owned .reporter
  | .allowlists =>
    owned .allowlisted || item.kind = .allowlisted &&
      (item.email = some user.email || item.email = some user.email.toLower)
  | .objects =>
    cfg.r2Configured && item.kind = .object && inScope (r2Prefixes cfg user) item.key
  | .person => owned .person

/-- What a deletion leaves of an item. A blocked link is kept and scrubbed. -/
def eraseItem (cfg : ErasureConfig) (user : UserDoc) (step : EraseStep) (item : DataItem) :
    Option DataItem :=
  if hits cfg user step item then
    if item.kind = .url && item.blocked then some { item with scrubbed := true } else none
  else some item

/-- The ids that `delete_all_by_owner` returns. -/
def urlIds (user : UserDoc) (data : List DataItem) : List ObjectId :=
  (data.filter fun item => item.kind = .url && item.owner = user.id).map (·.id)

/-- The deletions after the links (`account_erasure_service.py:207-253`). -/
def stepsAfterUrls (urlIds : List ObjectId) : List EraseStep :=
  [.customDomains, .tags] ++ (PyList.chunks clickIdChunk urlIds).map .clicksByUrlIds ++
    [.clicksByOwner, .apiKeys, .verificationTokens, .pageLayouts, .appGrants, .webhookEndpoints,
      .webhookEvents, .webhookDeliveries, .reportSubmissions, .reporters, .allowlists, .objects,
      .person]

end AccountErasureService

/-! ## Sweeps and owners -/

/-- What the collections do not keep. -/
inductive ErasureEntry (ι : Type) where
  | requested (user : ObjectId)
  | restored (user : ObjectId)
  /-- A claim that was won, the status and the deadline that it found, and its time. -/
  | claimed (who : ι) (user : ObjectId) (was : UserStatus) (purgeAfter : Option Int) (claimedAt : Int)
  deriving DecidableEq, Repr

/-- The accounts, their data, the clock, the mails that confirm an erasure, and the log, the newest
entry first. -/
structure ErasureWorld (ι : Type) where
  users : UserStore
  data : List DataItem
  clock : Int
  mails : List String := []
  log : List (ErasureEntry ι) := []

/-- Where a sweep stands. -/
inductive SweepPhase where
  | waiting
  | selecting (now : Int)
  | sweeping (started : Int) (due : List ObjectId)
  | claiming (started : Int) (user : ObjectId) (now : Int) (due : List ObjectId)
  | claimed (started : Int) (user : ObjectId) (due : List ObjectId)
  | erasing (started : Int) (user : UserDoc) (steps : List EraseStep) (due : List ObjectId)
  | mailing (started : Int) (email : String) (due : List ObjectId)
  deriving DecidableEq, Repr

/-- A sweep, or someone at an account, with the account and the time of a request that is being
written. -/
inductive ErasureAgent where
  | sweep (phase : SweepPhase)
  | owner (request : Option (ObjectId × Int))
  deriving DecidableEq, Repr

/-- What comes with a move. -/
inductive ErasureChoice where
  | go
  /-- `erase` of one account. -/
  | erase (user : ObjectId)
  | requestDeletion (user : ObjectId)
  | restore (user : ObjectId)
  /-- An exception, after a deletion has gone through so many items. -/
  | fail (reached : Nat)
  | crash
  deriving DecidableEq, Repr

/-- The time since the last move of anyone, and what comes with this one. -/
structure ErasureAnswer where
  delay : Nat
  choice : ErasureChoice
  deriving DecidableEq, Repr

namespace AccountErasureService

variable {ι : Type} (cfg : ErasureConfig)

/-- A deletion that goes through the items it is given. -/
def deleteFrom (s : ErasureWorld ι) (user : UserDoc) (step : EraseStep) (reached : Nat) :
    ErasureWorld ι :=
  { s with
    data := (s.data.take reached).filterMap (eraseItem cfg user step) ++ s.data.drop reached }

/-- One move of a sweep (`account_erasure_service.py:171-313`). -/
def move (who : ι) (choice : ErasureChoice) (phase : SweepPhase) (s : ErasureWorld ι) :
    SweepPhase × ErasureWorld ι :=
  match phase with
  | .waiting =>
    match choice with
    | .erase user => (.claiming s.clock user s.clock [], s)
    | _ => (.selecting s.clock, s)
  | .selecting now =>
    (.sweeping now ((UserRepository.findPurgeDue s.users now cfg.batchLimit
      cfg.claimLeaseSeconds).map (·.id)), s)
  | .sweeping _ [] => (.waiting, s)
  | .sweeping started (user :: due) =>
    if s.clock - started ≥ cfg.timeBudgetSeconds * 1000 then (.waiting, s)
    else (.claiming started user s.clock due, s)
  | .claiming started user now due =>
    match s.users.lookup user, UserRepository.claimForErasure s.users user now
        cfg.claimLeaseSeconds with
    | some doc, (true, users) =>
      (.claimed started user due, { s with
        users
        log := .claimed who user doc.status doc.purgeAfter now :: s.log })
    | _, _ => (.sweeping started due, s)
  | .claimed started user due =>
    match s.users.lookup user with
    | none => (.sweeping started due, s)
    | some doc => (.erasing started doc [.urls] due, s)
  | .erasing started user (step :: steps) due =>
    let steps := if step = .urls then stepsAfterUrls (urlIds user s.data) else steps
    (.erasing started user steps due, deleteFrom cfg s user step s.data.length)
  | .erasing started user [] due =>
    match UserRepository.deleteHard s.users user.id with
    | (true, users) => (.mailing started user.email due, { s with users })
    | (false, _) => (.sweeping started due, s)
  | .mailing started email due => (.sweeping started due, { s with mails := email :: s.mails })

/-- Where a sweep stands after an exception, and what a deletion has done by then. -/
def fail (reached : Nat) (phase : SweepPhase) (s : ErasureWorld ι) : SweepPhase × ErasureWorld ι :=
  match phase with
  | .waiting => (.waiting, s)
  | .selecting _ => (.waiting, s)
  | .sweeping started due => (.sweeping started due, s)
  | .claiming started _ _ due => (.sweeping started due, s)
  | .claimed started _ due => (.sweeping started due, s)
  | .erasing started _ [] due => (.sweeping started due, s)
  | .erasing started user (step :: steps) due =>
    -- A person that cannot be deleted does not stop the cascade.
    if step = .person then (.erasing started user steps due, s)
    else (.sweeping started due, deleteFrom cfg s user step reached)
  | .mailing started _ due => (.sweeping started due, s)

/-- `mark_pending_deletion`, as a request has it written. -/
def request (user : ObjectId) (now : Int) (s : ErasureWorld ι) : ErasureWorld ι :=
  match UserRepository.markPendingDeletion s.users user cfg.graceDays now with
  | (true, users) => { s with users, log := .requested user :: s.log }
  | (false, _) => s

/-- `restore`. -/
def restore (user : ObjectId) (s : ErasureWorld ι) : ErasureWorld ι :=
  match UserRepository.restore s.users user with
  | (true, users) => { s with users, log := .restored user :: s.log }
  | (false, _) => s

end AccountErasureService

/-- The clock goes on. -/
def ErasureWorld.wait {ι : Type} (s : ErasureWorld ι) (delay : Nat) : ErasureWorld ι :=
  { s with clock := s.clock + delay }

/-- One move of an agent. A crash leaves nothing of what a sweep held. -/
def ErasureAgent.move {ι : Type} (cfg : ErasureConfig) :
    Move ι ErasureAnswer ErasureAgent (ErasureWorld ι) :=
  fun who answer agent s =>
    match agent, answer.choice with
    | .owner none, .requestDeletion user =>
      (.owner (some (user, (s.wait answer.delay).clock)), s.wait answer.delay)
    | .owner none, .restore user =>
      (.owner none, AccountErasureService.restore user (s.wait answer.delay))
    | .owner (some (user, now)), .go =>
      (.owner none, AccountErasureService.request cfg user now (s.wait answer.delay))
    | .owner _, _ => (.owner none, s.wait answer.delay)
    | .sweep _, .crash => (.sweep .waiting, s.wait answer.delay)
    | .sweep phase, .fail reached =>
      let moved := AccountErasureService.fail cfg reached phase (s.wait answer.delay)
      (.sweep moved.1, moved.2)
    | .sweep phase, choice =>
      let moved := AccountErasureService.move cfg who choice phase (s.wait answer.delay)
      (.sweep moved.1, moved.2)

end Spoo
