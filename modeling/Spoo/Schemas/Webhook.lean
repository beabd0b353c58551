import Mathlib.Algebra.Order.Monoid.Unbundled.WithTop
import Mathlib.Data.Rat.Floor
import Spoo.Schemas.Url

/-!
# Webhook documents (`schemas/models/webhook.py`, `schemas/enums/webhook.py`) and the event catalog
(`services/webhooks/registry.py`)

Subscriptions, the facts they are told of, and one row a delivery. Times are in milliseconds, which
is what BSON keeps of them.

What an endpoint subscribes to is stored as patterns and expanded at match time. The matcher asks for
the type and the scope of an event alone.
-/

namespace Spoo

/-- A JSON value. -/
inductive Json where
  | null
  | bool (value : Bool)
  | num (value : Int)
  | str (value : String)
  | arr (values : List Json)
  | obj (fields : List (String × Json))

/-- `bool(value)` of a JSON value. -/
def Json.truthy : Json → Bool
  | null => false
  | bool b => b
  | num n => n ≠ 0
  | str s => s ≠ ""
  | arr values => !values.isEmpty
  | obj fields => !fields.isEmpty

/-- `WebhookStatus`. -/
inductive WebhookStatus where
  | active
  | paused
  | disabled
  deriving DecidableEq, Repr

/-- `DeliveryStatus`. -/
inductive DeliveryStatus where
  | pending
  | success
  | failed
  deriving DecidableEq, Repr

/-- `WebhookFlavor`. -/
inductive WebhookFlavor where
  | raw
  | discord
  | slack
  deriving DecidableEq, Repr

/-- The name of the member, as an f-string shows it. -/
def WebhookFlavor.name : WebhookFlavor → String
  | .raw => "WebhookFlavor.RAW"
  | .discord => "WebhookFlavor.DISCORD"
  | .slack => "WebhookFlavor.SLACK"

/-- `EndpointDisabledReason`. -/
inductive EndpointDisabledReason where
  | gone
  | consecutiveFailures
  | secretUnreadable
  | admin
  deriving DecidableEq, Repr

/-- `WebhookScope`. Without a list it is `"all"`. -/
structure WebhookScope where
  links : Option (List ObjectId) := none
  deriving DecidableEq, Repr

/-- `WebhookScope.matches_link`. -/
def WebhookScope.matchesLink (scope : WebhookScope) (linkId : Option ObjectId) : Bool :=
  match scope.links with
  | none => true
  | some links => linkId.any (links.contains ·)

/-- `WebhookEndpointDoc`. -/
structure WebhookEndpointDoc where
  id : ObjectId
  userId : ObjectId
  url : String
  description : Option String := none
  events : List String := []
  scope : WebhookScope := {}
  flavor : WebhookFlavor := .raw
  status : WebhookStatus := .active
  disabledReason : Option EndpointDisabledReason := none
  signingSecretEnc : String := ""
  previousSecretEnc : Option String := none
  previousSecretExpiresAt : Option Int := none
  consecutiveFailures : Nat := 0
  droppedCount : Nat := 0
  /-- Missing on old documents. -/
  pendingCount : Option Nat := some 0
  totalDeliveries : Nat := 0
  totalSuccesses : Nat := 0
  lastDeliveryAt : Option Int := none
  lastSuccessAt : Option Int := none
  lastFailureReason : Option String := none
  updatedAt : Option Int := none
  deriving DecidableEq, Repr

instance : Mongo.Document WebhookEndpointDoc ObjectId ObjectId := ⟨(·.id), (·.id)⟩

/-- The `webhook-endpoints` collection. -/
abbrev EndpointStore := Mongo.Collection WebhookEndpointDoc

/-- `DomainEvent` (`services/events/contract.py`). -/
structure Contract.DomainEvent where
  eventId : String
  type : String
  v : Nat := 1
  ownerId : ObjectId
  occurredAt : Int
  data : PyDict String Json

/-- `WebhookEventDoc`. -/
structure WebhookEventDoc where
  id : ObjectId
  eventId : String
  type : String
  v : Nat := 1
  ownerId : ObjectId
  occurredAt : Int
  payload : PyDict String Json
  isTest : Bool := false

instance : Mongo.Document WebhookEventDoc ObjectId String := ⟨(·.id), (·.eventId)⟩

/-- The `webhook-events` collection. -/
abbrev EventStore := Mongo.Collection WebhookEventDoc

/-- `DeliveryAttempt`. -/
structure DeliveryAttempt where
  attemptedAt : Int
  statusCode : Option Nat := none
  durationMs : Option Nat := none
  error : Option String := none
  responseBody : Option String := none
  deriving DecidableEq, Repr

/-- `WebhookDeliveryDoc`. -/
structure WebhookDeliveryDoc where
  id : ObjectId
  endpointId : ObjectId
  userId : ObjectId
  eventOid : ObjectId
  eventType : String
  webhookId : String
  isTest : Bool := false
  renderedBody : Option String := none
  droppedSinceLast : Nat := 0
  status : DeliveryStatus := .pending
  attempts : List DeliveryAttempt := []
  attemptCount : Nat := 0
  nextAttemptAt : Option Int := none
  claimedUntil : Option Int := none
  createdAt : Option Int := none
  completedAt : Option Int := none
  deriving DecidableEq, Repr

instance : Mongo.Document WebhookDeliveryDoc ObjectId String := ⟨(·.id), (·.webhookId)⟩

/-- The `webhook-deliveries` collection. -/
abbrev DeliveryStore := Mongo.Collection WebhookDeliveryDoc

/-- `PostResult` (`infrastructure/safe_fetch.py:262-273`). The seconds are a `float` that is neither negative
nor `nan`: `⊤` is `inf`. -/
structure PostResult where
  statusCode : Option Nat
  error : Option String
  bodySnippet : Option String
  retryAfterSeconds : Option (WithTop ℚ) := none
  deriving DecidableEq, Repr

/-! ## The event catalog and who listens to it -/

/-- The names and the categories of `EVENT_REGISTRY`. -/
def eventRegistry : List (String × String) :=
  [("link.created", "link"), ("link.updated", "link"), ("link.deleted", "link"),
    ("link.clicked", "link"), ("link.expired", "link"), ("link.blocked", "link")]

/-- `TEST_EVENT_TYPE`. -/
def testEventType : String := "webhook.test"

/-- The events that one pattern stands for. -/
def expandPattern (pattern : String) : List String :=
  if pattern = "*" then eventRegistry.map (·.1)
  else if pattern.toList.drop (pattern.toList.length - 2) = ['.', '*'] then
    (eventRegistry.filter fun event =>
      event.2.toList = pattern.toList.take (pattern.toList.length - 2)).map (·.1)
  else if pattern ∈ eventRegistry.map (·.1) then [pattern]
  else []

/-- `expand`, as the list of its elements. -/
def expand (patterns : List String) : List String := patterns.flatMap expandPattern

/-- `valid_patterns`. -/
def validPatterns : List String :=
  eventRegistry.map (·.1) ++ eventRegistry.map (fun event => event.2 ++ ".*") ++ ["*"]

/-- `ObjectId.is_valid` and what it reads: 24 hexadecimal digits. -/
def parseObjectId (raw : String) : Option ObjectId :=
  if raw.toList.length = 24 then
    raw.toList.foldl (fun acc c => acc.bind fun value => (hexDigit c).map (value * 16 + ·)) (some 0)
  else none
where
  /-- The value of a hexadecimal digit. -/
  hexDigit (c : Char) : Option Nat :=
    if '0' ≤ c ∧ c ≤ '9' then some (c.toNat - '0'.toNat)
    else if 'a' ≤ c ∧ c ≤ 'f' then some (c.toNat - 'a'.toNat + 10)
    else if 'A' ≤ c ∧ c ≤ 'F' then some (c.toNat - 'A'.toNat + 10)
    else none

/-- `event_link_id` (`matcher.py:65-75`). -/
def eventLinkId (event : Contract.DomainEvent) : Option ObjectId :=
  let raw : Json := match (event.data.get? "link_id").getD .null with
    | .null =>
      match event.data.get? "link" with
      | some (.obj fields) => ((fields.find? (·.1 = "link_id")).map (·.2)).getD .null
      | _ => .null
    | raw => raw
  match raw with
  | .str raw => parseObjectId raw
  | _ => none

/-- What the loop of `match` asks of an endpoint (`matcher.py:101-108`). -/
def covers (event : Contract.DomainEvent) (endpoint : WebhookEndpointDoc) : Bool :=
  (expand endpoint.events).contains event.type &&
    (!"link.".toList.isPrefixOf event.type.toList || endpoint.scope.matchesLink (eventLinkId event))

end Spoo
