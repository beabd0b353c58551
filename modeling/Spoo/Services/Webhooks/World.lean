import Spoo.Lib.Agents
import Spoo.Repositories.WebhookDeliveryRepository
import Spoo.Repositories.WebhookEndpointRepository

/-!
# What the webhook services share

The three collections, the subscription cache, the clock, and the requests that have gone out. What
comes with a move of any of the services is in one type, the time that has passed before it included.
-/

namespace Spoo

/-- A renderer (`services/webhooks/renderers/protocol.py`). -/
structure Renderer where
  /-- From the id, the type and the time of an event, and its payload. -/
  render : String → String → Int → PyDict String Json → String
  /-- The encoded query parameters that it declares. -/
  urlQuery : Option String := none

/-- What the services are built on. -/
structure WebhookLib where
  renderers : WebhookFlavor → Option Renderer
  /-- `decrypt_secret` under the master secret, none where it raises. -/
  decryptSecret : String → Option String
  /-- `sign`, of an id, a timestamp in seconds, a body and a secret. -/
  sign : String → Int → String → String → String
  /-- The ids that `new_webhook_id` yields. -/
  newWebhookId : Nat → String
  newEventId : Nat → String
  /-- `generate_signing_secret`, encrypted. -/
  newSecret : Nat → String
  /-- `validate_public_https_url`. -/
  isPublicUrl : String → Bool
  /-- The sample payloads of the catalog. -/
  sample : String → PyDict String Json

/-- The settings of the services. -/
structure WebhookConfig where
  maxPayloadBytes : Nat := 20480
  maxConsecutiveFailures : Nat := 10
  leaseSeconds : Nat := 60
  maxPendingPerEndpoint : Nat := 1000
  recountIntervalMs : Nat := 30000
  maxEndpoints : Nat := 5
  deriving DecidableEq, Repr

/-- `_headers`, the fixed ones apart. -/
structure WebhookHeaders where
  webhookId : String
  webhookTimestamp : Int
  webhookSignature : List String
  deriving DecidableEq, Repr

/-- A request that has gone out. -/
structure PostRequest where
  row : ObjectId
  url : String
  body : String
  headers : WebhookHeaders
  deriving DecidableEq, Repr

/-- The shared state. -/
structure WebhookWorld where
  endpoints : EndpointStore
  deliveries : DeliveryStore
  events : EventStore
  /-- `OwnerSubscriptionCache`. -/
  subscriptions : ObjectId → Option Nat := fun _ => none
  /-- `_recount_not_before` of each dispatcher object. -/
  recountNotBefore : Nat → ObjectId → Int := fun _ _ => 0
  clock : Int
  /-- How many ids have been drawn. -/
  issued : Nat
  posts : List PostRequest := []

/-- `CreateWebhookEndpointRequest`, with who makes it. -/
structure CreateEndpoint where
  userId : ObjectId
  url : String
  events : List String
  description : Option String := none
  scopeLinks : Option (List String) := none
  flavor : WebhookFlavor := .raw
  deriving DecidableEq, Repr

/-- `UpdateWebhookEndpointRequest`: the fields that were sent. -/
structure UpdateEndpoint where
  url : Option String := none
  events : Option (List String) := none
  scopeLinks : Option (Option (List String)) := none
  description : Option (Option String) := none
  flavor : Option WebhookFlavor := none
  status : Option WebhookStatus := none
  deriving DecidableEq, Repr

/-- What comes with a move. -/
inductive WebhookChoice where
  | go
  /-- A turn of the executor's loop, with the endpoints that are saturated. -/
  | claim (excludeEndpoints : List ObjectId)
  | retry (endpointId deliveryId userId : ObjectId)
  | sendTest (endpointId userId : ObjectId) (eventType : String)
  /-- The receiver answers, or the request fails, after this many milliseconds. -/
  | respond (result : PostResult) (durationMs : Nat)
  | dispatch (event : Contract.DomainEvent)
  | create (request : CreateEndpoint)
  | update (endpointId userId : ObjectId) (request : UpdateEndpoint)
  | delete (endpointId userId : ObjectId)
  /-- The cache is unreachable. -/
  | unreachable
  /-- An exception or a crash: nothing is written, and what was held is gone. -/
  | fail
  /-- The store expires an event, or a cached count. -/
  | expireEvent (oid : ObjectId)
  | expireSubscription (ownerId : ObjectId)

/-- `fail`. -/
def WebhookChoice.fails : WebhookChoice → Bool
  | .fail => true
  | _ => false

/-- The time since the last move of anyone, and what comes with this one. -/
structure WebhookAnswer where
  delay : Nat
  choice : WebhookChoice

namespace WebhookWorld

/-- The clock goes on. -/
def wait (s : WebhookWorld) (delay : Nat) : WebhookWorld := { s with clock := s.clock + delay }

/-- `insert_event` (`webhook_event_repository.py:20-36`): none is a `DuplicateKeyError`. -/
def insertEvent (s : WebhookWorld) (event : Contract.DomainEvent) (isTest : Bool) :
    Option (ObjectId × WebhookWorld) :=
  (s.events.insertOne {
    id := s.issued
    eventId := event.eventId
    type := event.type
    v := event.v
    ownerId := event.ownerId
    occurredAt := event.occurredAt
    payload := event.data
    isTest }).map fun events => (s.issued, { s with events, issued := s.issued + 1 })

/-- `insert_row`, of a row that gets the next id. -/
def insertRow (s : WebhookWorld) (row : WebhookDeliveryDoc) : Option WebhookWorld :=
  (s.deliveries.insertOne { row with id := s.issued }).map fun deliveries =>
    { s with deliveries, issued := s.issued + 1 }

/-- `insert_endpoint`, of a document that gets the next id. -/
def insertEndpoint (s : WebhookWorld) (doc : WebhookEndpointDoc) : Option WebhookWorld :=
  (s.endpoints.insertOne { doc with id := s.issued }).map fun endpoints =>
    { s with endpoints, issued := s.issued + 1 }

end WebhookWorld

end Spoo
