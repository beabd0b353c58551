import Spoo.Services.Webhooks.World

/-!
# Matching and dispatch (`services/webhooks/matcher.py`, `services/webhooks/dispatcher.py`)

From a fact to one row for each endpoint that listens to it and has a slot left.
-/

namespace Spoo

/-- A row that is to be inserted: the endpoint as it was matched, and the time. -/
structure RowDraft where
  endpoint : WebhookEndpointDoc
  createdAt : Int
  deriving DecidableEq, Repr

/-- A fact on its way: its row in `webhook-events`, and the rows that are to be inserted. -/
structure Dispatching where
  event : Contract.DomainEvent
  eventOid : ObjectId
  rows : List RowDraft := []

/-- Where a dispatch stands. -/
inductive DispatchPhase where
  | idle
  | matching (event : Contract.DomainEvent)
  | finding (event : Contract.DomainEvent) (cached : Option Nat)
  | caching (event : Contract.DomainEvent) (endpoints : List WebhookEndpointDoc)
  | recording (event : Contract.DomainEvent) (endpoints : List WebhookEndpointDoc)
  | reserving (d : Dispatching) (endpoint : WebhookEndpointDoc) (rest : List WebhookEndpointDoc)
  | counting (d : Dispatching) (endpoint : WebhookEndpointDoc) (rest : List WebhookEndpointDoc)
  | repairing (d : Dispatching) (endpoint : WebhookEndpointDoc) (rest : List WebhookEndpointDoc)
    (counted : Nat)
  | reserveAgain (d : Dispatching) (endpoint : WebhookEndpointDoc) (rest : List WebhookEndpointDoc)
  | dropping (d : Dispatching) (endpoint : WebhookEndpointDoc) (rest : List WebhookEndpointDoc)
  | storing (d : Dispatching)

namespace WebhookDispatcher

/-- `make_delivery_row`, with the id of the delivery that is drawn for it. -/
def makeDeliveryRow (webhookId : String) (d : Dispatching) (draft : RowDraft) :
    WebhookDeliveryDoc where
  id := 0
  endpointId := draft.endpoint.id
  userId := draft.endpoint.userId
  eventOid := d.eventOid
  eventType := d.event.type
  webhookId
  droppedSinceLast := draft.endpoint.droppedCount
  nextAttemptAt := some draft.createdAt
  createdAt := some draft.createdAt

/-- The rest of `match`, and the start of `dispatch`. -/
def matched (event : Contract.DomainEvent) (endpoints : List WebhookEndpointDoc) : DispatchPhase :=
  match endpoints.filter (covers event) with
  | [] => .idle
  | endpoints => .recording event endpoints

/-- The loop of `dispatch`. -/
def next (d : Dispatching) : List WebhookEndpointDoc → DispatchPhase
  | [] => .storing d
  | endpoint :: rest => .reserving d endpoint rest

/-- A slot has been reserved, and a row is made. -/
def reserved (d : Dispatching) (endpoint : WebhookEndpointDoc) (rest : List WebhookEndpointDoc)
    (now : Int) : DispatchPhase :=
  next { d with rows := d.rows ++ [⟨endpoint, now⟩] } rest

/-- One move of a dispatch (`dispatcher.py:77-133`, `matcher.py:87-109`). -/
def move (lib : WebhookLib) (cfg : WebhookConfig) (home : Nat) (choice : WebhookChoice)
    (phase : DispatchPhase) (s : WebhookWorld) : DispatchPhase × WebhookWorld :=
  match phase with
  | .idle =>
    match choice with
    | .dispatch event => (.matching event, s)
    | _ => (.idle, s)
  | .matching event =>
    match choice with
    | .unreachable => (.finding event none, s)
    | _ =>
      let cached := s.subscriptions event.ownerId
      if cached = some 0 then (.idle, s) else (.finding event cached, s)
  | .finding event cached =>
    let endpoints := WebhookEndpointRepository.findActiveForOwner s.endpoints event.ownerId
    if cached = none then (.caching event endpoints, s) else (matched event endpoints, s)
  | .caching event endpoints =>
    match choice with
    | .unreachable => (matched event endpoints, s)
    | _ => (matched event endpoints, { s with
        subscriptions := Function.update s.subscriptions event.ownerId (some endpoints.length) })
  | .recording event endpoints =>
    match s.insertEvent event false with
    | none => (.idle, s)
    | some (eventOid, s) => (next { event, eventOid } endpoints, s)
  | .reserving d endpoint rest =>
    match WebhookEndpointRepository.reservePending s.endpoints endpoint.id
        cfg.maxPendingPerEndpoint with
    | (true, endpoints) => (reserved d endpoint rest s.clock, { s with endpoints })
    | (false, _) =>
      if s.clock < s.recountNotBefore home endpoint.id then (.dropping d endpoint rest, s)
      else (.counting d endpoint rest, { s with
        recountNotBefore := Function.update s.recountNotBefore home
          (Function.update (s.recountNotBefore home) endpoint.id (s.clock + cfg.recountIntervalMs)) })
  | .counting d endpoint rest =>
    (.repairing d endpoint rest (WebhookDeliveryRepository.countPending s.deliveries endpoint.id), s)
  | .repairing d endpoint rest counted =>
    let moved := WebhookEndpointRepository.setPendingCount s.endpoints endpoint.id counted
    (if counted ≥ cfg.maxPendingPerEndpoint then .dropping d endpoint rest
      else .reserveAgain d endpoint rest, { s with endpoints := moved.2 })
  | .reserveAgain d endpoint rest =>
    match WebhookEndpointRepository.reservePending s.endpoints endpoint.id
        cfg.maxPendingPerEndpoint with
    | (true, endpoints) => (reserved d endpoint rest s.clock, { s with endpoints })
    | (false, _) => (.dropping d endpoint rest, s)
  | .dropping d endpoint rest =>
    (next d rest, { s with
      endpoints := WebhookEndpointRepository.incrementDropped s.endpoints endpoint.id })
  | .storing d =>
    match d.rows with
    | [] => (.idle, s)
    | draft :: rows =>
      match s.insertRow (makeDeliveryRow (lib.newWebhookId s.issued) d draft) with
      | none => (.idle, s)
      | some s => (.storing { d with rows }, s)

end WebhookDispatcher

end Spoo
