import Spoo.Services.Webhooks.World

/-!
# Attempts (`services/webhooks/executor.py`)

A claim, the endpoint, the body, the request, and what is written of its outcome. A manual retry and a
test send run the same attempt on a row that they have read.
-/

namespace Spoo

/-- What is left to do at the endpoint when the row has been written. -/
inductive HealthWrite where
  | success
  | exhausted (failure : String)
  | disable (reason : EndpointDisabledReason)
  deriving DecidableEq, Repr

/-- Where an attempt stands. -/
inductive AttemptPhase where
  | idle
  | claiming (excludeEndpoints : List ObjectId) (now : Int)
  /-- `retry_delivery`. -/
  | checking (endpointId deliveryId userId : ObjectId)
  | retrying (endpointId deliveryId userId : ObjectId)
  /-- `send_test`. -/
  | testing (endpointId userId : ObjectId) (eventType : String)
  | testEvent (endpoint : WebhookEndpointDoc) (eventType : String)
  | testRow (endpoint : WebhookEndpointDoc) (eventType : String) (eventOid : ObjectId)
  | testLoading (deliveryId : ObjectId)
  | loading (row : WebhookDeliveryDoc)
  | rendering (row : WebhookDeliveryDoc) (endpoint : WebhookEndpointDoc)
  | freezing (row : WebhookDeliveryDoc) (endpoint : WebhookEndpointDoc) (body : String)
  | sending (row : WebhookDeliveryDoc) (endpoint : WebhookEndpointDoc) (body : String)
  | awaiting (row : WebhookDeliveryDoc) (endpoint : WebhookEndpointDoc) (body : String)
  | writing (row : WebhookDeliveryDoc) (write : AttemptWrite) (after : Option HealthWrite)
  | releasing (row : WebhookDeliveryDoc) (after : Option HealthWrite)
  | healing (endpointId : ObjectId) (health : HealthWrite)
  deriving DecidableEq, Repr

/-- `RETRY_SCHEDULE_SECONDS`. -/
def retryScheduleSeconds : List Nat := [0, 5, 300, 1800, 7200, 18000, 36000]

/-- `RATE_LIMIT_FALLBACK_SECONDS`. -/
def rateLimitFallbackSeconds : Nat := 60

/-- `RATE_LIMIT_MAX_DEFER_SECONDS`. -/
def rateLimitMaxDeferSeconds : Nat := 900

namespace DeliveryExecutor

variable (lib : WebhookLib) (cfg : WebhookConfig)

/-- A test send or a manual retry, as `attempt` tells it from the row that it is given. -/
def singleShot (row : WebhookDeliveryDoc) : Bool := row.isTest || row.status ≠ .pending

/-- What follows once the row is written and its slot released. -/
def followUp (row : WebhookDeliveryDoc) : Option HealthWrite → AttemptPhase
  | none => .idle
  | some health => .healing row.endpointId health

/-- `_headers`, none where the secret cannot be read. -/
def headers (webhookId body : String) (endpoint : WebhookEndpointDoc) (now : Int) :
    Option WebhookHeaders :=
  match lib.decryptSecret endpoint.signingSecretEnc with
  | none => none
  | some secret =>
    let timestamp := now / 1000
    let current := lib.sign webhookId timestamp body secret
    match endpoint.previousSecretEnc.filter fun enc =>
        enc ≠ "" && endpoint.previousSecretExpiresAt.any (· > now) with
    | none => some ⟨webhookId, timestamp, [current]⟩
    | some enc => (lib.decryptSecret enc).map fun previous =>
        ⟨webhookId, timestamp, [current, lib.sign webhookId timestamp body previous]⟩

/-- `_delivery_url`. -/
def deliveryUrl (endpoint : WebhookEndpointDoc) : String :=
  match (lib.renderers endpoint.flavor).bind (·.urlQuery) with
  | none => endpoint.url
  | some query => endpoint.url ++ (if endpoint.url.toList.contains '?' then "&" else "?") ++ query

/-- The first half of `_render`: the body, or why the row fails. -/
def render (row : WebhookDeliveryDoc) (endpoint : WebhookEndpointDoc)
    (event : Option WebhookEventDoc) : Except String String :=
  match event with
  | none => .error "event_expired"
  | some event =>
    match lib.renderers endpoint.flavor with
    | none => .error ("unknown_flavor:" ++ endpoint.flavor.name)
    | some renderer =>
      let payload := if row.droppedSinceLast = 0 then event.payload
        else event.payload.assign "dropped_since_last" (.num row.droppedSinceLast)
      let body := renderer.render event.eventId event.type event.occurredAt payload
      if body.utf8ByteSize > cfg.maxPayloadBytes then .error "payload_over_cap" else .ok body

/-- The delay of a rate-limited delivery. -/
def rateLimitDelay (result : PostResult) : Nat :=
  match result.retryAfterSeconds with
  | none => rateLimitFallbackSeconds
  | some seconds =>
    if seconds = 0 then rateLimitFallbackSeconds
    else ((min seconds rateLimitMaxDeferSeconds).untopD 0).floor.toNat

/-- `result.error or f"status {result.status_code}"`. -/
def failure (result : PostResult) : String :=
  match result.error with
  | some error => if error = "" then status else error
  | none => status
where
  status : String := "status " ++ (result.statusCode.map toString).getD "None"

/-- What `attempt` makes of the outcome of the request (`executor.py:233-319`). -/
def outcome (row : WebhookDeliveryDoc) (result : PostResult) (durationMs : Nat) (now : Int) :
    AttemptPhase :=
  let attempt : DeliveryAttempt := {
    attemptedAt := now
    statusCode := result.statusCode
    durationMs := some durationMs
    error := result.error
    responseBody := result.bodySnippet }
  if result.statusCode.any fun code => 200 ≤ code && code < 300 then
    .writing row (.finish attempt .success) (if singleShot row then none else some .success)
  else if result.statusCode = some 429 && !singleShot row then
    .writing row (.defer (rateLimitDelay result)) none
  else if singleShot row then .writing row (.finish attempt .failed) none
  else if result.statusCode = some 410 then
    .writing row (.finish attempt .failed) (some (.disable .gone))
  else if h : row.attemptCount + 1 < retryScheduleSeconds.length then
    .writing row (.reschedule attempt
      (now + (retryScheduleSeconds.get ⟨row.attemptCount + 1, h⟩ : Nat) * 1000)) none
  else .writing row (.finish attempt .failed) (some (.exhausted (failure result)))

/-- The row of `send_test`. -/
def testDelivery (webhookId : String) (endpoint : WebhookEndpointDoc) (eventType : String)
    (eventOid : ObjectId) (now : Int) : WebhookDeliveryDoc where
  id := 0
  endpointId := endpoint.id
  userId := endpoint.userId
  eventOid
  eventType
  webhookId
  isTest := true
  createdAt := some now

/-- One move of an attempt (`executor.py:179-405`, `service.py:180-258`). -/
def move (choice : WebhookChoice) (phase : AttemptPhase) (s : WebhookWorld) :
    AttemptPhase × WebhookWorld :=
  match phase with
  | .idle =>
    match choice with
    | .claim excludeEndpoints => (.claiming excludeEndpoints s.clock, s)
    | .retry endpointId deliveryId userId => (.checking endpointId deliveryId userId, s)
    | .sendTest endpointId userId eventType => (.testing endpointId userId eventType, s)
    | _ => (.idle, s)
  | .claiming excludeEndpoints now =>
    match WebhookDeliveryRepository.claimDue s.deliveries cfg.leaseSeconds excludeEndpoints now with
    | (none, _) => (.idle, s)
    | (some row, deliveries) => (.loading row, { s with deliveries })
  | .checking endpointId deliveryId userId =>
    match WebhookEndpointRepository.findOwned s.endpoints endpointId userId with
    | none => (.idle, s)
    | some _ => (.retrying endpointId deliveryId userId, s)
  | .retrying endpointId deliveryId userId =>
    match (s.deliveries.lookup deliveryId).filter fun row =>
        row.userId = userId && row.endpointId = endpointId && row.status ≠ .pending with
    | none => (.idle, s)
    | some row => (.loading row, s)
  | .testing endpointId userId eventType =>
    match WebhookEndpointRepository.findOwned s.endpoints endpointId userId with
    | none => (.idle, s)
    | some endpoint =>
      if eventType = testEventType ∨ eventType ∈ eventRegistry.map (·.1) then
        (.testEvent endpoint eventType, s)
      else (.idle, s)
  | .testEvent endpoint eventType =>
    match s.insertEvent {
      eventId := lib.newEventId s.issued
      type := eventType
      ownerId := endpoint.userId
      occurredAt := s.clock
      data := lib.sample eventType } true with
    | none => (.idle, s)
    | some (eventOid, s) => (.testRow endpoint eventType eventOid, s)
  | .testRow endpoint eventType eventOid =>
    match s.insertRow (testDelivery (lib.newWebhookId s.issued) endpoint eventType eventOid
        s.clock) with
    | none => (.idle, s)
    | some s' => (.testLoading s.issued, s')
  | .testLoading deliveryId =>
    match s.deliveries.lookup deliveryId with
    | none => (.idle, s)
    | some row => (.loading row, s)
  | .loading row =>
    match s.endpoints.lookup row.endpointId with
    | none => (.writing row (.fail "endpoint_inactive") none, s)
    | some endpoint =>
      if endpoint.status = .disabled then (.writing row (.fail "endpoint_inactive") none, s)
      else if endpoint.status = .paused && !singleShot row then (.writing row (.defer 300) none, s)
      else match row.renderedBody with
        | some body => (.sending row endpoint body, s)
        | none => (.rendering row endpoint, s)
  | .rendering row endpoint =>
    match render lib cfg row endpoint (s.events.lookup row.eventOid) with
    | .error reason => (.writing row (.fail reason) none, s)
    | .ok body => (.freezing row endpoint body, s)
  | .freezing row endpoint body =>
    (.sending row endpoint body, { s with
      deliveries := WebhookDeliveryRepository.setRenderedBody s.deliveries row.id body })
  | .sending row endpoint body =>
    match headers lib row.webhookId body endpoint s.clock with
    | none =>
      (.writing row (.fail "secret_unreadable")
        (if singleShot row then none else some (.disable .secretUnreadable)), s)
    | some headers => (.awaiting row endpoint body, { s with
        posts := { row := row.id, url := deliveryUrl lib endpoint, body, headers } :: s.posts })
  | .awaiting row endpoint body =>
    match choice with
    | .respond result durationMs => (outcome row result durationMs s.clock, s)
    | _ => (.awaiting row endpoint body, s)
  | .writing row write after =>
    let moved := WebhookDeliveryRepository.write s.deliveries row.id write s.clock
    (if moved.1 && !row.isTest then .releasing row after else followUp row after,
      { s with deliveries := moved.2 })
  | .releasing row after =>
    (followUp row after, { s with
      endpoints := WebhookEndpointRepository.releasePending s.endpoints row.endpointId })
  | .healing endpointId .success =>
    (.idle, { s with
      endpoints := (WebhookEndpointRepository.recordSuccess s.endpoints endpointId s.clock).2 })
  | .healing endpointId (.exhausted failure) =>
    let moved := WebhookEndpointRepository.recordExhausted s.endpoints endpointId failure s.clock
    (if moved.1 ≥ cfg.maxConsecutiveFailures then .healing endpointId (.disable .consecutiveFailures)
      else .idle, { s with endpoints := moved.2 })
  | .healing endpointId (.disable reason) =>
    (.idle, { s with
      endpoints := WebhookEndpointRepository.disable s.endpoints endpointId reason s.clock })

end DeliveryExecutor

end Spoo
