import Spoo.Services.Webhooks.Dispatcher
import Spoo.Services.Webhooks.Executor

/-!
# What owners ask for (`services/webhooks/service.py`), and the webhook system

A subscription is created, changed or deleted, and then the cached count of its owner is invalidated.

Any number of attempts, dispatches and requests of owners over the one store, and a store that expires
what has a time to live.
-/

namespace Spoo

open Agents

/-! ## Requests of owners -/

/-- Where a request of an owner stands. -/
inductive OwnerPhase where
  | idle
  | creating (request : CreateEndpoint)
  | inserting (request : CreateEndpoint) (scope : WebhookScope)
  | updating (endpointId userId : ObjectId) (request : UpdateEndpoint)
  | writing (endpointId userId : ObjectId) (updates : EndpointUpdates)
  | deleting (endpointId userId : ObjectId)
  | invalidating (userId : ObjectId)
  deriving DecidableEq, Repr

namespace WebhookService

variable (lib : WebhookLib) (cfg : WebhookConfig)

/-- `_validate_url`. -/
def validateUrl (url : String) : Bool := url.toList.length ≤ 2048 && lib.isPublicUrl url

/-- `validate_patterns`. -/
def validatePatterns (patterns : List String) : Bool := patterns.all (validPatterns.contains ·)

/-- `_scope_from_links`, none where it raises. -/
def scopeFromLinks : Option (List String) → Option WebhookScope
  | none => some {}
  | some scopeLinks => match scopeLinks.mapM parseObjectId with
    | none => none
    | some [] => none
    | some ids => some { links := some ids }

/-- `_status_transition`, none where it raises. -/
def statusTransition (doc : WebhookEndpointDoc) (status : WebhookStatus)
    (updates : EndpointUpdates) : Option EndpointUpdates :=
  if status = .disabled then none
  else if status = .active ∧ doc.status = .disabled then
    some { updates with
      status := some status
      disabledReason := some none
      consecutiveFailures := some 0
      droppedCount := some 0 }
  else some { updates with status := some status }

/-- What `update_endpoint` makes of the fields that were sent (`service.py:124-138`), none where it
raises. -/
def updatesOf (doc : WebhookEndpointDoc) (request : UpdateEndpoint) : Option EndpointUpdates := do
  let url := request.url.filter (· ≠ doc.url)
  if !url.all (validateUrl lib ·) || !request.events.all validatePatterns then none
  else
    let scope ← match request.scopeLinks with
      | none => some none
      | some scopeLinks => (scopeFromLinks scopeLinks).map some
    let updates : EndpointUpdates := {
      url
      events := request.events
      scope
      description := request.description
      flavor := request.flavor }
    match request.status with
    | none => some updates
    | some status => statusTransition doc status updates

/-- One move of a request (`service.py:69-169`). -/
def move (choice : WebhookChoice) (phase : OwnerPhase) (s : WebhookWorld) :
    OwnerPhase × WebhookWorld :=
  match phase with
  | .idle =>
    match choice with
    | .create request =>
      if validateUrl lib request.url && validatePatterns request.events then (.creating request, s)
      else (.idle, s)
    | .update endpointId userId request => (.updating endpointId userId request, s)
    | .delete endpointId userId => (.deleting endpointId userId, s)
    | _ => (.idle, s)
  | .creating request =>
    if WebhookEndpointRepository.countByUser s.endpoints request.userId ≥ cfg.maxEndpoints then
      (.idle, s)
    else match scopeFromLinks request.scopeLinks with
      | none => (.idle, s)
      | some scope => (.inserting request scope, s)
  | .inserting request scope =>
    match s.insertEndpoint {
      id := 0
      userId := request.userId
      url := request.url
      description := request.description
      events := request.events
      scope
      flavor := request.flavor
      signingSecretEnc := lib.newSecret s.issued } with
    | none => (.idle, s)
    | some s => (.invalidating request.userId, s)
  | .updating endpointId userId request =>
    match WebhookEndpointRepository.findOwned s.endpoints endpointId userId with
    | none => (.idle, s)
    | some doc =>
      match updatesOf lib doc request with
      | none => (.idle, s)
      | some updates =>
        if updates = {} then (.idle, s) else (.writing endpointId userId updates, s)
  | .writing endpointId userId updates =>
    (.invalidating userId, { s with
      endpoints := WebhookEndpointRepository.updateFields s.endpoints endpointId updates s.clock })
  | .deleting endpointId userId =>
    match WebhookEndpointRepository.deleteEndpoint s.endpoints endpointId userId with
    | (false, _) => (.idle, s)
    | (true, endpoints) => (.invalidating userId, { s with endpoints })
  | .invalidating userId =>
    match choice with
    | .unreachable => (.idle, s)
    | _ => (.idle, { s with subscriptions := Function.update s.subscriptions userId none })

end WebhookService

/-! ## The system -/

/-- Whoever moves. A dispatch belongs to one dispatcher object. -/
inductive WebhookAgent where
  | attempt (phase : AttemptPhase)
  | dispatch (home : Nat) (phase : DispatchPhase)
  | owner (phase : OwnerPhase)
  | janitor

namespace WebhookAgent

/-- What the store expires. -/
def expire (choice : WebhookChoice) (s : WebhookWorld) : WebhookWorld :=
  match choice with
  | .expireEvent oid => { s with events := s.events.deleteMany (·.id = oid) }
  | .expireSubscription ownerId => { s with
      subscriptions := Function.update s.subscriptions ownerId none }
  | _ => s

/-- A move, once the time has passed. What raises, or crashes, leaves nothing of what was held. -/
def act (lib : WebhookLib) (cfg : WebhookConfig) (choice : WebhookChoice) (agent : WebhookAgent)
    (s : WebhookWorld) : WebhookAgent × WebhookWorld :=
  match agent, choice with
  | .attempt _, .fail => (.attempt .idle, s)
  | .attempt phase, choice =>
    let moved := DeliveryExecutor.move lib cfg choice phase s
    (.attempt moved.1, moved.2)
  | .dispatch home _, .fail => (.dispatch home .idle, s)
  | .dispatch home phase, choice =>
    let moved := WebhookDispatcher.move lib cfg home choice phase s
    (.dispatch home moved.1, moved.2)
  | .owner _, .fail => (.owner .idle, s)
  | .owner phase, choice =>
    let moved := WebhookService.move lib cfg choice phase s
    (.owner moved.1, moved.2)
  | .janitor, choice => (.janitor, expire choice s)

/-- One move of anyone. -/
def move {ι : Type} (lib : WebhookLib) (cfg : WebhookConfig) :
    Move ι WebhookAnswer WebhookAgent WebhookWorld :=
  fun _ answer agent s => act lib cfg answer.choice agent (s.wait answer.delay)

/-- Nothing is under way. -/
def Idle : WebhookAgent → Prop
  | .attempt phase => phase = .idle
  | .dispatch _ phase => phase = .idle
  | .owner phase => phase = .idle
  | .janitor => True

end WebhookAgent

end Spoo
