import Spoo.Schemas.Webhook

/-!
# The endpoint repository (`repositories/webhook_endpoint_repository.py`)
-/

namespace Spoo

open Mongo Mongo.Collection

/-- The fields that `update_endpoint` sets. -/
structure EndpointUpdates where
  url : Option String := none
  events : Option (List String) := none
  scope : Option WebhookScope := none
  description : Option (Option String) := none
  flavor : Option WebhookFlavor := none
  status : Option WebhookStatus := none
  disabledReason : Option (Option EndpointDisabledReason) := none
  consecutiveFailures : Option Nat := none
  droppedCount : Option Nat := none
  deriving DecidableEq, Repr

/-- `{"$set": fields}`. -/
def EndpointUpdates.apply (fields : EndpointUpdates) (now : Int) (doc : WebhookEndpointDoc) :
    WebhookEndpointDoc :=
  { doc with
    url := fields.url.getD doc.url
    events := fields.events.getD doc.events
    scope := fields.scope.getD doc.scope
    description := fields.description.getD doc.description
    flavor := fields.flavor.getD doc.flavor
    status := fields.status.getD doc.status
    disabledReason := fields.disabledReason.getD doc.disabledReason
    consecutiveFailures := fields.consecutiveFailures.getD doc.consecutiveFailures
    droppedCount := fields.droppedCount.getD doc.droppedCount
    updatedAt := some now }

namespace WebhookEndpointRepository

variable (endpoints : EndpointStore) (id : ObjectId)

/-- `find_owned`. -/
def findOwned (userId : ObjectId) : Option WebhookEndpointDoc :=
  (endpoints.lookup id).filter (·.userId = userId)

/-- `find_active_for_owner`. -/
def findActiveForOwner (ownerId : ObjectId) : List WebhookEndpointDoc :=
  endpoints.find fun doc => doc.userId = ownerId && doc.status = .active

/-- `count_by_user`. -/
def countByUser (userId : ObjectId) : Nat := (endpoints.find (·.userId = userId)).length

/-- `update_fields`. -/
def updateFields (fields : EndpointUpdates) (now : Int) : EndpointStore :=
  endpoints.updateOne id (fun _ => true) {
    apply := fields.apply now
    id_apply := fun _ => rfl
    key_apply := fun _ => rfl }

/-- `delete_endpoint`, with whether a document was removed. -/
def deleteEndpoint (userId : ObjectId) : Bool × EndpointStore :=
  ((findOwned endpoints id userId).isSome,
    endpoints.deleteMany fun doc => doc.id = id && doc.userId = userId)

/-- `record_success`, with the dropped count that was drained. -/
def recordSuccess (now : Int) : Nat × EndpointStore :=
  (((endpoints.lookup id).map (·.droppedCount)).getD 0, endpoints.updateOne id (fun _ => true) {
    apply := fun doc => { doc with
      consecutiveFailures := 0
      droppedCount := 0
      lastDeliveryAt := some now
      lastSuccessAt := some now
      totalSuccesses := doc.totalSuccesses + 1 }
    id_apply := fun _ => rfl
    key_apply := fun _ => rfl })

/-- `record_exhausted`, with the new streak length. -/
def recordExhausted (reason : String) (now : Int) : Nat × EndpointStore :=
  (((endpoints.lookup id).map (·.consecutiveFailures + 1)).getD 0,
    endpoints.updateOne id (fun _ => true) {
      apply := fun doc => { doc with
        lastDeliveryAt := some now
        lastFailureReason := some reason
        consecutiveFailures := doc.consecutiveFailures + 1 }
      id_apply := fun _ => rfl
      key_apply := fun _ => rfl })

/-- `reserve_pending`, with whether a slot was taken. -/
def reservePending (cap : Nat) : Bool × EndpointStore :=
  ((endpoints.lookup id).any (·.pendingCount.any (· < cap)),
    endpoints.updateOne id (·.pendingCount.any (· < cap)) {
      apply := fun doc => { doc with
        pendingCount := doc.pendingCount.map (· + 1)
        totalDeliveries := doc.totalDeliveries + 1 }
      id_apply := fun _ => rfl
      key_apply := fun _ => rfl })

/-- `release_pending`. -/
def releasePending : EndpointStore :=
  endpoints.updateOne id (·.pendingCount.any (0 < ·)) {
    apply := fun doc => { doc with pendingCount := doc.pendingCount.map (· - 1) }
    id_apply := fun _ => rfl
    key_apply := fun _ => rfl }

/-- `set_pending_count`, with the value it replaced. -/
def setPendingCount (count : Nat) : Nat × EndpointStore :=
  (((endpoints.lookup id).bind (·.pendingCount)).getD 0, endpoints.updateOne id (fun _ => true) {
    apply := fun doc => { doc with pendingCount := some count }
    id_apply := fun _ => rfl
    key_apply := fun _ => rfl })

/-- `increment_dropped`. -/
def incrementDropped : EndpointStore :=
  endpoints.updateOne id (fun _ => true) {
    apply := fun doc => { doc with droppedCount := doc.droppedCount + 1 }
    id_apply := fun _ => rfl
    key_apply := fun _ => rfl }

/-- `disable`. -/
def disable (reason : EndpointDisabledReason) (now : Int) : EndpointStore :=
  endpoints.updateOne id (fun _ => true) {
    apply := fun doc => { doc with
      status := .disabled
      disabledReason := some reason
      updatedAt := some now }
    id_apply := fun _ => rfl
    key_apply := fun _ => rfl }

end WebhookEndpointRepository

end Spoo
