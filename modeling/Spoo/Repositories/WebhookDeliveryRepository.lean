import Spoo.Schemas.Webhook

/-!
# The delivery repository (`repositories/webhook_delivery_repository.py`)

A claim is a lease on a row, and so is the one write of a claim guarded by it; what ends an attempt is
written under the id of the row alone.
-/

namespace Spoo

open Mongo Mongo.Collection

/-- What ends an attempt. -/
inductive AttemptWrite where
  /-- `defer`. -/
  | defer (delaySeconds : Nat)
  /-- `record_attempt_and_reschedule`. -/
  | reschedule (attempt : DeliveryAttempt) (nextAttemptAt : Int)
  /-- `record_attempt_and_finish`. -/
  | finish (attempt : DeliveryAttempt) (status : DeliveryStatus)
  /-- `mark_failed`. -/
  | fail (reason : String)
  deriving DecidableEq, Repr

namespace WebhookDeliveryRepository

variable (deliveries : DeliveryStore) (id : ObjectId)

/-- `count_pending`. -/
def countPending (endpointId : ObjectId) : Nat :=
  (deliveries.find fun row =>
    row.endpointId = endpointId && row.status = .pending && !row.isTest).length

/-- The filter of `claim_due`. -/
def isDue (excludeEndpoints : List ObjectId) (now : Int) (row : WebhookDeliveryDoc) : Bool :=
  row.status = .pending && row.nextAttemptAt.any (· ≤ now) && row.claimedUntil.all (· ≤ now) &&
    !excludeEndpoints.contains row.endpointId

/-- The row after a claim. -/
def withClaim (leaseSeconds : Nat) (now : Int) (row : WebhookDeliveryDoc) : WebhookDeliveryDoc :=
  { row with claimedUntil := some (now + leaseSeconds * 1000) }

/-- `claim_due` (`webhook_delivery_repository.py:81-110`). -/
def claimDue (leaseSeconds : Nat) (excludeEndpoints : List ObjectId) (now : Int) :
    Option WebhookDeliveryDoc × DeliveryStore :=
  match deliveries.findLeast (isDue excludeEndpoints now) (·.nextAttemptAt.getD 0) with
  | none => (none, deliveries)
  | some row =>
    (some (withClaim leaseSeconds now row),
      deliveries.updateOne row.id (isDue excludeEndpoints now) {
        apply := withClaim leaseSeconds now
        id_apply := fun _ => rfl
        key_apply := fun _ => rfl })

/-- `set_rendered_body`. -/
def setRenderedBody (body : String) : DeliveryStore :=
  deliveries.updateOne id (·.renderedBody = none) {
    apply := fun row => { row with renderedBody := some body }
    id_apply := fun _ => rfl
    key_apply := fun _ => rfl }

/-- A terminal write: the attempt is pushed and counted. -/
def terminated (attempt : DeliveryAttempt) (status : DeliveryStatus) (now : Int)
    (row : WebhookDeliveryDoc) : WebhookDeliveryDoc :=
  { row with
    attempts := row.attempts ++ [attempt]
    attemptCount := row.attemptCount + 1
    status
    completedAt := some now
    nextAttemptAt := none
    claimedUntil := none }

/-- The row after the write that ends an attempt. -/
def written (write : AttemptWrite) (now : Int) (row : WebhookDeliveryDoc) : WebhookDeliveryDoc :=
  match write with
  | .defer delaySeconds =>
    { row with nextAttemptAt := some (now + delaySeconds * 1000), claimedUntil := none }
  | .reschedule attempt nextAttemptAt =>
    { row with
      attempts := row.attempts ++ [attempt]
      attemptCount := row.attemptCount + 1
      nextAttemptAt := some nextAttemptAt
      claimedUntil := none }
  | .finish attempt status => terminated attempt status now row
  | .fail reason => terminated { attemptedAt := now, error := some reason } .failed now row

theorem id_written (write : AttemptWrite) (now : Int) (row : WebhookDeliveryDoc) :
    (written write now row).id = row.id := by
  cases write <;> rfl

theorem webhookId_written (write : AttemptWrite) (now : Int) (row : WebhookDeliveryDoc) :
    (written write now row).webhookId = row.webhookId := by
  cases write <;> rfl

/-- The write, under the id alone, with whether it moved the row out of PENDING. -/
def write (write : AttemptWrite) (now : Int) : Bool × DeliveryStore :=
  ((match write with
    | .finish .. => (deliveries.lookup id).any (·.status = .pending)
    | .fail _ => (deliveries.lookup id).any (·.status = .pending)
    | _ => false),
    deliveries.updateOne id (fun _ => true) {
      apply := written write now
      id_apply := id_written write now
      key_apply := webhookId_written write now })

variable {deliveries id}

/-- A claim takes one row that is due, or none is. -/
theorem claimDue_cases (deliveries : DeliveryStore) (leaseSeconds : Nat)
    (excludeEndpoints : List ObjectId) (now : Int) :
    claimDue deliveries leaseSeconds excludeEndpoints now = (none, deliveries) ∨
    ∃ row deliveries', deliveries.lookup row.id = some row ∧
      isDue excludeEndpoints now row = true ∧
      claimDue deliveries leaseSeconds excludeEndpoints now =
        (some (withClaim leaseSeconds now row), deliveries') ∧
      deliveries'.lookup row.id = some (withClaim leaseSeconds now row) ∧
      ∀ other, other ≠ row.id → deliveries'.lookup other = deliveries.lookup other := by
  unfold claimDue
  cases hdue : deliveries.findLeast (isDue excludeEndpoints now) (·.nextAttemptAt.getD 0) with
  | none => exact .inl rfl
  | some row =>
    obtain ⟨hmem, hpass⟩ := mem_of_findLeast hdue
    have hrow : deliveries.lookup row.id = some row := lookup_eq_some_iff.2 ⟨hmem, rfl⟩
    refine .inr ⟨row, _, hrow, hpass, rfl, ?_, fun other hother => ?_⟩
    · rw [lookup_updateOne_self, hrow, Option.map_some, applyWhere_of_matches _ hpass]
    · exact lookup_updateOne_of_ne deliveries _ _ hother

theorem status_of_isDue {excludeEndpoints : List ObjectId} {now : Int} {row : WebhookDeliveryDoc}
    (h : isDue excludeEndpoints now row = true) : row.status = .pending := by
  simp only [isDue, Bool.and_eq_true, decide_eq_true_eq] at h
  exact h.1.1.1

theorem lookup_setRenderedBody_self {row : WebhookDeliveryDoc} (h : deliveries.lookup id = some row)
    (body : String) : (setRenderedBody deliveries id body).lookup id =
      some { row with renderedBody := some (row.renderedBody.getD body) } := by
  rw [setRenderedBody, lookup_updateOne_self, h, Option.map_some]
  cases hbody : row.renderedBody with
  | none => rw [applyWhere_of_matches _ (by simp [hbody])]; rfl
  | some frozen =>
    rw [applyWhere_of_not_matches _ (by simp [hbody]), Option.getD_some, ← hbody]

theorem lookup_setRenderedBody_none (h : deliveries.lookup id = none) (body : String) :
    (setRenderedBody deliveries id body).lookup id = none := by
  rw [setRenderedBody, lookup_updateOne_self, h, Option.map_none]

theorem lookup_setRenderedBody_of_ne (body : String) {other : ObjectId} (h : other ≠ id) :
    (setRenderedBody deliveries id body).lookup other = deliveries.lookup other :=
  lookup_updateOne_of_ne deliveries _ _ h

theorem lookup_write_self {row : WebhookDeliveryDoc} (h : deliveries.lookup id = some row)
    (w : AttemptWrite) (now : Int) :
    (write deliveries id w now).2.lookup id = some (written w now row) := by
  refine (lookup_updateOne_self deliveries id _ _).trans ?_
  rw [h, Option.map_some, applyWhere_of_matches _ rfl]

theorem lookup_write_none (h : deliveries.lookup id = none) (w : AttemptWrite) (now : Int) :
    (write deliveries id w now).2.lookup id = none := by
  refine (lookup_updateOne_self deliveries id _ _).trans ?_
  rw [h, Option.map_none]

/-- A write that ends a row is terminal, and finds the row PENDING. -/
theorem exists_of_write {w : AttemptWrite} {now : Int} (h : (write deliveries id w now).1 = true) :
    ((∃ attempt status, w = .finish attempt status) ∨ ∃ reason, w = .fail reason) ∧
      ∃ row, deliveries.lookup id = some row ∧ row.status = .pending := by
  have hrow (h : (deliveries.lookup id).any (·.status = .pending) = true) :
      ∃ row, deliveries.lookup id = some row ∧ row.status = .pending := by
    obtain ⟨row, hrow, hstatus⟩ := Option.any_eq_true .. |>.1 h
    exact ⟨row, hrow, by simpa using hstatus⟩
  cases w with
  | defer delaySeconds => cases h
  | reschedule attempt nextAttemptAt => cases h
  | finish attempt status => exact ⟨.inl ⟨attempt, status, rfl⟩, hrow h⟩
  | fail reason => exact ⟨.inr ⟨reason, rfl⟩, hrow h⟩

theorem lookup_write_of_ne (w : AttemptWrite) (now : Int) {other : ObjectId} (h : other ≠ id) :
    (write deliveries id w now).2.lookup other = deliveries.lookup other :=
  lookup_updateOne_of_ne deliveries _ _ h

end WebhookDeliveryRepository

end Spoo
