import Spoo.Services.Webhooks.Fleet

/-!
# What a move does to the health of an endpoint

The status of an endpoint, why it was disabled, and what is counted of its failures and drops are
written at the end of an attempt, by a dispatch that drops, and by its owner. Every other move leaves
them.
-/

namespace Spoo

open Agents Mongo.Collection

/-- How the deliveries of an endpoint go. A new endpoint starts like this. -/
structure EndpointHealth where
  status : WebhookStatus := .active
  disabledReason : Option EndpointDisabledReason := none
  consecutiveFailures : Nat := 0
  droppedCount : Nat := 0
  deriving DecidableEq, Repr

/-- The health of a document. -/
def WebhookEndpointDoc.health (doc : WebhookEndpointDoc) : EndpointHealth where
  status := doc.status
  disabledReason := doc.disabledReason
  consecutiveFailures := doc.consecutiveFailures
  droppedCount := doc.droppedCount

/-- What is written at the end of an attempt. -/
def HealthWrite.apply (h : EndpointHealth) : HealthWrite → EndpointHealth
  | .success => { h with consecutiveFailures := 0, droppedCount := 0 }
  | .exhausted _ => { h with consecutiveFailures := h.consecutiveFailures + 1 }
  | .disable reason => { h with status := .disabled, disabledReason := some reason }

/-- What an owner writes. -/
def EndpointUpdates.health (updates : EndpointUpdates) (h : EndpointHealth) : EndpointHealth where
  status := updates.status.getD h.status
  disabledReason := updates.disabledReason.getD h.disabledReason
  consecutiveFailures := updates.consecutiveFailures.getD h.consecutiveFailures
  droppedCount := updates.droppedCount.getD h.droppedCount

/-- The health of an endpoint after a move. -/
def WebhookAgent.healthAfter (agent : WebhookAgent) (id : ObjectId) (h : EndpointHealth) :
    EndpointHealth :=
  match agent with
  | .attempt (.healing endpointId write) => if id = endpointId then write.apply h else h
  | .dispatch _ (.dropping _ endpoint _) =>
    if id = endpoint.id then { h with droppedCount := h.droppedCount + 1 } else h
  | .owner (.writing endpointId _ updates) => if id = endpointId then updates.health h else h
  | _ => h

/-- A request that is about to delete an endpoint. -/
def WebhookAgent.deletes : WebhookAgent → Bool
  | .owner (.deleting ..) => true
  | _ => false

/-- The same endpoint before a move and after. -/
structure HealedDoc (agent : WebhookAgent) (doc doc' : WebhookEndpointDoc) : Prop where
  userId : doc'.userId = doc.userId
  health : doc'.health = agent.healthAfter doc.id doc.health

/-- An endpoint that a request has just inserted. -/
structure NewDoc (agent : WebhookAgent) (doc : WebhookEndpointDoc) : Prop where
  creates : ∃ request scope, agent = .owner (.inserting request scope) ∧ doc.userId = request.userId
  health : doc.health = {}

/-- The endpoints before a move and after. -/
structure HealedStore (agent : WebhookAgent) (endpoints endpoints' : EndpointStore) : Prop where
  kept : agent.deletes = false → ∀ id doc, endpoints.lookup id = some doc →
    ∃ doc', endpoints'.lookup id = some doc' ∧ HealedDoc agent doc doc'
  old : ∀ id doc', endpoints'.lookup id = some doc' →
    (∃ doc, endpoints.lookup id = some doc ∧ HealedDoc agent doc doc') ∨
      endpoints.lookup id = none ∧ NewDoc agent doc'

section

variable {lib : WebhookLib} {cfg : WebhookConfig} {s s' : WebhookWorld} {agent : WebhookAgent}
  {endpoints endpoints' : EndpointStore}

theorem id_of_lookup {id : ObjectId} {doc : WebhookEndpointDoc}
    (h : endpoints.lookup id = some doc) : doc.id = id := (lookup_eq_some_iff.1 h).2

theorem WebhookWorld.endpoints_insertEvent {event : Contract.DomainEvent} {isTest : Bool}
    {oid : ObjectId} (h : s.insertEvent event isTest = some (oid, s')) :
    s'.endpoints = s.endpoints := by
  obtain ⟨events, -, heq⟩ := Option.map_eq_some_iff.1 h
  cases heq
  rfl

theorem WebhookWorld.endpoints_insertRow {row : WebhookDeliveryDoc}
    (h : s.insertRow row = some s') : s'.endpoints = s.endpoints := by
  obtain ⟨deliveries, -, rfl⟩ := Option.map_eq_some_iff.1 h
  rfl

/-- A move that maps the documents. -/
theorem HealedStore.of_map {f : ObjectId → WebhookEndpointDoc → WebhookEndpointDoc}
    (hmap : ∀ id, endpoints'.lookup id = (endpoints.lookup id).map (f id))
    (hdoc : ∀ doc, HealedDoc agent doc (f doc.id doc)) : HealedStore agent endpoints endpoints' where
  kept _ id doc h := by
    have hid : doc.id = id := id_of_lookup h
    exact ⟨f doc.id doc, by rw [hmap, h, hid]; rfl, hdoc doc⟩
  old id doc' h := by
    rw [hmap] at h
    obtain ⟨doc, hlookup, rfl⟩ := Option.map_eq_some_iff.1 h
    have hid : doc.id = id := id_of_lookup hlookup
    exact .inl ⟨doc, hlookup, hid ▸ hdoc doc⟩

/-- A move that leaves the endpoints. -/
theorem HealedStore.refl (hquiet : ∀ id h, agent.healthAfter id h = h) :
    HealedStore agent endpoints endpoints :=
  .of_map (f := fun _ doc => doc) (fun _ => by rw [Option.map_id_fun', id_eq])
    fun _ => ⟨rfl, (hquiet _ _).symm⟩

/-- A move that writes one endpoint. -/
theorem HealedStore.updateOne {id : ObjectId} {q : WebhookEndpointDoc → Bool}
    {u : Mongo.KeyedUpdate WebhookEndpointDoc}
    (hself : ∀ doc, (applyWhere q u.toUpdate doc).userId = doc.userId ∧
      (applyWhere q u.toUpdate doc).health = agent.healthAfter id doc.health)
    (hothers : ∀ other, other ≠ id → ∀ h, agent.healthAfter other h = h) :
    HealedStore agent endpoints (endpoints.updateOne id q u) := by
  refine .of_map (f := fun other doc => if other = id then applyWhere q u.toUpdate doc else doc)
    (fun other => ?_) fun doc => ?_
  · by_cases hid : other = id
    · subst hid
      simp only [lookup_updateOne_self, if_true]
    · simp only [lookup_updateOne_of_ne _ _ _ hid, if_neg hid, Option.map_id_fun', id_eq]
  · by_cases hid : doc.id = id
    · rw [if_pos hid]
      exact ⟨(hself doc).1, by rw [(hself doc).2, hid]⟩
    · rw [if_neg hid]
      exact ⟨rfl, (hothers doc.id hid _).symm⟩

/-- A request that inserts an endpoint. -/
theorem HealedStore.insertOne {new : WebhookEndpointDoc}
    (hinsert : endpoints.insertOne new = some endpoints') (hnew : NewDoc agent new)
    (hquiet : ∀ id h, agent.healthAfter id h = h) : HealedStore agent endpoints endpoints' := by
  obtain ⟨hfree, hself, hothers⟩ := exists_of_insertOne hinsert
  have hsame (id : ObjectId) (hid : id ≠ new.id) : endpoints'.lookup id = endpoints.lookup id :=
    hothers id hid
  constructor
  · intro _ id doc hdoc
    have hid : id ≠ new.id := by
      rintro rfl
      cases hfree.symm.trans hdoc
    exact ⟨doc, (hsame id hid).trans hdoc, rfl, (hquiet _ _).symm⟩
  · intro id doc' hdoc'
    by_cases hid : id = new.id
    · subst hid
      cases hself.symm.trans hdoc'
      exact .inr ⟨hfree, hnew⟩
    · exact .inl ⟨doc', (hsame id hid).symm.trans hdoc', rfl, (hquiet _ _).symm⟩

/-- A request that deletes. -/
theorem HealedStore.deleteMany {q : WebhookEndpointDoc → Bool} (hdeletes : agent.deletes = true)
    (hquiet : ∀ id h, agent.healthAfter id h = h) :
    HealedStore agent endpoints (endpoints.deleteMany q) where
  kept hkeeps := by
    rw [hdeletes] at hkeeps
    cases hkeeps
  old id doc hdoc := by
    rw [lookup_deleteMany] at hdoc
    exact .inl ⟨doc, (Option.filter_eq_some_iff.1 hdoc).1, rfl, (hquiet _ _).symm⟩

variable (lib cfg)

theorem healedStore_attempt (choice : WebhookChoice) (phase : AttemptPhase) (s : WebhookWorld) :
    HealedStore (.attempt phase) s.endpoints
      (DeliveryExecutor.move lib cfg choice phase s).2.endpoints := by
  cases phase with
  | idle => cases choice <;> exact .refl fun _ _ => rfl
  | claiming excludeEndpoints now =>
    simp only [DeliveryExecutor.move]
    split <;> exact .refl fun _ _ => rfl
  | checking endpointId deliveryId userId =>
    simp only [DeliveryExecutor.move]
    split <;> exact .refl fun _ _ => rfl
  | retrying endpointId deliveryId userId =>
    simp only [DeliveryExecutor.move]
    split <;> exact .refl fun _ _ => rfl
  | testing endpointId userId eventType =>
    simp only [DeliveryExecutor.move]
    split
    · exact .refl fun _ _ => rfl
    · split <;> exact .refl fun _ _ => rfl
  | testEvent endpoint eventType =>
    simp only [DeliveryExecutor.move]
    split
    · exact .refl fun _ _ => rfl
    · rename_i hinsert
      rw [WebhookWorld.endpoints_insertEvent hinsert]
      exact .refl fun _ _ => rfl
  | testRow endpoint eventType eventOid =>
    simp only [DeliveryExecutor.move]
    split
    · exact .refl fun _ _ => rfl
    · rename_i hinsert
      rw [WebhookWorld.endpoints_insertRow hinsert]
      exact .refl fun _ _ => rfl
  | testLoading deliveryId =>
    simp only [DeliveryExecutor.move]
    split <;> exact .refl fun _ _ => rfl
  | loading row =>
    simp only [DeliveryExecutor.move]
    split
    · exact .refl fun _ _ => rfl
    · split_ifs
      · exact .refl fun _ _ => rfl
      · exact .refl fun _ _ => rfl
      · split <;> exact .refl fun _ _ => rfl
  | rendering row endpoint =>
    simp only [DeliveryExecutor.move]
    split <;> exact .refl fun _ _ => rfl
  | freezing row endpoint body => exact .refl fun _ _ => rfl
  | sending row endpoint body =>
    simp only [DeliveryExecutor.move]
    split <;> exact .refl fun _ _ => rfl
  | awaiting row endpoint body => cases choice <;> exact .refl fun _ _ => rfl
  | writing row write after => exact .refl fun _ _ => rfl
  | releasing row after =>
    refine .updateOne (fun doc => ?_) fun _ _ _ => rfl
    unfold applyWhere
    split <;> exact ⟨rfl, rfl⟩
  | healing endpointId write =>
    have hothers : ∀ other, other ≠ endpointId → ∀ h,
        (WebhookAgent.attempt (.healing endpointId write)).healthAfter other h = h :=
      fun other hother h => if_neg hother
    cases write with
    | success => exact .updateOne (fun doc => ⟨rfl, (if_pos rfl).symm⟩) hothers
    | exhausted failure => exact .updateOne (fun doc => ⟨rfl, (if_pos rfl).symm⟩) hothers
    | disable reason => exact .updateOne (fun doc => ⟨rfl, (if_pos rfl).symm⟩) hothers

/-- A slot that is taken, or not. -/
theorem healedStore_reservePending {id : ObjectId} {cap : Nat}
    (hquiet : ∀ id h, agent.healthAfter id h = h) :
    HealedStore agent endpoints (WebhookEndpointRepository.reservePending endpoints id cap).2 := by
  refine .updateOne (fun doc => ?_) fun other _ => hquiet other
  rw [hquiet]
  unfold applyWhere
  split <;> exact ⟨rfl, rfl⟩

theorem healedStore_dispatch (home : Nat) (choice : WebhookChoice) (phase : DispatchPhase)
    (s : WebhookWorld) : HealedStore (.dispatch home phase) s.endpoints
      (WebhookDispatcher.move lib cfg home choice phase s).2.endpoints := by
  cases phase with
  | idle => cases choice <;> exact .refl fun _ _ => rfl
  | matching event =>
    cases choice with
    | unreachable => exact .refl fun _ _ => rfl
    | _ =>
      simp only [WebhookDispatcher.move]
      split_ifs <;> exact .refl fun _ _ => rfl
  | finding event cached =>
    simp only [WebhookDispatcher.move]
    split_ifs <;> exact .refl fun _ _ => rfl
  | caching event endpoints => cases choice <;> exact .refl fun _ _ => rfl
  | recording event endpoints =>
    simp only [WebhookDispatcher.move]
    split
    · exact .refl fun _ _ => rfl
    · rename_i hinsert
      rw [WebhookWorld.endpoints_insertEvent hinsert]
      exact .refl fun _ _ => rfl
  | reserving d endpoint rest =>
    simp only [WebhookDispatcher.move]
    split
    · rename_i endpoints hreserve
      rw [show endpoints = (WebhookEndpointRepository.reservePending s.endpoints endpoint.id
        cfg.maxPendingPerEndpoint).2 by rw [hreserve]]
      exact healedStore_reservePending fun _ _ => rfl
    · split_ifs <;> exact .refl fun _ _ => rfl
  | counting d endpoint rest => exact .refl fun _ _ => rfl
  | repairing d endpoint rest counted => exact .updateOne (fun _ => ⟨rfl, rfl⟩) fun _ _ _ => rfl
  | reserveAgain d endpoint rest =>
    simp only [WebhookDispatcher.move]
    split
    · rename_i endpoints hreserve
      rw [show endpoints = (WebhookEndpointRepository.reservePending s.endpoints endpoint.id
        cfg.maxPendingPerEndpoint).2 by rw [hreserve]]
      exact healedStore_reservePending fun _ _ => rfl
    · exact .refl fun _ _ => rfl
  | dropping d endpoint rest =>
    exact .updateOne (fun _ => ⟨rfl, (if_pos rfl).symm⟩) fun _ hother _ => if_neg hother
  | storing d =>
    simp only [WebhookDispatcher.move]
    split
    · exact .refl fun _ _ => rfl
    · split
      · exact .refl fun _ _ => rfl
      · rename_i hinsert
        rw [WebhookWorld.endpoints_insertRow hinsert]
        exact .refl fun _ _ => rfl

theorem healedStore_owner (choice : WebhookChoice) (phase : OwnerPhase) (s : WebhookWorld) :
    HealedStore (.owner phase) s.endpoints (WebhookService.move lib cfg choice phase s).2.endpoints := by
  cases phase with
  | idle =>
    cases choice with
    | create request =>
      simp only [WebhookService.move]
      split_ifs <;> exact .refl fun _ _ => rfl
    | _ => exact .refl fun _ _ => rfl
  | creating request =>
    simp only [WebhookService.move]
    split_ifs
    · exact .refl fun _ _ => rfl
    · split <;> exact .refl fun _ _ => rfl
  | inserting request scope =>
    simp only [WebhookService.move]
    split
    · exact .refl fun _ _ => rfl
    · rename_i hinsert
      obtain ⟨endpoints, hnew, rfl⟩ := Option.map_eq_some_iff.1 hinsert
      exact .insertOne hnew ⟨⟨request, scope, rfl, rfl⟩, rfl⟩ fun _ _ => rfl
  | updating endpointId userId request =>
    simp only [WebhookService.move]
    split
    · exact .refl fun _ _ => rfl
    · split
      · exact .refl fun _ _ => rfl
      · split_ifs <;> exact .refl fun _ _ => rfl
  | writing endpointId userId updates =>
    exact .updateOne (fun _ => ⟨rfl, (if_pos rfl).symm⟩) fun _ hother _ => if_neg hother
  | deleting endpointId userId =>
    simp only [WebhookService.move]
    split
    · exact .refl fun _ _ => rfl
    · rename_i endpoints hdelete
      rw [show endpoints = (WebhookEndpointRepository.deleteEndpoint s.endpoints endpointId
        userId).2 by rw [hdelete]]
      exact .deleteMany rfl fun _ _ => rfl
  | invalidating userId => cases choice <;> exact .refl fun _ _ => rfl

/-- One move of anyone that does not fail. -/
theorem healedStore_act {choice : WebhookChoice} (hfails : choice.fails = false)
    (agent : WebhookAgent) (s : WebhookWorld) :
    HealedStore agent s.endpoints (WebhookAgent.act lib cfg choice agent s).2.endpoints := by
  cases agent with
  | attempt phase =>
    cases choice with
    | fail => cases hfails
    | _ => exact healedStore_attempt lib cfg _ phase s
  | dispatch home phase =>
    cases choice with
    | fail => cases hfails
    | _ => exact healedStore_dispatch lib cfg home _ phase s
  | owner phase =>
    cases choice with
    | fail => cases hfails
    | _ => exact healedStore_owner lib cfg _ phase s
  | janitor => cases choice <;> exact .refl fun _ _ => rfl

end

end Spoo
