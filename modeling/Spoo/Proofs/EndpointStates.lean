import Spoo.Proofs.EndpointHealth
import Spoo.Proofs.PendingSlots

/-!
# The states of an endpoint

Attempts disable an endpoint, with a reason, and owners pause it and resume it. A request that resumes
an endpoint clears its bookkeeping where it has read that the endpoint is DISABLED. What is stored when
the request writes may be another status than what it has read, and an endpoint can also come back by
way of PAUSED.
-/

namespace Spoo

open Agents Mongo.Collection

variable {ι : Type}

/-- The endpoint is stored with this status. -/
def WebhookWorld.hasStatus (s : WebhookWorld) (status : WebhookStatus) (id : ObjectId) : Bool :=
  (s.endpoints.lookup id).any (·.status = status)

/-- What an owner is about to write, and to which endpoint. -/
def WebhookAgent.updating : WebhookAgent → Option (ObjectId × EndpointUpdates)
  | .owner (.writing endpointId _ updates) => some (endpointId, updates)
  | _ => none

/-- What a request has read of the status of its endpoint, and the status that it asks for. -/
structure StatusRequest where
  read : WebhookStatus
  asked : Option WebhookStatus
  deriving DecidableEq, Repr

/-- The request asks for ACTIVE, and has read DISABLED. -/
def StatusRequest.Reactivates (request : StatusRequest) : Prop :=
  request.asked = some .active ∧ request.read = .disabled

instance (request : StatusRequest) : Decidable request.Reactivates := inferInstanceAs (Decidable (_ ∧ _))

/-- What the next move of an owner reads, for a request that changes an endpoint. -/
def WebhookAgent.statusRequest (agent : WebhookAgent) (s : WebhookWorld) : Option StatusRequest :=
  match agent with
  | .owner (.updating endpointId userId request) =>
    (WebhookEndpointRepository.findOwned s.endpoints endpointId userId).map (⟨·.status, request.status⟩)
  | _ => none

/-- The endpoints that have been DISABLED and ACTIVE again, and what the requests have read. -/
structure StatusHistory (ι : Type) where
  /-- Those that have been DISABLED since they were last ACTIVE. -/
  disabled : ObjectId → Bool := fun _ => false
  /-- How such endpoints were when they became ACTIVE. -/
  restarted : List EndpointHealth := []
  /-- The request of an owner that is not yet written. -/
  requests : ι → Option StatusRequest := fun _ => none

/-- What a move adds. -/
def recordStatus [DecidableEq ι] (who : ι) (_ : WebhookAnswer) (agent : WebhookAgent) (s : WebhookWorld)
    (moved : WebhookAgent × WebhookWorld) (h : StatusHistory ι) : StatusHistory ι where
  disabled id := (h.disabled id || s.hasStatus .disabled id) && !moved.2.hasStatus .active id
  restarted :=
    (moved.2.endpoints.docs.filter fun doc =>
      doc.status = .active && (h.disabled doc.id || s.hasStatus .disabled doc.id)).map (·.health) ++
      h.restarted
  requests i := if i = who then agent.statusRequest s else h.requests i

/-- An endpoint that is not DISABLED has no reason for it, and one that has become ACTIVE again started
like a new one. -/
structure StatesKept (s : WebhookWorld) (h : StatusHistory ι) : Prop where
  reasons : ∀ doc ∈ s.endpoints.docs, doc.status ≠ .disabled → doc.disabledReason = none
  restarted : ∀ health ∈ h.restarted, health = {}

/-- Where a request writes to an endpoint that is DISABLED at that moment and asks for a status, it asks
for ACTIVE and has read DISABLED. -/
def ReactivatesCleared (pool : Pool ι WebhookAgent (WebhookWorld × StatusHistory ι))
    (event : ι × WebhookAnswer) : Prop :=
  event.2.choice.fails = false → ∀ write ∈ (pool.agents event.1).updating,
    pool.shared.1.hasStatus .disabled write.1 = true →
      ∀ request ∈ pool.shared.2.requests event.1, request.asked ≠ none → request.Reactivates

instance (pool : Pool ι WebhookAgent (WebhookWorld × StatusHistory ι)) (event : ι × WebhookAnswer) :
    Decidable (ReactivatesCleared pool event) :=
  inferInstanceAs (Decidable (event.2.choice.fails = false →
    ∀ write ∈ (pool.agents event.1).updating, pool.shared.1.hasStatus .disabled write.1 = true →
      ∀ request ∈ pool.shared.2.requests event.1, request.asked ≠ none → request.Reactivates))

/-- What a request can write of the status. -/
inductive StatusWrite (request : StatusRequest) (updates : EndpointUpdates) : Prop where
  | keepsReason (hasked : updates.status = request.asked) (hother : ¬ request.Reactivates)
      (hstatus : updates.status ≠ some .disabled) (hreason : updates.disabledReason = none)
  | reactivates (hrequest : request.Reactivates) (hstatus : updates.status = some .active)
      (hreason : updates.disabledReason = some none) (hfailures : updates.consecutiveFailures = some 0)
      (hdropped : updates.droppedCount = some 0)

/-- What an owner is about to write was made of what was asked for. -/
def WebhookAgent.WritesRequest (agent : WebhookAgent) (requested : Option StatusRequest) : Prop :=
  ∀ write, agent.updating = some write →
    ∃ request, requested = some request ∧ StatusWrite request write.2

/-- What a move can make of the status of an endpoint. -/
inductive HealthStep (h : EndpointHealth) : EndpointHealth → Prop where
  | keeps {h' : EndpointHealth} (hstatus : h'.status = h.status)
      (hreason : h'.disabledReason = h.disabledReason) : HealthStep h h'
  | turns {h' : EndpointHealth} (hbefore : h.status ≠ .disabled) (hafter : h'.status ≠ .disabled)
      (hreason : h'.disabledReason = h.disabledReason) : HealthStep h h'
  | disables {h' : EndpointHealth} (hstatus : h'.status = .disabled)
      (hreason : h'.disabledReason ≠ none) : HealthStep h h'
  | restarts : HealthStep h {}

/-- What holds of the endpoints and of the history besides. -/
structure ReasonsKept (s : WebhookWorld) (h : StatusHistory ι) : Prop where
  reasons : ∀ doc ∈ s.endpoints.docs, doc.status = .disabled → doc.disabledReason ≠ none
  disabled : ∀ doc ∈ s.endpoints.docs, h.disabled doc.id = true → doc.status = .disabled

section

variable {lib : WebhookLib} {cfg : WebhookConfig} {s s' : WebhookWorld} {h : StatusHistory ι}
  {agent : WebhookAgent}

theorem hasStatus_iff {status : WebhookStatus} {doc : WebhookEndpointDoc}
    (hdoc : doc ∈ s.endpoints.docs) : s.hasStatus status doc.id = true ↔ doc.status = status := by
  have hlookup : s.endpoints.lookup doc.id = some doc := lookup_eq_some_iff.2 ⟨hdoc, rfl⟩
  simp [WebhookWorld.hasStatus, hlookup]

theorem statusWrite_of_statusTransition {doc : WebhookEndpointDoc} {status : WebhookStatus}
    {updates updates' : EndpointUpdates} (hreason : updates.disabledReason = none)
    (h : WebhookService.statusTransition doc status updates = some updates') :
    StatusWrite ⟨doc.status, some status⟩ updates' := by
  unfold WebhookService.statusTransition at h
  split_ifs at h with hdisabled hreactivates
  · cases h
    obtain ⟨hactive, hread⟩ := hreactivates
    exact .reactivates ⟨congrArg some hactive, hread⟩ (congrArg some hactive) rfl rfl rfl
  · cases h
    refine .keepsReason rfl (fun hboth => hreactivates ⟨Option.some.inj hboth.1, hboth.2⟩) ?_ hreason
    exact fun hstatus => hdisabled (Option.some.inj hstatus)

/-- A request that is accepted. -/
theorem statusWrite_of_updatesOf {doc : WebhookEndpointDoc} {request : UpdateEndpoint}
    {updates : EndpointUpdates} (h : WebhookService.updatesOf lib doc request = some updates) :
    StatusWrite ⟨doc.status, request.status⟩ updates := by
  have hkept {before : EndpointUpdates} (hasked : request.status = none)
      (hstatus : before.status = none) (hreason : before.disabledReason = none)
      (hupdates : some before = some updates) : StatusWrite ⟨doc.status, request.status⟩ updates := by
    cases hupdates
    exact .keepsReason (hstatus.trans hasked.symm) (fun hboth => by cases hasked.symm.trans hboth.1)
      (by simp [hstatus]) hreason
  unfold WebhookService.updatesOf at h
  simp only at h
  split_ifs at h
  split at h
  · split at h
    · rename_i hasked
      exact hkept hasked rfl rfl h
    · rename_i status hasked
      rw [hasked]
      exact statusWrite_of_statusTransition rfl h
  · obtain ⟨scope, -, h⟩ := Option.bind_eq_some_iff.1 h
    split at h
    · rename_i hasked
      exact hkept hasked rfl rfl h
    · rename_i status hasked
      rw [hasked]
      exact statusWrite_of_statusTransition rfl h

theorem statusWrite_owner {choice : WebhookChoice} {phase : OwnerPhase}
    {write : ObjectId × EndpointUpdates}
    (h : (WebhookAgent.owner (WebhookService.move lib cfg choice phase s).1).updating = some write) :
    ∃ request, (WebhookAgent.owner phase).statusRequest s = some request ∧
      StatusWrite request write.2 := by
  cases phase with
  | idle =>
    cases choice with
    | create request =>
      simp only [WebhookService.move] at h
      split_ifs at h <;> cases h
    | _ => cases h
  | creating request =>
    simp only [WebhookService.move] at h
    split_ifs at h
    · cases h
    · split at h <;> cases h
  | inserting request scope =>
    simp only [WebhookService.move] at h
    split at h <;> cases h
  | updating endpointId userId request =>
    simp only [WebhookService.move] at h
    split at h
    · cases h
    · rename_i doc hdoc
      split at h
      · cases h
      · rename_i updates hupdates
        split_ifs at h
        · cases h
        · cases h
          refine ⟨⟨doc.status, request.status⟩, ?_, statusWrite_of_updatesOf hupdates⟩
          rw [WebhookAgent.statusRequest, hdoc]
          rfl
  | writing endpointId userId updates => cases h
  | deleting endpointId userId =>
    simp only [WebhookService.move] at h
    split at h <;> cases h
  | invalidating userId => cases choice <;> cases h

/-- What an owner has come to write was made of the request that it has just read for. -/
theorem writesRequest_act {choice : WebhookChoice} :
    (WebhookAgent.act lib cfg choice agent s).1.WritesRequest (agent.statusRequest s) := by
  intro write h
  cases agent with
  | attempt phase => cases choice <;> cases h
  | dispatch home phase => cases choice <;> cases h
  | janitor => cases choice <;> cases h
  | owner phase =>
    cases choice with
    | fail => cases h
    | _ => exact statusWrite_owner h

/-- What a move makes of an endpoint. -/
theorem healthStep_healthAfter {id : ObjectId} {health : EndpointHealth}
    {requested : Option StatusRequest} (hwrite : agent.WritesRequest requested)
    (hclears : ∀ write, agent.updating = some write → write.1 = id → health.status = .disabled →
      ∀ request ∈ requested, request.asked ≠ none → request.Reactivates) :
    HealthStep health (agent.healthAfter id health) := by
  have hsame : HealthStep health health := .keeps rfl rfl
  cases agent with
  | attempt phase =>
    cases phase with
    | healing endpointId write =>
      simp only [WebhookAgent.healthAfter]
      split_ifs
      · cases write with
        | success => exact .keeps rfl rfl
        | exhausted failure => exact .keeps rfl rfl
        | disable reason => exact .disables rfl fun hnone => nomatch hnone
      · exact hsame
    | _ => exact hsame
  | dispatch home phase =>
    cases phase with
    | dropping d endpoint rest =>
      simp only [WebhookAgent.healthAfter]
      split_ifs
      · exact .keeps rfl rfl
      · exact hsame
    | _ => exact hsame
  | owner phase =>
    cases phase with
    | writing endpointId userId updates =>
      simp only [WebhookAgent.healthAfter]
      split_ifs with hid
      · obtain ⟨request, hrequested, hstatusWrite⟩ := hwrite _ rfl
        cases hstatusWrite with
        | reactivates _ hstatus hreason hfailures hdropped =>
          rw [EndpointUpdates.health, hstatus, hreason, hfailures, hdropped]
          exact .restarts
        | keepsReason hasked hnot hstatus hreason =>
          cases hto : updates.status with
          | none =>
            refine .keeps ?_ ?_
            · rw [EndpointUpdates.health, hto]
              rfl
            · rw [EndpointUpdates.health, hreason]
              rfl
          | some status =>
            have hbefore : health.status ≠ .disabled := by
              intro hdisabled
              refine hnot (hclears _ rfl hid.symm hdisabled request hrequested fun hnone => ?_)
              cases hto.symm.trans (hasked.trans hnone)
            refine .turns hbefore ?_ ?_
            · rw [EndpointUpdates.health, hto]
              exact fun hdisabled => hstatus (hto.trans (congrArg some hdisabled))
            · rw [EndpointUpdates.health, hreason]
              rfl
      · exact hsame
    | _ => exact hsame
  | janitor => exact hsame

/-- What is stored after a move that does not fail was stored before, or is new. -/
theorem HealedStore.healthStep {endpoints : EndpointStore}
    (hheal : HealedStore agent s.endpoints endpoints) {requested : Option StatusRequest}
    (hwrite : agent.WritesRequest requested)
    (hclears : ∀ write, agent.updating = some write → s.hasStatus .disabled write.1 = true →
      ∀ request ∈ requested, request.asked ≠ none → request.Reactivates)
    {doc' : WebhookEndpointDoc} (hdoc' : doc' ∈ endpoints.docs) :
    (∃ doc ∈ s.endpoints.docs, doc.id = doc'.id ∧ HealthStep doc.health doc'.health) ∨
      doc'.health = {} := by
  rcases hheal.old doc'.id doc' (lookup_eq_some_iff.2 ⟨hdoc', rfl⟩) with
    ⟨doc, hdoc, hhealed⟩ | ⟨-, hnew⟩
  · obtain ⟨hmem, hid⟩ := lookup_eq_some_iff.1 hdoc
    refine .inl ⟨doc, hmem, hid, ?_⟩
    rw [hhealed.health]
    refine healthStep_healthAfter hwrite fun write hupdating htarget hdisabled => ?_
    exact hclears write hupdating (htarget ▸ (hasStatus_iff hmem).2 hdisabled)
  · exact .inr hnew.health

/-- A document as a move has left it. -/
def Stepped (s : WebhookWorld) (doc' : WebhookEndpointDoc) : Prop :=
  (∃ doc ∈ s.endpoints.docs, doc.id = doc'.id ∧ HealthStep doc.health doc'.health) ∨
    doc'.health = {}

/-- What has been DISABLED and becomes ACTIVE starts like a new endpoint. -/
theorem Stepped.restarted {doc' : WebhookEndpointDoc} (hdoc : Stepped s doc')
    (hr : ReasonsKept s h) (hdisabled : (h.disabled doc'.id || s.hasStatus .disabled doc'.id) = true)
    (hactive : doc'.status ≠ .disabled) : doc'.health = {} := by
  rcases hdoc with ⟨doc, hmem, hid, hstep⟩ | hnew
  · have hbefore : doc.status = .disabled := by
      rw [← hid] at hdisabled
      rcases Bool.or_eq_true_iff.1 hdisabled with hflag | hstored
      · exact hr.disabled doc hmem hflag
      · exact (hasStatus_iff hmem).1 hstored
    generalize hafter : doc'.health = after at hstep
    cases hstep with
    | keeps hstatus =>
      subst hafter
      exact absurd (hstatus.trans hbefore) hactive
    | turns hother => exact absurd hbefore hother
    | disables hstatus =>
      subst hafter
      exact absurd hstatus hactive
    | restarts => rfl
  · exact hnew

/-- One move. -/
theorem kept_recordStatus [DecidableEq ι] (who : ι) (answer : WebhookAnswer) (agent : WebhookAgent)
    {moved : WebhookAgent × WebhookWorld}
    (hstep : ∀ doc' ∈ moved.2.endpoints.docs, Stepped s doc') (hs : StatesKept s h)
    (hr : ReasonsKept s h) : ReasonsKept moved.2 (recordStatus who answer agent s moved h) ∧
      StatesKept moved.2 (recordStatus who answer agent s moved h) := by
  constructor
  · constructor
    · intro doc' hdoc' hdisabled
      rcases hstep doc' hdoc' with ⟨doc, hmem, -, hstep⟩ | hnew
      · generalize hafter : doc'.health = after at hstep
        cases hstep with
        | keeps hstatus hreason =>
          subst hafter
          rw [show doc'.disabledReason = doc.disabledReason from hreason]
          exact hr.reasons doc hmem (hstatus.symm.trans hdisabled)
        | turns _ hstatus _ =>
          subst hafter
          exact absurd hdisabled hstatus
        | disables _ hreason =>
          subst hafter
          exact hreason
        | restarts => cases (congrArg EndpointHealth.status hafter).symm.trans hdisabled
      · cases (congrArg EndpointHealth.status hnew).symm.trans hdisabled
    · intro doc' hdoc' hflag
      obtain ⟨hbefore, hinactive⟩ := Bool.and_eq_true_iff.1 hflag
      by_contra hactive
      have hstarted := (hstep doc' hdoc').restarted hr hbefore hactive
      rw [(hasStatus_iff hdoc').2 (congrArg EndpointHealth.status hstarted)] at hinactive
      cases hinactive
  · constructor
    · intro doc' hdoc' hother
      rcases hstep doc' hdoc' with ⟨doc, hmem, -, hstep⟩ | hnew
      · generalize hafter : doc'.health = after at hstep
        cases hstep with
        | keeps hstatus hreason =>
          subst hafter
          rw [show doc'.disabledReason = doc.disabledReason from hreason]
          exact hs.reasons doc hmem fun hdisabled => hother (hstatus.trans hdisabled)
        | turns hbefore _ hreason =>
          subst hafter
          rw [show doc'.disabledReason = doc.disabledReason from hreason]
          exact hs.reasons doc hmem hbefore
        | disables hstatus _ =>
          subst hafter
          exact absurd hstatus hother
        | restarts => exact congrArg EndpointHealth.disabledReason hafter
      · exact congrArg EndpointHealth.disabledReason hnew
    · intro health hhealth
      rcases List.mem_append.1 hhealth with hnew | hold
      · obtain ⟨doc', hdoc', rfl⟩ := List.mem_map.1 hnew
        obtain ⟨hmem, hpass⟩ := List.mem_filter.1 hdoc'
        obtain ⟨hactive, hbefore⟩ := Bool.and_eq_true_iff.1 hpass
        refine (hstep doc' hmem).restarted hr hbefore ?_
        rw [of_decide_eq_true hactive]
        exact WebhookStatus.noConfusion
      · exact hs.restarted health hold

end

/-! ## Runs -/

section

variable {lib : WebhookLib} {cfg : WebhookConfig}
  {pool : Pool ι WebhookAgent (WebhookWorld × StatusHistory ι)} {event : ι × WebhookAnswer}

theorem eq_of_updating {agent : WebhookAgent} {write : ObjectId × EndpointUpdates}
    (h : agent.updating = some write) :
    ∃ userId, agent = .owner (.writing write.1 userId write.2) := by
  unfold WebhookAgent.updating at h
  split at h
  · cases h
    exact ⟨_, rfl⟩
  · cases h

/-- What a move stores where the condition holds. -/
theorem stepped_move (lib : WebhookLib) (cfg : WebhookConfig)
    (hwrite : (pool.agents event.1).WritesRequest (pool.shared.2.requests event.1))
    (hguard : ReactivatesCleared pool event) : ∀ doc' ∈ (WebhookAgent.move lib cfg event.1 event.2
      (pool.agents event.1) pool.shared.1).2.endpoints.docs, Stepped pool.shared.1 doc' := by
  intro doc' hdoc'
  cases hfails : event.2.choice.fails with
  | true =>
    have hworld : (WebhookAgent.move lib cfg event.1 event.2 (pool.agents event.1)
        pool.shared.1).2 = pool.shared.1.wait event.2.delay :=
      (act_of_fails lib cfg hfails (pool.agents event.1) (pool.shared.1.wait event.2.delay)).1
    rw [hworld] at hdoc'
    exact .inl ⟨doc', hdoc', rfl, .keeps rfl rfl⟩
  | false =>
    exact (healedStore_act lib cfg hfails (pool.agents event.1)
      (pool.shared.1.wait event.2.delay)).healthStep hwrite (hguard hfails) hdoc'

/-- A move that keeps the states is as the condition has it. -/
theorem reactivatesCleared_of_statesKept {h : StatusHistory ι}
    (hwrite : (pool.agents event.1).WritesRequest (pool.shared.2.requests event.1))
    (hr : ReasonsKept pool.shared.1 pool.shared.2)
    (hnext : StatesKept (WebhookAgent.move lib cfg event.1 event.2 (pool.agents event.1)
      pool.shared.1).2 h) : ReactivatesCleared pool event := by
  intro hfails write hupdating hdisabled request hrequest hasks
  obtain ⟨made, hmade, hstatusWrite⟩ := hwrite write hupdating
  cases hmade.symm.trans hrequest
  cases hstatusWrite with
  | reactivates hrequest => exact hrequest
  | keepsReason hasked _ hother hreason =>
    have hstatus : write.2.status ≠ none := fun hnone => hasks (hasked.symm.trans hnone)
    obtain ⟨doc, hdoc, hbefore⟩ := Option.any_eq_true .. |>.1 hdisabled
    obtain ⟨hmem, hid⟩ := lookup_eq_some_iff.1 hdoc
    obtain ⟨userId, hagent⟩ := eq_of_updating hupdating
    have hheal := healedStore_act lib cfg hfails (pool.agents event.1)
      (pool.shared.1.wait event.2.delay)
    obtain ⟨doc', hdoc', hhealed⟩ := hheal.kept (by rw [hagent]; rfl) write.1 doc hdoc
    have hhealth : doc'.health = write.2.health doc.health := by
      rw [hhealed.health, hagent]
      exact if_pos hid
    -- It has a status of the owner's now, and the old reason.
    have hnow : doc'.status ≠ .disabled := by
      rw [show doc'.status = write.2.status.getD doc.status from congrArg EndpointHealth.status hhealth]
      obtain ⟨status, hto⟩ := Option.ne_none_iff_exists'.1 hstatus
      rw [hto]
      exact fun hdisabled => hother (hto.trans (congrArg some hdisabled))
    have hkept : doc'.disabledReason = doc.disabledReason := by
      rw [show doc'.disabledReason = write.2.disabledReason.getD doc.disabledReason from
        congrArg EndpointHealth.disabledReason hhealth, hreason]
      rfl
    have hnone := hnext.reasons doc' (lookup_eq_some_iff.1 hdoc').1 hnow
    exact absurd (hkept.symm.trans hnone) (hr.reasons doc hmem (of_decide_eq_true hbefore))

end

/-- In a run the endpoints that are not DISABLED have no reason, and those that become ACTIVE after
they were DISABLED start cleared, exactly when every request with a status that is written to a DISABLED
endpoint had read DISABLED and asked for ACTIVE. -/
theorem statesKept_iff_reactivatesCleared [DecidableEq ι] (lib : WebhookLib) (cfg : WebhookConfig)
    (pool : Pool ι WebhookAgent (WebhookWorld × StatusHistory ι)) (events : List (ι × WebhookAnswer))
    (hidle : ∀ who, (pool.agents who).Idle)
    (hreasons : ∀ doc ∈ pool.shared.1.endpoints.docs,
      doc.status = .disabled ↔ doc.disabledReason ≠ none)
    (hstart : pool.shared.2 = {}) :
    (∀ t ∈ List.scanl (Pool.step (recorded recordStatus (WebhookAgent.move lib cfg))) pool events,
        StatesKept t.shared.1 t.shared.2) ↔
      Run.Guarded (Pool.step (recorded recordStatus (WebhookAgent.move lib cfg))) ReactivatesCleared
        pool events := by
  refine Run.forall_mem_scanl_iff_of_invariant
    (Pool.Sound (fun s => ReasonsKept s.1 s.2)
      fun who agent s => agent.WritesRequest (s.2.requests who))
    (fun pool event hsound _ hnext => ?_) (fun pool event hsound hkept hguard => ?_) ?_ ?_
  · exact reactivatesCleared_of_statesKept (hsound.agents event.1) hsound.shared hnext
  · have hstep := stepped_move lib cfg (hsound.agents event.1) hguard
    obtain ⟨hr, hs⟩ := kept_recordStatus event.1 event.2 (pool.agents event.1) hstep hkept hsound.shared
    refine ⟨hsound.step ⟨hr, ?_, fun other agent hne hother => ?_⟩, hs⟩
    · simp only [recorded, recordStatus, if_true]
      exact writesRequest_act
    · simp only [recorded, recordStatus, if_neg hne]
      exact hother
  · refine ⟨⟨fun doc hdoc => (hreasons doc hdoc).1, fun doc _ hflag => ?_⟩, fun who write hupdating => ?_⟩
    · rw [hstart] at hflag
      cases hflag
    · obtain ⟨userId, hagent⟩ := eq_of_updating hupdating
      have hidle := hidle who
      rw [hagent] at hidle
      cases hidle
  · refine ⟨fun doc hdoc hother => ?_, fun health hhealth => ?_⟩
    · by_contra hreason
      exact hother ((hreasons doc hdoc).2 hreason)
    · rw [hstart] at hhealth
      cases hhealth

/-- A disabled endpoint and its owner. -/
def ownerOfDisabled : Pool Unit WebhookAgent (WebhookWorld × StatusHistory Unit) where
  agents _ := .owner .idle
  shared := ({
    endpoints := ⟨[{ everyEvent with
      status := .disabled
      disabledReason := some .consecutiveFailures
      consecutiveFailures := 10 }], by simp, by simp⟩
    deliveries := .empty
    events := .empty
    clock := 0
    issued := 2 }, {})

/-- A request of the owner that sets the status. -/
def setStatus (status : WebhookStatus) : List (Unit × WebhookAnswer) :=
  [((), ⟨0, .update 1 0 { status := some status }⟩), ((), ⟨0, .go⟩), ((), ⟨0, .go⟩), ((), ⟨0, .go⟩)]

theorem statesKept_iff_reactivatesCleared_reactivated :
    (∀ t ∈ List.scanl (Pool.step (recorded recordStatus (WebhookAgent.move plainLib {})))
        ownerOfDisabled (setStatus .active), StatesKept t.shared.1 t.shared.2) ↔
      Run.Guarded (Pool.step (recorded recordStatus (WebhookAgent.move plainLib {})))
        ReactivatesCleared ownerOfDisabled (setStatus .active) := by
  refine statesKept_iff_reactivatesCleared _ _ _ _ (fun _ => rfl) (fun doc hdoc => ?_) rfl
  obtain rfl := List.mem_singleton.1 hdoc
  simp

/-- An endpoint that comes back by way of PAUSED keeps the reason and the failures. -/
theorem states_broken_pausedFirst :
    ∃ t ∈ List.scanl (Pool.step (recorded recordStatus (WebhookAgent.move plainLib {})))
      ownerOfDisabled (setStatus .paused ++ setStatus .active), ¬ StatesKept t.shared.1 t.shared.2 := by
  refine ⟨(setStatus .paused ++ setStatus .active).foldl (Pool.step (recorded recordStatus
    (WebhookAgent.move plainLib {}))) ownerOfDisabled, by simp [setStatus], fun h => ?_⟩
  have hrestarted : ((setStatus .paused ++ setStatus .active).foldl (Pool.step (recorded recordStatus
      (WebhookAgent.move plainLib {}))) ownerOfDisabled).shared.2.restarted =
        [{ disabledReason := some .consecutiveFailures, consecutiveFailures := 10 }] := by
    decide +kernel
  cases h.restarted _ (by rw [hrestarted]; exact List.mem_singleton_self _)

end Spoo
