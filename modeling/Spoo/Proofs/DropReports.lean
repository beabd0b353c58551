import Spoo.Proofs.EndpointHealth
import Spoo.Proofs.PendingSlots

/-!
# Drops and what reports them

A dispatch that finds no slot counts a drop at the endpoint. The rows that are made of the endpoint
carry the count as the dispatch has read it, and a delivery that succeeds resets it, whatever row it
was of. The drops of a run are numbered as they are made.
-/

namespace Spoo

open Agents Mongo.Collection

variable {ι : Type}

/-- The endpoint at which an agent is about to count a drop. -/
def WebhookAgent.dropping : WebhookAgent → Option ObjectId
  | .dispatch _ (.dropping _ endpoint _) => some endpoint.id
  | _ => none

/-- The endpoint whose count an agent is about to reset. -/
def WebhookAgent.draining : WebhookAgent → Option ObjectId
  | .attempt (.healing endpointId .success) => some endpointId
  | _ => none

/-- A dispatch that is about to read the endpoints. -/
def WebhookAgent.finds : WebhookAgent → Bool
  | .dispatch _ (.finding ..) => true
  | _ => false

/-- What has become of the drops. -/
structure DropHistory (ι : Type) where
  /-- The endpoint of each drop. -/
  made : List ObjectId := []
  /-- The drops in the `dropped_count` of an endpoint. -/
  counted : ObjectId → List Nat := fun _ => []
  /-- The drops that were in it when a dispatch read the endpoint. -/
  matched : ι → ObjectId → List Nat := fun _ _ => []
  /-- The drops in the `dropped_since_last` of a row. -/
  carried : ObjectId → List Nat := fun _ => []

/-- What a move adds. -/
def recordDrops [DecidableEq ι] (who : ι) (answer : WebhookAnswer) (agent : WebhookAgent)
    (s : WebhookWorld) (moved : WebhookAgent × WebhookWorld) (h : DropHistory ι) : DropHistory ι :=
  if answer.choice.fails then h
  else {
    made := h.made ++ agent.dropping.toList
    counted := fun id =>
      if agent.draining = some id then []
      else if agent.dropping = some id then h.made.length :: h.counted id
      else h.counted id
    matched := if agent.finds then Function.update h.matched who h.counted else h.matched
    carried := fun id => match s.deliveries.lookup id, moved.2.deliveries.lookup id with
      | none, some row => if row.isTest then [] else h.matched who row.endpointId
      | _, _ => h.carried id }

/-- These are as many different drops of the endpoint. -/
structure DropHistory.Counts (h : DropHistory ι) (id : ObjectId) (drops : List Nat) (count : Nat) :
    Prop where
  length : drops.length = count
  nodup : drops.Nodup
  made : ∀ n ∈ drops, h.made[n]? = some id

/-- A row of the endpoint carries the drop. -/
def CarriedDrop (s : WebhookWorld) (h : DropHistory ι) (id : ObjectId) (n : Nat) : Prop :=
  ∃ row ∈ s.deliveries.docs, row.endpointId = id ∧ n ∈ h.carried row.id

/-- Every drop is in the count of its endpoint, or in that of a row that was made of it later. -/
structure DropsReported (s : WebhookWorld) (h : DropHistory ι) : Prop where
  endpoints : ∀ doc ∈ s.endpoints.docs, h.Counts doc.id (h.counted doc.id) doc.droppedCount
  rows : ∀ row ∈ s.deliveries.docs,
    h.Counts row.endpointId (h.carried row.id) row.droppedSinceLast
  reported : ∀ n id, h.made[n]? = some id →
    (n ∈ h.counted id ∧ ∃ doc ∈ s.endpoints.docs, doc.id = id) ∨ CarriedDrop s h id n

/-- A count is reset when rows carry the drops that are in it. -/
def DrainsReported (pool : Pool ι WebhookAgent (WebhookWorld × DropHistory ι))
    (event : ι × WebhookAnswer) : Prop :=
  event.2.choice.fails = false → ∀ id ∈ (pool.agents event.1).draining,
    ∀ doc ∈ pool.shared.1.endpoints.lookup id, ∀ n ∈ pool.shared.2.counted doc.id,
      CarriedDrop pool.shared.1 pool.shared.2 doc.id n

/-- The endpoints that a dispatch has read. -/
def DispatchPhase.matched : DispatchPhase → List WebhookEndpointDoc
  | .idle => []
  | .matching _ => []
  | .finding _ _ => []
  | .caching _ endpoints => endpoints
  | .recording _ endpoints => endpoints
  | .reserving d endpoint rest => d.rows.map (·.endpoint) ++ endpoint :: rest
  | .counting d endpoint rest => d.rows.map (·.endpoint) ++ endpoint :: rest
  | .repairing d endpoint rest _ => d.rows.map (·.endpoint) ++ endpoint :: rest
  | .reserveAgain d endpoint rest => d.rows.map (·.endpoint) ++ endpoint :: rest
  | .dropping d endpoint rest => d.rows.map (·.endpoint) ++ endpoint :: rest
  | .storing d => d.rows.map (·.endpoint)

/-- The endpoints that an agent has read for its dispatch. -/
def WebhookAgent.matched : WebhookAgent → List WebhookEndpointDoc
  | .dispatch _ phase => phase.matched
  | _ => []

/-- No request of an owner. -/
def WebhookAgent.isOwner : WebhookAgent → Bool
  | .owner _ => true
  | _ => false

/-- An agent knows the drops of the endpoints that it has read, and they are still stored. -/
structure KnowsDrops (who : ι) (agent : WebhookAgent) (s : WebhookWorld × DropHistory ι) : Prop where
  system : agent.isOwner = false
  permits : ∀ row w, agent.writing = some (row, w) → Permits row w
  stored : ∀ doc ∈ agent.matched, ∃ stored, s.1.endpoints.lookup doc.id = some stored
  counts : ∀ doc ∈ agent.matched, s.2.Counts doc.id (s.2.matched who doc.id) doc.droppedCount

section

variable {lib : WebhookLib} {cfg : WebhookConfig} {s : WebhookWorld} {phase : DispatchPhase}

theorem mem_matched_matched {event : Contract.DomainEvent} {endpoints : List WebhookEndpointDoc}
    {doc : WebhookEndpointDoc} (h : doc ∈ (WebhookDispatcher.matched event endpoints).matched) :
    doc ∈ endpoints := by
  unfold WebhookDispatcher.matched at h
  split at h
  · cases h
  · exact (List.mem_filter.1 h).1

theorem mem_matched_next {d : Dispatching} {rest : List WebhookEndpointDoc}
    {doc : WebhookEndpointDoc} (h : doc ∈ (WebhookDispatcher.next d rest).matched) :
    doc ∈ d.rows.map (·.endpoint) ++ rest := by
  cases rest with
  | nil => rwa [List.append_nil]
  | cons endpoint rest => exact h

theorem mem_matched_reserved {d : Dispatching} {endpoint : WebhookEndpointDoc}
    {rest : List WebhookEndpointDoc} {now : Int} {doc : WebhookEndpointDoc}
    (h : doc ∈ (WebhookDispatcher.reserved d endpoint rest now).matched) :
    doc ∈ d.rows.map (·.endpoint) ++ endpoint :: rest := by
  have hmem := mem_matched_next h
  simpa only [List.map_append, List.map_cons, List.map_nil, List.append_assoc, List.singleton_append]
    using hmem

/-- A dispatch reads the endpoints once, and then has no others. -/
theorem mem_matched_dispatch {home : Nat} {choice : WebhookChoice} {doc : WebhookEndpointDoc}
    (h : doc ∈ (WebhookDispatcher.move lib cfg home choice phase s).1.matched) :
    doc ∈ phase.matched ∨ (∃ event cached, phase = .finding event cached) ∧ doc ∈ s.endpoints.docs := by
  cases phase with
  | idle => cases choice <;> cases h
  | matching event =>
    cases choice with
    | unreachable => cases h
    | _ =>
      simp only [WebhookDispatcher.move] at h
      split_ifs at h <;> cases h
  | finding event cached =>
    refine .inr ⟨⟨event, cached, rfl⟩, ?_⟩
    simp only [WebhookDispatcher.move] at h
    split_ifs at h
    · exact (List.mem_filter.1 h).1
    · exact (List.mem_filter.1 (mem_matched_matched h)).1
  | caching event endpoints =>
    left
    cases choice <;> exact mem_matched_matched h
  | recording event endpoints =>
    left
    simp only [WebhookDispatcher.move] at h
    split at h
    · cases h
    · exact mem_matched_next h
  | reserving d endpoint rest =>
    left
    simp only [WebhookDispatcher.move] at h
    split at h
    · exact mem_matched_reserved h
    · split_ifs at h <;> exact h
  | counting d endpoint rest => exact .inl h
  | repairing d endpoint rest counted =>
    left
    simp only [WebhookDispatcher.move] at h
    split_ifs at h <;> exact h
  | reserveAgain d endpoint rest =>
    left
    simp only [WebhookDispatcher.move] at h
    split at h
    · exact mem_matched_reserved h
    · exact h
  | dropping d endpoint rest =>
    have hmem := mem_matched_next h
    refine .inl (List.mem_append.2 ((List.mem_append.1 hmem).imp_right ?_))
    exact List.mem_cons_of_mem endpoint
  | storing d =>
    left
    simp only [WebhookDispatcher.move] at h
    split at h
    · cases h
    · rename_i draft drafts hdrafts
      split at h
      · cases h
      · show doc ∈ d.rows.map (·.endpoint)
        rw [hdrafts]
        exact List.mem_cons_of_mem _ h

end

/-! ## Runs -/

section

variable {cfg : WebhookConfig} {agent agent' : WebhookAgent} {s s' : WebhookWorld}
  {h h' : DropHistory ι}

theorem DropHistory.Counts.mono {id : ObjectId} {drops : List Nat} {count : Nat}
    (hcounts : h.Counts id drops count)
    (hmade : ∀ (n : Nat) (id : ObjectId), h.made[n]? = some id → h'.made[n]? = some id) :
    h'.Counts id drops count :=
  { hcounts with made := fun n hn => hmade n id (hcounts.made n hn) }

theorem DropHistory.Counts.nil {id : ObjectId} : h.Counts id [] 0 :=
  ⟨rfl, List.nodup_nil, fun _ hn => (List.not_mem_nil hn).elim⟩

/-- The next drop is none of those that are counted. -/
theorem DropHistory.Counts.cons {id : ObjectId} {drops : List Nat} {count : Nat}
    (hcounts : h.Counts id drops count) (hmade : h'.made = h.made ++ [id]) :
    h'.Counts id (h.made.length :: drops) (count + 1) where
  length := by rw [List.length_cons, hcounts.length]
  nodup := by
    refine List.nodup_cons.2 ⟨fun hn => ?_, hcounts.nodup⟩
    have hnone : h.made[h.made.length]? = none := List.getElem?_eq_none (Nat.le_refl _)
    cases hnone.symm.trans (hcounts.made _ hn)
  made n hn := by
    rw [hmade]
    rcases List.mem_cons.1 hn with rfl | hn
    · exact List.getElem?_concat_length
    · obtain ⟨hlt, -⟩ := List.getElem?_eq_some_iff.1 (hcounts.made n hn)
      rw [List.getElem?_append_left hlt]
      exact hcounts.made n hn

/-- The drops of an endpoint after a move, as the count is written. -/
theorem droppedCount_healthAfter (hsystem : agent.isOwner = false) (id : ObjectId)
    (health : EndpointHealth) : (agent.healthAfter id health).droppedCount =
      if agent.draining = some id then 0
      else if agent.dropping = some id then health.droppedCount + 1
      else health.droppedCount := by
  cases agent with
  | attempt phase =>
    cases phase with
    | healing endpointId write =>
      by_cases hid : id = endpointId
      · subst hid
        cases write <;> simp [WebhookAgent.healthAfter, WebhookAgent.draining,
          WebhookAgent.dropping, HealthWrite.apply]
      · cases write <;> simp [WebhookAgent.healthAfter, WebhookAgent.draining,
          WebhookAgent.dropping, hid, Ne.symm hid]
    | _ => rfl
  | dispatch home phase =>
    cases phase with
    | dropping d endpoint rest =>
      by_cases hid : id = endpoint.id
      · subst hid
        simp [WebhookAgent.healthAfter, WebhookAgent.draining, WebhookAgent.dropping]
      · simp [WebhookAgent.healthAfter, WebhookAgent.draining, WebhookAgent.dropping, hid,
          Ne.symm hid]
    | _ => rfl
  | owner phase => cases hsystem
  | janitor => rfl

/-- An agent that counts a drop has read the endpoint. -/
theorem mem_matched_of_dropping {id : ObjectId} (hdropping : agent.dropping = some id) :
    agent.draining = none ∧ ∃ doc ∈ agent.matched, doc.id = id := by
  unfold WebhookAgent.dropping at hdropping
  split at hdropping
  · rename_i d endpoint rest
    cases hdropping
    exact ⟨rfl, endpoint, List.mem_append_right _ List.mem_cons_self, rfl⟩
  · cases hdropping

theorem mem_matched_of_drafts {draft : RowDraft} (hdraft : draft ∈ agent.drafts) :
    draft.endpoint ∈ agent.matched := by
  unfold WebhookAgent.drafts at hdraft
  split at hdraft
  · exact List.mem_map_of_mem hdraft
  · cases hdraft

theorem matched_of_finds (hfinds : agent.finds = true) : agent.matched = [] := by
  unfold WebhookAgent.finds at hfinds
  split at hfinds
  · rfl
  · cases hfinds

theorem mem_matched_act (lib : WebhookLib) {choice : WebhookChoice} {doc : WebhookEndpointDoc}
    (hdoc : doc ∈ (WebhookAgent.act lib cfg choice agent s).1.matched) :
    doc ∈ agent.matched ∨ agent.finds = true ∧ doc ∈ s.endpoints.docs := by
  cases agent with
  | dispatch home phase =>
    cases choice with
    | fail => cases hdoc
    | _ =>
      rcases mem_matched_dispatch hdoc with hold | ⟨⟨event, cached, rfl⟩, hstored⟩
      · exact .inl hold
      · exact .inr ⟨rfl, hstored⟩
  | _ => cases choice <;> cases hdoc

theorem deliveries_of_draining (lib : WebhookLib) {choice : WebhookChoice} {id : ObjectId}
    (hdraining : agent.draining = some id) :
    (WebhookAgent.act lib cfg choice agent s).2.deliveries = s.deliveries := by
  unfold WebhookAgent.draining at hdraining
  split at hdraining
  · cases choice <;> rfl
  · cases hdraining

theorem matched_of_fails (lib : WebhookLib) {choice : WebhookChoice} (hfails : choice.fails = true) :
    (WebhookAgent.act lib cfg choice agent s).1.matched = [] := by
  cases choice with
  | fail => cases agent <;> rfl
  | _ => cases hfails

theorem isOwner_act (lib : WebhookLib) (choice : WebhookChoice) :
    (WebhookAgent.act lib cfg choice agent s).1.isOwner = agent.isOwner := by
  cases agent <;> cases choice <;> rfl

end

section

variable [DecidableEq ι] {cfg : WebhookConfig} {who : ι} {agent : WebhookAgent}
  {s : WebhookWorld × DropHistory ι} {answer : WebhookAnswer} {moved : WebhookAgent × WebhookWorld}

/-- What has been counted after a move that does not fail. -/
theorem recordDrops_of_goes (hfails : answer.choice.fails = false) :
    recordDrops who answer agent s.1 moved s.2 = {
      made := s.2.made ++ agent.dropping.toList
      counted := fun id =>
        if agent.draining = some id then []
        else if agent.dropping = some id then s.2.made.length :: s.2.counted id
        else s.2.counted id
      matched := if agent.finds then Function.update s.2.matched who s.2.counted else s.2.matched
      carried := fun id => match s.1.deliveries.lookup id, moved.2.deliveries.lookup id with
        | none, some row => if row.isTest then [] else s.2.matched who row.endpointId
        | _, _ => s.2.carried id } := by
  rw [recordDrops, hfails, if_neg Bool.false_ne_true]

/-- Drops keep their numbers. -/
theorem made_recordDrops (n : Nat) (id : ObjectId) (hmade : s.2.made[n]? = some id) :
    (recordDrops who answer agent s.1 moved s.2).made[n]? = some id := by
  unfold recordDrops
  split
  · exact hmade
  · obtain ⟨hlt, -⟩ := List.getElem?_eq_some_iff.1 hmade
    rw [List.getElem?_append_left hlt]
    exact hmade

theorem carried_recordDrops_of_some {row : WebhookDeliveryDoc} {id : ObjectId}
    (hrow : s.1.deliveries.lookup id = some row) :
    (recordDrops who answer agent s.1 moved s.2).carried id = s.2.carried id := by
  unfold recordDrops
  split
  · rfl
  · simp only [hrow]

/-- Rows keep the drops that they carry. -/
theorem CarriedDrop.recorded {id : ObjectId} {n : Nat} (hcarried : CarriedDrop s.1 s.2 id n)
    (hkept : ∀ id row, s.1.deliveries.lookup id = some row →
      ∃ row', moved.2.deliveries.lookup id = some row' ∧ KeptRow row row') :
    CarriedDrop moved.2 (recordDrops who answer agent s.1 moved s.2) id n := by
  obtain ⟨row, hmem, hendpoint, hn⟩ := hcarried
  have hrow : s.1.deliveries.lookup row.id = some row := lookup_eq_some_iff.2 ⟨hmem, rfl⟩
  obtain ⟨row', hrow', hsame⟩ := hkept row.id row hrow
  obtain ⟨hmem', hid⟩ := lookup_eq_some_iff.1 hrow'
  refine ⟨row', hmem', hsame.endpointId.trans hendpoint, ?_⟩
  rw [show row'.id = row.id from hid, carried_recordDrops_of_some hrow]
  exact hn

/-- The rows count what they carry. -/
theorem counts_rows (hfails : answer.choice.fails = false) (hs : DropsReported s.1 s.2)
    (hagent : KnowsDrops who agent s)
    (hmove : RowMove cfg (s.1.wait answer.delay) agent moved.1 moved.2.deliveries)
    {row : WebhookDeliveryDoc} (hmem : row ∈ moved.2.deliveries.docs) :
    (recordDrops who answer agent s.1 moved s.2).Counts row.endpointId
      ((recordDrops who answer agent s.1 moved s.2).carried row.id) row.droppedSinceLast := by
  have hrow : moved.2.deliveries.lookup row.id = some row := lookup_eq_some_iff.2 ⟨hmem, rfl⟩
  refine DropHistory.Counts.mono (h := s.2) ?_ made_recordDrops
  cases hold : s.1.deliveries.lookup row.id with
  | some old =>
    obtain ⟨row', hrow', hsame⟩ := hmove.exists_kept hagent.permits hold
    cases hrow.symm.trans hrow'
    obtain ⟨hmem', hid⟩ := lookup_eq_some_iff.1 hold
    rw [carried_recordDrops_of_some hold, hsame.endpointId, hsame.droppedSinceLast, ← hid]
    exact hs.rows old hmem'
  | none =>
    have hcarried : (recordDrops who answer agent s.1 moved s.2).carried row.id =
        if row.isTest then [] else s.2.matched who row.endpointId := by
      rw [recordDrops_of_goes hfails]
      simp only [hold, hrow]
    rw [hcarried]
    rcases (hmove.new_of_none hold hrow).2 with ⟨htest, hdropped⟩ | ⟨htest, draft, hdraft, hid, hdropped⟩
    · rw [htest, hdropped]
      exact .nil
    · rw [htest, if_neg Bool.false_ne_true, hid, hdropped]
      exact hagent.counts _ (mem_matched_of_drafts hdraft)

/-- The endpoints count their drops. -/
theorem counts_endpoints (hfails : answer.choice.fails = false) (hs : DropsReported s.1 s.2)
    (hagent : KnowsDrops who agent s) (hheal : HealedStore agent s.1.endpoints moved.2.endpoints)
    {doc : WebhookEndpointDoc} (hmem : doc ∈ moved.2.endpoints.docs) :
    (recordDrops who answer agent s.1 moved s.2).Counts doc.id
      ((recordDrops who answer agent s.1 moved s.2).counted doc.id) doc.droppedCount := by
  rcases hheal.old doc.id doc (lookup_eq_some_iff.2 ⟨hmem, rfl⟩) with ⟨old, hold, hsame⟩ | ⟨-, hnew⟩
  · obtain ⟨hmem', hid⟩ := lookup_eq_some_iff.1 hold
    have hcounts := hs.endpoints old hmem'
    rw [show old.id = doc.id from hid] at hcounts
    have hdropped : doc.droppedCount = _ := (congrArg EndpointHealth.droppedCount hsame.health).trans
      (droppedCount_healthAfter hagent.system old.id old.health)
    rw [show old.id = doc.id from hid] at hdropped
    rw [hdropped, recordDrops_of_goes hfails]
    by_cases hdraining : agent.draining = some doc.id
    · simp only [if_pos hdraining]
      exact .nil
    · by_cases hdropping : agent.dropping = some doc.id
      · simp only [if_neg hdraining, if_pos hdropping]
        exact hcounts.cons (by rw [hdropping]; rfl)
      · simp only [if_neg hdraining, if_neg hdropping]
        refine hcounts.mono fun n id hmade => ?_
        obtain ⟨hlt, -⟩ := List.getElem?_eq_some_iff.1 hmade
        rw [List.getElem?_append_left hlt]
        exact hmade
  · obtain ⟨request, scope, hagent', -⟩ := hnew.creates
    have hsystem := hagent.system
    rw [hagent'] at hsystem
    cases hsystem

/-- A move that does not fail keeps the drops reported when what it resets is carried. -/
theorem dropsReported_record (hfails : answer.choice.fails = false) (hs : DropsReported s.1 s.2)
    (hagent : KnowsDrops who agent s)
    (hmove : RowMove cfg (s.1.wait answer.delay) agent moved.1 moved.2.deliveries)
    (hheal : HealedStore agent s.1.endpoints moved.2.endpoints)
    (hkeeps : agent.deletes = false)
    (hdrains : ∀ id ∈ agent.draining, ∀ doc ∈ s.1.endpoints.lookup id,
      ∀ n ∈ s.2.counted doc.id, CarriedDrop s.1 s.2 doc.id n) :
    DropsReported moved.2 (recordDrops who answer agent s.1 moved s.2) where
  endpoints _ hmem := counts_endpoints hfails hs hagent hheal hmem
  rows _ hmem := counts_rows hfails hs hagent hmove hmem
  reported n id hmade := by
    have hkept : ∀ id row, s.1.deliveries.lookup id = some row →
        ∃ row', moved.2.deliveries.lookup id = some row' ∧ KeptRow row row' :=
      fun id row hrow => hmove.exists_kept hagent.permits hrow
    have hstored {id : ObjectId} {doc : WebhookEndpointDoc} (hdoc : s.1.endpoints.lookup id = some doc) :
        ∃ doc ∈ moved.2.endpoints.docs, doc.id = id := by
      obtain ⟨doc', hdoc', -⟩ := hheal.kept hkeeps id doc hdoc
      exact ⟨doc', lookup_eq_some_iff.1 hdoc'⟩
    have hcounted : (recordDrops who answer agent s.1 moved s.2).counted id =
        if agent.draining = some id then []
        else if agent.dropping = some id then s.2.made.length :: s.2.counted id
        else s.2.counted id := by rw [recordDrops_of_goes hfails]
    rw [recordDrops_of_goes hfails] at hmade
    replace hmade : (s.2.made ++ agent.dropping.toList)[n]? = some id := hmade
    rcases Nat.lt_or_ge n s.2.made.length with hlt | hge
    · rw [List.getElem?_append_left hlt] at hmade
      rcases hs.reported n id hmade with ⟨hn, doc, hmem, rfl⟩ | hcarried
      · have hdoc : s.1.endpoints.lookup doc.id = some doc := lookup_eq_some_iff.2 ⟨hmem, rfl⟩
        by_cases hdraining : agent.draining = some doc.id
        · exact .inr ((hdrains doc.id hdraining doc hdoc n hn).recorded hkept)
        · refine .inl ⟨?_, hstored hdoc⟩
          rw [hcounted, if_neg hdraining]
          split_ifs
          · exact List.mem_cons_of_mem _ hn
          · exact hn
      · exact .inr (hcarried.recorded hkept)
    · -- The drop is the one that this move makes.
      rw [List.getElem?_append_right hge] at hmade
      cases hdropping : agent.dropping with
      | none =>
        rw [hdropping] at hmade
        cases hmade
      | some endpointId =>
        rw [hdropping] at hmade
        obtain ⟨hlt, heq⟩ := List.getElem?_eq_some_iff.1 hmade
        have hn : n = s.2.made.length := by
          have : n - s.2.made.length < 1 := hlt
          omega
        subst hn
        simp only [Nat.sub_self, Option.toList_some, List.getElem_cons_zero] at heq
        subst heq
        obtain ⟨hquiet, doc, hdoc, rfl⟩ := mem_matched_of_dropping hdropping
        obtain ⟨stored, hlookup⟩ := hagent.stored doc hdoc
        refine .inl ⟨?_, hstored hlookup⟩
        rw [hcounted, hquiet, hdropping, if_neg (by simp), if_pos rfl]
        exact List.mem_cons_self

/-- What a dispatch has read stays stored, and the drops are known. -/
theorem KnowsDrops.recorded {j : ι} {other : WebhookAgent} (hj : j ≠ who)
    (hother : KnowsDrops j other s)
    (hstored : ∀ id doc, s.1.endpoints.lookup id = some doc →
      ∃ doc', moved.2.endpoints.lookup id = some doc') :
    KnowsDrops j other (moved.2, recordDrops who answer agent s.1 moved s.2) where
  system := hother.system
  permits := hother.permits
  stored doc hdoc := by
    obtain ⟨stored, hlookup⟩ := hother.stored doc hdoc
    exact hstored doc.id stored hlookup
  counts doc hdoc := by
    have hsame : (recordDrops who answer agent s.1 moved s.2).matched j = s.2.matched j := by
      unfold recordDrops
      split
      · rfl
      · show (if agent.finds then Function.update s.2.matched who s.2.counted else s.2.matched) j = _
        split
        · rw [Function.update_of_ne hj]
        · rfl
    show (recordDrops who answer agent s.1 moved s.2).Counts doc.id
      ((recordDrops who answer agent s.1 moved s.2).matched j doc.id) doc.droppedCount
    rw [hsame]
    exact (hother.counts doc hdoc).mono made_recordDrops

/-- What the agent itself knows after a move that does not fail. -/
theorem knowsDrops_record (hfails : answer.choice.fails = false) (hs : DropsReported s.1 s.2)
    (hagent : KnowsDrops who agent s) (hsystem : moved.1.isOwner = false)
    (hpermits : ∀ row w, moved.1.writing = some (row, w) → Permits row w)
    (hmatched : ∀ doc ∈ moved.1.matched,
      doc ∈ agent.matched ∨ agent.finds = true ∧ doc ∈ s.1.endpoints.docs)
    (hstored : ∀ id doc, s.1.endpoints.lookup id = some doc →
      ∃ doc', moved.2.endpoints.lookup id = some doc') :
    KnowsDrops who moved.1 (moved.2, recordDrops who answer agent s.1 moved s.2) where
  system := hsystem
  permits := hpermits
  stored doc hdoc := by
    rcases hmatched doc hdoc with hold | ⟨-, hmem⟩
    · obtain ⟨stored, hlookup⟩ := hagent.stored doc hold
      exact hstored doc.id stored hlookup
    · exact hstored doc.id doc (lookup_eq_some_iff.2 ⟨hmem, rfl⟩)
  counts doc hdoc := by
    have hnow : (recordDrops who answer agent s.1 moved s.2).matched =
        if agent.finds then Function.update s.2.matched who s.2.counted else s.2.matched := by
      rw [recordDrops_of_goes hfails]
    show (recordDrops who answer agent s.1 moved s.2).Counts doc.id
      ((recordDrops who answer agent s.1 moved s.2).matched who doc.id) doc.droppedCount
    refine DropHistory.Counts.mono (h := s.2) ?_ made_recordDrops
    rw [hnow]
    cases hfinds : agent.finds with
    | true =>
      rcases hmatched doc hdoc with hold | ⟨-, hmem⟩
      · rw [matched_of_finds hfinds] at hold
        cases hold
      · rw [if_pos rfl, Function.update_self]
        exact hs.endpoints doc hmem
    | false =>
      rcases hmatched doc hdoc with hold | ⟨hfinds', -⟩
      · rw [if_neg Bool.false_ne_true]
        exact hagent.counts doc hold
      · cases hfinds.symm.trans hfinds'

/-- One move of anyone. -/
theorem keepsDrops_move (lib : WebhookLib) (cfg : WebhookConfig) (hs : DropsReported s.1 s.2)
    (hagent : KnowsDrops who agent s)
    (hdrains : answer.choice.fails = false → ∀ id ∈ agent.draining,
      ∀ doc ∈ s.1.endpoints.lookup id, ∀ n ∈ s.2.counted doc.id, CarriedDrop s.1 s.2 doc.id n) :
    Pool.Keeps (fun s => DropsReported s.1 s.2) KnowsDrops who s
      (recorded recordDrops (WebhookAgent.move lib cfg) who answer agent s) := by
  have hpermits : ∀ row w, (WebhookAgent.act lib cfg answer.choice agent
      (s.1.wait answer.delay)).1.writing = some (row, w) → Permits row w := fun _ _ => permits_act
  have hkeeps : agent.deletes = false := by
    have hsystem := hagent.system
    cases agent with
    | owner phase => cases hsystem
    | _ => rfl
  cases hfails : answer.choice.fails with
  | true =>
    have hworld : (WebhookAgent.move lib cfg who answer agent s.1).2 = s.1.wait answer.delay :=
      (act_of_fails lib cfg hfails agent (s.1.wait answer.delay)).1
    have hsame : recordDrops who answer agent s.1 (WebhookAgent.move lib cfg who answer agent s.1)
        s.2 = s.2 := if_pos hfails
    show Pool.Keeps _ _ who s (_, (WebhookAgent.move lib cfg who answer agent s.1).2,
      recordDrops who answer agent s.1 (WebhookAgent.move lib cfg who answer agent s.1) s.2)
    rw [hworld, hsame]
    refine ⟨⟨hs.endpoints, hs.rows, hs.reported⟩, ?_, fun j other _ hother =>
      ⟨hother.system, hother.permits, hother.stored, hother.counts⟩⟩
    have hnone (doc : WebhookEndpointDoc)
        (hdoc : doc ∈ (WebhookAgent.move lib cfg who answer agent s.1).1.matched) : False := by
      rw [show (WebhookAgent.move lib cfg who answer agent s.1).1.matched = [] from
        matched_of_fails lib hfails] at hdoc
      exact List.not_mem_nil hdoc
    exact ⟨(isOwner_act lib answer.choice).trans hagent.system, hpermits,
      fun doc hdoc => (hnone doc hdoc).elim, fun doc hdoc => (hnone doc hdoc).elim⟩
  | false =>
    have hmove := rowMove_act lib cfg hfails agent (s.1.wait answer.delay)
    have hheal := healedStore_act lib cfg hfails agent (s.1.wait answer.delay)
    have hstored : ∀ id doc, s.1.endpoints.lookup id = some doc → ∃ doc',
        (WebhookAgent.move lib cfg who answer agent s.1).2.endpoints.lookup id = some doc' := by
      intro id doc hdoc
      obtain ⟨doc', hdoc', -⟩ := hheal.kept hkeeps id doc hdoc
      exact ⟨doc', hdoc'⟩
    refine ⟨dropsReported_record hfails hs hagent hmove hheal hkeeps (hdrains hfails), ?_,
      fun j other hj hother => hother.recorded hj hstored⟩
    exact knowsDrops_record hfails hs hagent ((isOwner_act lib answer.choice).trans hagent.system)
      hpermits (fun _ => mem_matched_act lib) hstored

end

/-- A reset of a count leaves the drops that were in it to the rows. -/
theorem carried_of_drained [DecidableEq ι] (lib : WebhookLib) (cfg : WebhookConfig) {who : ι}
    {agent : WebhookAgent} {answer : WebhookAnswer} {s : WebhookWorld × DropHistory ι}
    (hs : DropsReported s.1 s.2)
    (hnext : DropsReported (WebhookAgent.move lib cfg who answer agent s.1).2
      (recordDrops who answer agent s.1 (WebhookAgent.move lib cfg who answer agent s.1) s.2))
    (hfails : answer.choice.fails = false) : ∀ id ∈ agent.draining,
      ∀ doc ∈ s.1.endpoints.lookup id, ∀ n ∈ s.2.counted doc.id, CarriedDrop s.1 s.2 doc.id n := by
  intro id hdraining doc hdoc n hn
  obtain ⟨hmem, hid⟩ := lookup_eq_some_iff.1 hdoc
  replace hid : doc.id = id := hid
  have hmade : (recordDrops who answer agent s.1 (WebhookAgent.move lib cfg who answer agent s.1)
      s.2).made[n]? = some doc.id := made_recordDrops n doc.id ((hs.endpoints doc hmem).made n hn)
  have hsame : (WebhookAgent.move lib cfg who answer agent s.1).2.deliveries = s.1.deliveries :=
    deliveries_of_draining lib hdraining
  rcases hnext.reported n doc.id hmade with ⟨hcounted, -⟩ | ⟨row, hrow, hendpoint, hcarried⟩
  · rw [recordDrops_of_goes hfails] at hcounted
    simp only [hid, show agent.draining = some id from hdraining, if_true] at hcounted
    cases hcounted
  · rw [hsame] at hrow
    refine ⟨row, hrow, hendpoint, ?_⟩
    have hlookup : s.1.deliveries.lookup row.id = some row := lookup_eq_some_iff.2 ⟨hrow, rfl⟩
    rwa [carried_recordDrops_of_some hlookup] at hcarried

theorem matched_of_idle {agent : WebhookAgent} (h : agent.Idle) : agent.matched = [] := by
  cases agent with
  | dispatch home phase => cases h; rfl
  | _ => rfl

/-- In a run without requests of owners every drop stays reported exactly when a delivery that succeeds
resets the count of its endpoint only where rows of the endpoint carry all drops that are in it. -/
theorem dropsReported_iff_drainsReported [DecidableEq ι] (lib : WebhookLib) (cfg : WebhookConfig)
    (pool : Pool ι WebhookAgent (WebhookWorld × DropHistory ι)) (events : List (ι × WebhookAnswer))
    (hidle : ∀ who, (pool.agents who).Idle) (hsystem : ∀ who, (pool.agents who).isOwner = false)
    (hstart : DropsReported pool.shared.1 pool.shared.2) :
    (∀ t ∈ List.scanl (Pool.step (recorded recordDrops (WebhookAgent.move lib cfg))) pool events,
        DropsReported t.shared.1 t.shared.2) ↔
      Run.Guarded (Pool.step (recorded recordDrops (WebhookAgent.move lib cfg))) DrainsReported pool
        events := by
  refine Run.forall_mem_scanl_iff_of_invariant
    (Pool.Sound (fun s => DropsReported s.1 s.2) KnowsDrops)
    (fun pool event hsound _ hnext => ?_) (fun pool event hsound _ hguard => ?_) ?_ hstart
  · exact carried_of_drained lib cfg hsound.shared hnext
  · have hkept := hsound.step
      (keepsDrops_move lib cfg hsound.shared (hsound.agents event.1) hguard)
    exact ⟨hkept, hkept.shared⟩
  · refine ⟨hstart, fun who => ?_⟩
    obtain ⟨hquiet, -⟩ := stance_of_idle (hidle who)
    have hnone := matched_of_idle (hidle who)
    constructor
    · exact hsystem who
    · intro row w hwriting
      cases hquiet.symm.trans hwriting
    · rw [hnone]
      exact fun doc hdoc => (List.not_mem_nil hdoc).elim
    · rw [hnone]
      exact fun doc hdoc => (List.not_mem_nil hdoc).elim

/-- Ten deliveries that are due. -/
def tenDue : List WebhookDeliveryDoc :=
  (List.range 10).map fun n => { dueRow with id := n + 3, webhookId := plainLib.newWebhookId (n + 3) }

theorem nodup_id_tenDue : (tenDue.map Mongo.Document.id).Nodup := by decide

theorem nodup_key_tenDue : (tenDue.map Mongo.Document.key).Nodup := by decide +kernel

/-- Ten deliveries that wait, and no slot left under a cap of ten. -/
def tenWaiting : WebhookWorld where
  endpoints := .single { everyEvent with pendingCount := some 10 }
  deliveries := ⟨tenDue, nodup_id_tenDue, nodup_key_tenDue⟩
  events := .single clickEvent
  clock := 0
  issued := 13

/-- A dispatcher and an executor. -/
def dispatcherAndExecutor : Pool Bool WebhookAgent (WebhookWorld × DropHistory Bool) where
  agents who := if who then .dispatch 0 .idle else .attempt .idle
  shared := (tenWaiting, {})

/-- A click is dropped. Then the oldest delivery succeeds, which was made before the drop. -/
def dropThenSuccess : List (Bool × WebhookAnswer) :=
  (true, ⟨0, .dispatch {
      eventId := "evt_13", type := "link.clicked", ownerId := 0, occurredAt := 0, data := .empty }⟩) ::
    List.replicate 9 (true, ⟨0, .go⟩) ++ claimAndSend false 0 ++
    [(false, respondWith 200), (false, ⟨0, .go⟩), (false, ⟨0, .go⟩), (false, ⟨0, .go⟩)]

theorem dropsReported_iff_drainsReported_dropThenSuccess :
    (∀ t ∈ List.scanl (Pool.step (recorded recordDrops
        (WebhookAgent.move plainLib { maxPendingPerEndpoint := 10 }))) dispatcherAndExecutor
        dropThenSuccess, DropsReported t.shared.1 t.shared.2) ↔
      Run.Guarded (Pool.step (recorded recordDrops
        (WebhookAgent.move plainLib { maxPendingPerEndpoint := 10 }))) DrainsReported
        dispatcherAndExecutor dropThenSuccess := by
  refine dropsReported_iff_drainsReported _ _ _ _ (fun who => ?_) (fun who => ?_) ⟨?_, ?_, ?_⟩
  · cases who <;> rfl
  · cases who <;> rfl
  · intro doc hdoc
    rw [show dispatcherAndExecutor.shared.1.endpoints.docs =
      [{ everyEvent with pendingCount := some 10 }] from rfl, List.mem_singleton] at hdoc
    subst hdoc
    exact .nil
  · intro row hrow
    obtain ⟨n, -, rfl⟩ := List.mem_map.1 hrow
    exact .nil
  · exact fun n id hmade => nomatch hmade

/-- The drop is counted nowhere in the end. -/
theorem drop_unreported_dropThenSuccess :
    ∃ t ∈ List.scanl (Pool.step (recorded recordDrops
        (WebhookAgent.move plainLib { maxPendingPerEndpoint := 10 }))) dispatcherAndExecutor
      dropThenSuccess, ¬ DropsReported t.shared.1 t.shared.2 := by
  refine ⟨dropThenSuccess.foldl (Pool.step (recorded recordDrops
    (WebhookAgent.move plainLib { maxPendingPerEndpoint := 10 }))) dispatcherAndExecutor,
    by simp [dropThenSuccess, claimAndSend], fun h => ?_⟩
  generalize hlast : dropThenSuccess.foldl (Pool.step (recorded recordDrops
    (WebhookAgent.move plainLib { maxPendingPerEndpoint := 10 }))) dispatcherAndExecutor = last at h
  have hlost : last.shared.2.made[0]? = some 1 ∧ last.shared.2.counted 1 = [] ∧
      ∀ row ∈ last.shared.1.deliveries.docs, last.shared.2.carried row.id = [] := by
    rw [← hlast]
    decide +kernel
  obtain ⟨hmade, hcounted, hcarried⟩ := hlost
  rcases h.reported 0 1 hmade with ⟨hn, -⟩ | ⟨row, hrow, -, hn⟩
  · rw [hcounted] at hn
    cases hn
  · rw [hcarried row hrow] at hn
    cases hn

end Spoo
