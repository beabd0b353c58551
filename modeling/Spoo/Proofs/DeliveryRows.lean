import Spoo.Services.Webhooks.Fleet

/-!
# What a move does to the delivery rows

A row is inserted, claimed, given its body and written, and nothing else happens to it. An attempt works
on a row that it has read, from there to its one write.
-/

namespace Spoo

open Agents Mongo.Collection

/-- How an agent stands to the rows. -/
inductive RowStance where
  | away
  /-- A test send that is about to read the row it has inserted. -/
  | inserted (id : ObjectId)
  | holds (row : WebhookDeliveryDoc)
  /-- The row has been written, and its slot is still to be released. -/
  | owes (row : WebhookDeliveryDoc)
  deriving DecidableEq

/-- How an attempt stands to the rows. -/
def AttemptPhase.stance : AttemptPhase → RowStance
  | .testLoading id => .inserted id
  | .loading row => .holds row
  | .rendering row _ => .holds row
  | .freezing row _ _ => .holds row
  | .sending row _ _ => .holds row
  | .awaiting row _ _ => .holds row
  | .writing row _ _ => .holds row
  | .releasing row _ => .owes row
  | _ => .away

/-- How an agent stands to the rows. -/
def WebhookAgent.stance : WebhookAgent → RowStance
  | .attempt phase => phase.stance
  | _ => .away

/-- The write that an agent has come to, and its row. -/
def WebhookAgent.writing : WebhookAgent → Option (WebhookDeliveryDoc × AttemptWrite)
  | .attempt (.writing row w _) => some (row, w)
  | _ => none

/-- The rows that an agent has come to insert. -/
def WebhookAgent.drafts : WebhookAgent → List RowDraft
  | .dispatch _ (.storing d) => d.rows
  | _ => []

/-- A row as it is inserted. -/
structure NewRow (row : WebhookDeliveryDoc) : Prop where
  status : row.status = .pending
  attempts : row.attempts = []
  attemptCount : row.attemptCount = 0
  renderedBody : row.renderedBody = none
  claimedUntil : row.claimedUntil = none

/-- The rows after one move that does not fail, and how the agent stands to them then. -/
inductive RowMove (cfg : WebhookConfig) (s : WebhookWorld) (agent : WebhookAgent) :
    WebhookAgent → DeliveryStore → Prop where
  | leaves {agent' : WebhookAgent} (hquiet : agent.writing = none) (haway : agent'.stance = .away) :
      RowMove cfg s agent agent' s.deliveries
  | keeps {agent' : WebhookAgent} {row : WebhookDeliveryDoc} (hquiet : agent.writing = none)
      (hheld : agent.stance = .holds row) (hholds : agent'.stance = .holds row) :
      RowMove cfg s agent agent' s.deliveries
  | claims {excludeEndpoints : List ObjectId} {now : Int} {row : WebhookDeliveryDoc}
      {deliveries : DeliveryStore} (hagent : agent = .attempt (.claiming excludeEndpoints now))
      (hrow : s.deliveries.lookup row.id = some row)
      (hdue : WebhookDeliveryRepository.isDue excludeEndpoints now row = true)
      (hclaim : WebhookDeliveryRepository.claimDue s.deliveries cfg.leaseSeconds excludeEndpoints
        now = (some (WebhookDeliveryRepository.withClaim cfg.leaseSeconds now row), deliveries))
      (hself : deliveries.lookup row.id =
        some (WebhookDeliveryRepository.withClaim cfg.leaseSeconds now row))
      (hothers : ∀ other, other ≠ row.id → deliveries.lookup other = s.deliveries.lookup other) :
      RowMove cfg s agent
        (.attempt (.loading (WebhookDeliveryRepository.withClaim cfg.leaseSeconds now row)))
        deliveries
  | retries {endpointId deliveryId userId : ObjectId} {row : WebhookDeliveryDoc}
      (hagent : agent = .attempt (.retrying endpointId deliveryId userId))
      (hrow : s.deliveries.lookup row.id = some row) (hstatus : row.status ≠ .pending) :
      RowMove cfg s agent (.attempt (.loading row)) s.deliveries
  | reads {row : WebhookDeliveryDoc} (hagent : agent = .attempt (.testLoading row.id))
      (hrow : s.deliveries.lookup row.id = some row) :
      RowMove cfg s agent (.attempt (.loading row)) s.deliveries
  | insertsTest {row : WebhookDeliveryDoc} {deliveries : DeliveryStore}
      (hquiet : agent.writing = none) (hstance : agent.stance = .away) (hnew : NewRow row)
      (htest : row.isTest = true) (hfree : s.deliveries.lookup row.id = none)
      (hself : deliveries.lookup row.id = some row)
      (hothers : ∀ other, other ≠ row.id → deliveries.lookup other = s.deliveries.lookup other)
      (hdropped : row.droppedSinceLast = 0) :
      RowMove cfg s agent (.attempt (.testLoading row.id)) deliveries
  | inserts {row : WebhookDeliveryDoc} {deliveries : DeliveryStore} {agent' : WebhookAgent}
      (hquiet : agent.writing = none) (hstance : agent.stance = .away)
      (haway : agent'.stance = .away) (hnew : NewRow row) (htest : row.isTest = false)
      (hfree : s.deliveries.lookup row.id = none) (hself : deliveries.lookup row.id = some row)
      (hothers : ∀ other, other ≠ row.id → deliveries.lookup other = s.deliveries.lookup other)
      (hdraft : ∃ draft ∈ agent.drafts, row.endpointId = draft.endpoint.id ∧
        row.droppedSinceLast = draft.endpoint.droppedCount) :
      RowMove cfg s agent agent' deliveries
  | freezes {row : WebhookDeliveryDoc} {endpoint : WebhookEndpointDoc} {body : String}
      (hagent : agent = .attempt (.freezing row endpoint body)) :
      RowMove cfg s agent (.attempt (.sending row endpoint body))
        (WebhookDeliveryRepository.setRenderedBody s.deliveries row.id body)
  | writes {agent' : WebhookAgent} {row : WebhookDeliveryDoc} {w : AttemptWrite}
      {after : Option HealthWrite} (hagent : agent = .attempt (.writing row w after))
      (hstance : agent'.stance =
        if (WebhookDeliveryRepository.write s.deliveries row.id w s.clock).1 && !row.isTest then
          .owes row
        else .away) :
      RowMove cfg s agent agent' (WebhookDeliveryRepository.write s.deliveries row.id w s.clock).2

section

variable {lib : WebhookLib} {cfg : WebhookConfig} {s s' : WebhookWorld}

@[simp] theorem stance_followUp (row : WebhookDeliveryDoc) (after : Option HealthWrite) :
    (DeliveryExecutor.followUp row after).stance = .away := by
  cases after <;> rfl

/-- An insert that is not refused. -/
theorem WebhookWorld.exists_of_insertRow {row : WebhookDeliveryDoc}
    (h : s.insertRow row = some s') :
    ∃ new : WebhookDeliveryDoc, new = { row with id := s.issued } ∧
      s.deliveries.lookup new.id = none ∧ s'.deliveries.lookup new.id = some new ∧
      ∀ other, other ≠ new.id → s'.deliveries.lookup other = s.deliveries.lookup other := by
  obtain ⟨deliveries, hinsert, rfl⟩ := Option.map_eq_some_iff.1 h
  exact ⟨_, rfl, exists_of_insertOne hinsert⟩

theorem WebhookWorld.deliveries_insertEvent {event : Contract.DomainEvent} {isTest : Bool}
    {oid : ObjectId} (h : s.insertEvent event isTest = some (oid, s')) :
    s'.deliveries = s.deliveries := by
  obtain ⟨events, -, heq⟩ := Option.map_eq_some_iff.1 h
  cases heq
  rfl

/-- What an attempt makes of an outcome is a write of its row. -/
theorem exists_of_outcome (row : WebhookDeliveryDoc) (result : PostResult) (durationMs : Nat)
    (now : Int) : ∃ w after, DeliveryExecutor.outcome row result durationMs now =
      .writing row w after := by
  unfold DeliveryExecutor.outcome
  split_ifs <;> exact ⟨_, _, rfl⟩

theorem rowMove_attempt (choice : WebhookChoice) (phase : AttemptPhase) (s : WebhookWorld) :
    RowMove cfg s (.attempt phase) (.attempt (DeliveryExecutor.move lib cfg choice phase s).1)
      (DeliveryExecutor.move lib cfg choice phase s).2.deliveries := by
  cases phase with
  | idle => cases choice <;> exact .leaves rfl rfl
  | claiming excludeEndpoints now =>
    simp only [DeliveryExecutor.move]
    rcases WebhookDeliveryRepository.claimDue_cases s.deliveries cfg.leaseSeconds excludeEndpoints
      now with hnone | ⟨row, deliveries, hrow, hdue, hclaim, hself, hothers⟩
    · rw [hnone]
      exact .leaves rfl rfl
    · rw [hclaim]
      exact .claims rfl hrow hdue hclaim hself hothers
  | checking endpointId deliveryId userId =>
    simp only [DeliveryExecutor.move]
    split <;> exact .leaves rfl rfl
  | retrying endpointId deliveryId userId =>
    simp only [DeliveryExecutor.move]
    split
    · exact .leaves rfl rfl
    · rename_i row hrow
      obtain ⟨hrow, hpass⟩ := Option.filter_eq_some_iff.1 hrow
      have hid : row.id = deliveryId := (lookup_eq_some_iff.1 hrow).2
      refine .retries rfl (hid ▸ hrow) ?_
      simp only [Bool.and_eq_true, decide_eq_true_eq] at hpass
      exact hpass.2
  | testing endpointId userId eventType =>
    simp only [DeliveryExecutor.move]
    split
    · exact .leaves rfl rfl
    · split <;> exact .leaves rfl rfl
  | testEvent endpoint eventType =>
    simp only [DeliveryExecutor.move]
    split
    · exact .leaves rfl rfl
    · rename_i hinsert
      rw [WebhookWorld.deliveries_insertEvent hinsert]
      exact .leaves rfl rfl
  | testRow endpoint eventType eventOid =>
    simp only [DeliveryExecutor.move]
    split
    · exact .leaves rfl rfl
    · rename_i s' hinsert
      obtain ⟨row, hrow, hfree, hself, hothers⟩ := WebhookWorld.exists_of_insertRow hinsert
      have hid : row.id = s.issued := by rw [hrow]
      rw [← hid]
      exact .insertsTest rfl rfl (hrow ▸ ⟨rfl, rfl, rfl, rfl, rfl⟩) (hrow ▸ rfl) hfree hself hothers
        (hrow ▸ rfl)
  | testLoading deliveryId =>
    simp only [DeliveryExecutor.move]
    split
    · exact .leaves rfl rfl
    · rename_i row hrow
      have hid : row.id = deliveryId := (lookup_eq_some_iff.1 hrow).2
      exact .reads (by rw [hid]) (hid ▸ hrow)
  | loading row =>
    simp only [DeliveryExecutor.move]
    split
    · exact .keeps rfl rfl rfl
    · split_ifs
      · exact .keeps rfl rfl rfl
      · exact .keeps rfl rfl rfl
      · split <;> exact .keeps rfl rfl rfl
  | rendering row endpoint =>
    simp only [DeliveryExecutor.move]
    split <;> exact .keeps rfl rfl rfl
  | freezing row endpoint body => exact .freezes rfl
  | sending row endpoint body =>
    simp only [DeliveryExecutor.move]
    split <;> exact .keeps rfl rfl rfl
  | awaiting row endpoint body =>
    cases choice with
    | respond result durationMs =>
      obtain ⟨w, after, hwriting⟩ := exists_of_outcome row result durationMs s.clock
      simp only [DeliveryExecutor.move, hwriting]
      exact .keeps rfl rfl rfl
    | _ => exact .keeps rfl rfl rfl
  | writing row w after =>
    refine .writes rfl ?_
    simp only [DeliveryExecutor.move, WebhookAgent.stance]
    split
    · rfl
    · exact stance_followUp row after
  | releasing row after => exact .leaves rfl (stance_followUp row after)
  | healing endpointId health =>
    cases health with
    | success => exact .leaves rfl rfl
    | exhausted failure =>
      simp only [DeliveryExecutor.move]
      split_ifs <;> exact .leaves rfl rfl
    | disable reason => exact .leaves rfl rfl

theorem rowMove_dispatch (home : Nat) (choice : WebhookChoice) (phase : DispatchPhase)
    (s : WebhookWorld) : RowMove cfg s (.dispatch home phase)
      (.dispatch home (WebhookDispatcher.move lib cfg home choice phase s).1)
      (WebhookDispatcher.move lib cfg home choice phase s).2.deliveries := by
  have hleaves {phase' : DispatchPhase} :
      RowMove cfg s (.dispatch home phase) (.dispatch home phase') s.deliveries := .leaves rfl rfl
  cases phase with
  | idle => cases choice <;> exact hleaves
  | matching event =>
    cases choice with
    | unreachable => exact hleaves
    | _ =>
      simp only [WebhookDispatcher.move]
      split_ifs <;> exact hleaves
  | finding event cached =>
    simp only [WebhookDispatcher.move]
    split_ifs <;> exact hleaves
  | caching event endpoints => cases choice <;> exact hleaves
  | recording event endpoints =>
    simp only [WebhookDispatcher.move]
    split
    · exact hleaves
    · rename_i hinsert
      rw [WebhookWorld.deliveries_insertEvent hinsert]
      exact hleaves
  | reserving d endpoint rest =>
    simp only [WebhookDispatcher.move]
    split
    · exact hleaves
    · split_ifs <;> exact hleaves
  | counting d endpoint rest => exact hleaves
  | repairing d endpoint rest counted => exact hleaves
  | reserveAgain d endpoint rest =>
    simp only [WebhookDispatcher.move]
    split <;> exact hleaves
  | dropping d endpoint rest => exact hleaves
  | storing d =>
    simp only [WebhookDispatcher.move]
    split
    · exact hleaves
    · rename_i draft drafts hdrafts
      split
      · exact hleaves
      · rename_i s' hinsert
        obtain ⟨row, hrow, hfree, hself, hothers⟩ := WebhookWorld.exists_of_insertRow hinsert
        have hdraft : draft ∈ (WebhookAgent.dispatch home (.storing d)).drafts := by
          show draft ∈ d.rows
          rw [hdrafts]
          exact List.mem_cons_self
        exact .inserts rfl rfl rfl (hrow ▸ ⟨rfl, rfl, rfl, rfl, rfl⟩) (hrow ▸ rfl) hfree hself hothers
          ⟨draft, hdraft, hrow ▸ ⟨rfl, rfl⟩⟩

/-- A move of an owner leaves the rows, and the requests that have gone out. -/
theorem frame_owner (choice : WebhookChoice) (phase : OwnerPhase) (s : WebhookWorld) :
    (WebhookService.move lib cfg choice phase s).2.deliveries = s.deliveries ∧
      (WebhookService.move lib cfg choice phase s).2.posts = s.posts := by
  cases phase with
  | idle =>
    cases choice with
    | create request =>
      simp only [WebhookService.move]
      split_ifs <;> exact ⟨rfl, rfl⟩
    | _ => exact ⟨rfl, rfl⟩
  | creating request =>
    simp only [WebhookService.move]
    split_ifs
    · exact ⟨rfl, rfl⟩
    · split <;> exact ⟨rfl, rfl⟩
  | inserting request scope =>
    simp only [WebhookService.move]
    split
    · exact ⟨rfl, rfl⟩
    · rename_i hinsert
      obtain ⟨endpoints, -, heq⟩ := Option.map_eq_some_iff.1 hinsert
      rw [← heq]
      exact ⟨rfl, rfl⟩
  | updating endpointId userId request =>
    simp only [WebhookService.move]
    split
    · exact ⟨rfl, rfl⟩
    · split
      · exact ⟨rfl, rfl⟩
      · split_ifs <;> exact ⟨rfl, rfl⟩
  | writing endpointId userId updates => exact ⟨rfl, rfl⟩
  | deleting endpointId userId =>
    simp only [WebhookService.move]
    split <;> exact ⟨rfl, rfl⟩
  | invalidating userId => cases choice <;> exact ⟨rfl, rfl⟩

/-- The writes that an attempt on a row comes to. -/
def Permits (row : WebhookDeliveryDoc) : AttemptWrite → Prop
  | .defer _ => DeliveryExecutor.singleShot row = false
  | .reschedule _ _ => DeliveryExecutor.singleShot row = false ∧
      row.attemptCount + 1 < retryScheduleSeconds.length
  | .finish _ status => status ≠ .pending
  | .fail _ => True

theorem permits_of_outcome {row : WebhookDeliveryDoc} {result : PostResult} {durationMs : Nat}
    {now : Int} {w : AttemptWrite} {after : Option HealthWrite}
    (h : DeliveryExecutor.outcome row result durationMs now = .writing row w after) :
    Permits row w := by
  unfold DeliveryExecutor.outcome at h
  split at h
  · cases h
    exact DeliveryStatus.noConfusion
  · split at h
    · rename_i hlimited
      cases h
      simp only [Bool.and_eq_true, Bool.not_eq_true'] at hlimited
      exact hlimited.2
    · split at h
      · cases h
        exact DeliveryStatus.noConfusion
      · rename_i hsingle
        split at h
        · cases h
          exact DeliveryStatus.noConfusion
        · split at h
          · rename_i hladder
            cases h
            exact ⟨by simpa using hsingle, hladder⟩
          · cases h
            exact DeliveryStatus.noConfusion

theorem permits_move {choice : WebhookChoice} {phase : AttemptPhase} {row : WebhookDeliveryDoc}
    {w : AttemptWrite} (h : (WebhookAgent.attempt
      (DeliveryExecutor.move lib cfg choice phase s).1).writing = some (row, w)) :
    Permits row w := by
  cases phase with
  | idle => cases choice <;> cases h
  | claiming excludeEndpoints now =>
    simp only [DeliveryExecutor.move] at h
    split at h <;> cases h
  | checking endpointId deliveryId userId =>
    simp only [DeliveryExecutor.move] at h
    split at h <;> cases h
  | retrying endpointId deliveryId userId =>
    simp only [DeliveryExecutor.move] at h
    split at h <;> cases h
  | testing endpointId userId eventType =>
    simp only [DeliveryExecutor.move] at h
    split at h
    · cases h
    · split at h <;> cases h
  | testEvent endpoint eventType =>
    simp only [DeliveryExecutor.move] at h
    split at h <;> cases h
  | testRow endpoint eventType eventOid =>
    simp only [DeliveryExecutor.move] at h
    split at h <;> cases h
  | testLoading deliveryId =>
    simp only [DeliveryExecutor.move] at h
    split at h <;> cases h
  | loading held =>
    simp only [DeliveryExecutor.move] at h
    split at h
    · cases h
      trivial
    · split_ifs at h with hdisabled hpaused
      · cases h
        trivial
      · cases h
        simp only [Bool.and_eq_true, Bool.not_eq_true'] at hpaused
        exact hpaused.2
      · split at h <;> cases h
  | rendering held endpoint =>
    simp only [DeliveryExecutor.move] at h
    split at h <;> cases h
    trivial
  | freezing held endpoint body => cases h
  | sending held endpoint body =>
    simp only [DeliveryExecutor.move] at h
    split at h <;> cases h
    trivial
  | awaiting held endpoint body =>
    cases choice with
    | respond result durationMs =>
      obtain ⟨w', after, hwriting⟩ := exists_of_outcome held result durationMs s.clock
      simp only [DeliveryExecutor.move, hwriting] at h
      cases h
      exact permits_of_outcome hwriting
    | _ => cases h
  | writing held w' after =>
    simp only [DeliveryExecutor.move] at h
    split at h
    · cases h
    · cases after <;> cases h
  | releasing held after => cases after <;> cases h
  | healing endpointId health =>
    cases health with
    | exhausted failure =>
      simp only [DeliveryExecutor.move] at h
      split_ifs at h <;> cases h
    | _ => cases h

theorem permits_act {choice : WebhookChoice} {agent : WebhookAgent} {row : WebhookDeliveryDoc}
    {w : AttemptWrite}
    (h : (WebhookAgent.act lib cfg choice agent s).1.writing = some (row, w)) :
    Permits row w := by
  cases agent with
  | attempt phase =>
    cases choice with
    | fail => cases h
    | _ => exact permits_move h
  | dispatch home phase => cases choice <;> cases h
  | owner phase => cases choice <;> cases h
  | janitor => cases h

variable (lib cfg)

/-- A move that fails leaves the rows, and the agent has none. -/
theorem act_of_fails {choice : WebhookChoice} (hfails : choice.fails = true) (agent : WebhookAgent)
    (s : WebhookWorld) : (WebhookAgent.act lib cfg choice agent s).2 = s ∧
      (WebhookAgent.act lib cfg choice agent s).1.stance = .away := by
  cases choice with
  | fail => cases agent <;> exact ⟨rfl, rfl⟩
  | _ => cases hfails

/-- Any other move of anyone. -/
theorem rowMove_act {choice : WebhookChoice} (hfails : choice.fails = false) (agent : WebhookAgent)
    (s : WebhookWorld) : RowMove cfg s agent (WebhookAgent.act lib cfg choice agent s).1
      (WebhookAgent.act lib cfg choice agent s).2.deliveries := by
  cases agent with
  | attempt phase =>
    cases choice with
    | fail => cases hfails
    | _ => exact rowMove_attempt _ phase s
  | dispatch home phase =>
    cases choice with
    | fail => cases hfails
    | _ => exact rowMove_dispatch home _ phase s
  | owner phase =>
    cases choice with
    | fail => cases hfails
    | _ =>
      simp only [WebhookAgent.act, (frame_owner _ phase s).1]
      exact .leaves rfl rfl
  | janitor => cases choice <;> exact .leaves rfl rfl

variable {lib cfg}

/-- The row that an agent has read. -/
def RowStance.row : RowStance → Option WebhookDeliveryDoc
  | .holds row => some row
  | .owes row => some row
  | _ => none

/-- The row whose slot an agent has still to release. -/
def RowStance.owed : RowStance → Option WebhookDeliveryDoc
  | .owes row => some row
  | _ => none

theorem stance_of_writing {agent : WebhookAgent} {row : WebhookDeliveryDoc} {w : AttemptWrite}
    (h : agent.writing = some (row, w)) : agent.stance = .holds row := by
  unfold WebhookAgent.writing at h
  split at h
  · cases h
    rfl
  · cases h

/-- An agent that has come to a write makes it. -/
theorem RowMove.of_writing {agent agent' : WebhookAgent} {deliveries : DeliveryStore}
    (hmove : RowMove cfg s agent agent' deliveries) {row : WebhookDeliveryDoc} {w : AttemptWrite}
    (hwriting : agent.writing = some (row, w)) :
    deliveries = (WebhookDeliveryRepository.write s.deliveries row.id w s.clock).2 := by
  have hnone (hquiet : agent.writing = none) : False := by
    rw [hwriting] at hquiet
    cases hquiet
  cases hmove with
  | leaves hquiet => exact (hnone hquiet).elim
  | keeps hquiet => exact (hnone hquiet).elim
  | claims hagent => exact (hnone (by rw [hagent]; rfl)).elim
  | retries hagent => exact (hnone (by rw [hagent]; rfl)).elim
  | reads hagent => exact (hnone (by rw [hagent]; rfl)).elim
  | insertsTest hquiet => exact (hnone hquiet).elim
  | inserts hquiet => exact (hnone hquiet).elim
  | freezes hagent => exact (hnone (by rw [hagent]; rfl)).elim
  | writes hagent =>
    rw [hagent] at hwriting
    cases hwriting
    rfl

/-- What a move makes of a row. -/
inductive RowChange (cfg : WebhookConfig) (s : WebhookWorld) (agent : WebhookAgent)
    (row : WebhookDeliveryDoc) : WebhookDeliveryDoc → Prop where
  | same : RowChange cfg s agent row row
  | claimed {excludeEndpoints : List ObjectId} {now : Int}
      (hagent : agent = .attempt (.claiming excludeEndpoints now))
      (hdue : WebhookDeliveryRepository.isDue excludeEndpoints now row = true) :
      RowChange cfg s agent row (WebhookDeliveryRepository.withClaim cfg.leaseSeconds now row)
  | frozen {held : WebhookDeliveryDoc} {endpoint : WebhookEndpointDoc} {body : String}
      (hagent : agent = .attempt (.freezing held endpoint body)) (hid : row.id = held.id) :
      RowChange cfg s agent row { row with renderedBody := some (row.renderedBody.getD body) }
  | written {held : WebhookDeliveryDoc} {w : AttemptWrite}
      (hagent : agent.writing = some (held, w)) (hid : row.id = held.id) :
      RowChange cfg s agent row (WebhookDeliveryRepository.written w s.clock row)

/-- Rows stay. -/
theorem RowMove.exists_change {agent agent' : WebhookAgent} {deliveries : DeliveryStore}
    (hmove : RowMove cfg s agent agent' deliveries) {id : ObjectId} {row : WebhookDeliveryDoc}
    (hrow : s.deliveries.lookup id = some row) :
    ∃ row', deliveries.lookup id = some row' ∧ RowChange cfg s agent row row' := by
  obtain ⟨-, rfl⟩ := lookup_eq_some_iff.1 hrow
  cases hmove with
  | leaves => exact ⟨row, hrow, .same⟩
  | keeps => exact ⟨row, hrow, .same⟩
  | retries => exact ⟨row, hrow, .same⟩
  | reads => exact ⟨row, hrow, .same⟩
  | @claims _ _ claimed _ hagent hclaimed hdue _ hself hothers =>
    by_cases hid : row.id = claimed.id
    · have hsame : row = claimed := by
        rw [show Mongo.Document.id row = claimed.id from hid, hclaimed] at hrow
        exact (Option.some.inj hrow).symm
      subst hsame
      exact ⟨_, hself, .claimed hagent hdue⟩
    · exact ⟨row, (hothers _ hid).trans hrow, .same⟩
  | insertsTest _ _ _ _ hfree _ hothers =>
    refine ⟨row, (hothers _ fun hid => ?_).trans hrow, .same⟩
    rw [hid, hfree] at hrow
    cases hrow
  | inserts _ _ _ _ _ hfree _ hothers =>
    refine ⟨row, (hothers _ fun hid => ?_).trans hrow, .same⟩
    rw [hid, hfree] at hrow
    cases hrow
  | @freezes held _ body hagent =>
    by_cases hid : Mongo.Document.id row = held.id
    · rw [hid] at hrow ⊢
      exact ⟨_, WebhookDeliveryRepository.lookup_setRenderedBody_self hrow body,
        .frozen hagent hid⟩
    · exact ⟨row, by rw [WebhookDeliveryRepository.lookup_setRenderedBody_of_ne _ hid, hrow], .same⟩
  | @writes _ held w _ hagent =>
    by_cases hid : Mongo.Document.id row = held.id
    · rw [hid] at hrow ⊢
      exact ⟨_, WebhookDeliveryRepository.lookup_write_self hrow w _,
        .written (by rw [hagent]; rfl) hid⟩
    · exact ⟨row, by rw [WebhookDeliveryRepository.lookup_write_of_ne _ _ hid, hrow], .same⟩

/-- A new row is that of a test, or one that a dispatch has drafted. -/
def RowOrigin (agent : WebhookAgent) (row : WebhookDeliveryDoc) : Prop :=
  (row.isTest = true ∧ row.droppedSinceLast = 0) ∨
    row.isTest = false ∧ ∃ draft ∈ agent.drafts, row.endpointId = draft.endpoint.id ∧
      row.droppedSinceLast = draft.endpoint.droppedCount

/-- A row that was not there is new. -/
theorem RowMove.new_of_none {agent agent' : WebhookAgent} {deliveries : DeliveryStore}
    (hmove : RowMove cfg s agent agent' deliveries) {id : ObjectId} {row : WebhookDeliveryDoc}
    (hnone : s.deliveries.lookup id = none) (hrow : deliveries.lookup id = some row) :
    NewRow row ∧ RowOrigin agent row := by
  have hnew {new : WebhookDeliveryDoc} (hself : deliveries.lookup new.id = some new)
      (hothers : ∀ other, other ≠ new.id → deliveries.lookup other = s.deliveries.lookup other) :
      row = new := by
    by_cases hid : id = new.id
    · subst hid
      rw [hself] at hrow
      exact (Option.some.inj hrow).symm
    · rw [hothers id hid, hnone] at hrow
      cases hrow
  cases hmove with
  | insertsTest _ _ hrow' htest _ hself hothers hdropped =>
    rw [hnew hself hothers]
    exact ⟨hrow', .inl ⟨htest, hdropped⟩⟩
  | inserts _ _ _ hrow' htest _ hself hothers hdraft =>
    rw [hnew hself hothers]
    exact ⟨hrow', .inr ⟨htest, hdraft⟩⟩
  | @claims _ _ claimed _ _ hclaimed _ _ _ hothers =>
    have hid : id ≠ claimed.id := by
      rintro rfl
      rw [hclaimed] at hnone
      cases hnone
    rw [hothers id hid, hnone] at hrow
    cases hrow
  | @freezes held _ body _ =>
    by_cases hid : id = held.id
    · subst hid
      rw [WebhookDeliveryRepository.lookup_setRenderedBody_none hnone] at hrow
      cases hrow
    · rw [WebhookDeliveryRepository.lookup_setRenderedBody_of_ne _ hid, hnone] at hrow
      cases hrow
  | @writes _ held w _ _ =>
    by_cases hid : id = held.id
    · subst hid
      rw [WebhookDeliveryRepository.lookup_write_none hnone] at hrow
      cases hrow
    · rw [WebhookDeliveryRepository.lookup_write_of_ne _ _ hid, hnone] at hrow
      cases hrow
  | _ =>
    rw [hnone] at hrow
    cases hrow

/-- What a row was before a move. -/
theorem RowMove.newRow_or_change {agent agent' : WebhookAgent} {deliveries : DeliveryStore}
    (hmove : RowMove cfg s agent agent' deliveries) {id : ObjectId} {row' : WebhookDeliveryDoc}
    (hrow' : deliveries.lookup id = some row') :
    NewRow row' ∨
      ∃ row, s.deliveries.lookup id = some row ∧ RowChange cfg s agent row row' := by
  cases hrow : s.deliveries.lookup id with
  | none => exact .inl (hmove.new_of_none hrow hrow').1
  | some row =>
    obtain ⟨row'', hrow'', hchange⟩ := hmove.exists_change hrow
    rw [hrow'] at hrow''
    cases hrow''
    exact .inr ⟨row, rfl, hchange⟩

/-- What no move changes of a row, and that a row does not become PENDING again. -/
structure KeptRow (row row' : WebhookDeliveryDoc) : Prop where
  endpointId : row'.endpointId = row.endpointId
  isTest : row'.isTest = row.isTest
  droppedSinceLast : row'.droppedSinceLast = row.droppedSinceLast
  settled : row.status ≠ .pending → row'.status ≠ .pending

theorem keptRow_refl (row : WebhookDeliveryDoc) : KeptRow row row := ⟨rfl, rfl, rfl, id⟩

theorem RowChange.kept {agent : WebhookAgent} {row row' : WebhookDeliveryDoc}
    (hchange : RowChange cfg s agent row row')
    (hpermits : ∀ row w, agent.writing = some (row, w) → Permits row w) : KeptRow row row' := by
  cases hchange with
  | same => exact keptRow_refl row
  | claimed => exact ⟨rfl, rfl, rfl, id⟩
  | frozen => exact ⟨rfl, rfl, rfl, id⟩
  | @written held w hagent =>
    have hpermitted := hpermits held w hagent
    cases w with
    | finish attempt status => exact ⟨rfl, rfl, rfl, fun _ => hpermitted⟩
    | fail reason => exact ⟨rfl, rfl, rfl, fun _ => DeliveryStatus.noConfusion⟩
    | _ => exact ⟨rfl, rfl, rfl, id⟩

theorem RowMove.exists_kept {agent agent' : WebhookAgent} {deliveries : DeliveryStore}
    (hmove : RowMove cfg s agent agent' deliveries)
    (hpermits : ∀ row w, agent.writing = some (row, w) → Permits row w) {id : ObjectId}
    {row : WebhookDeliveryDoc} (hrow : s.deliveries.lookup id = some row) :
    ∃ row', deliveries.lookup id = some row' ∧ KeptRow row row' := by
  obtain ⟨row', hrow', hchange⟩ := hmove.exists_change hrow
  exact ⟨row', hrow', hchange.kept hpermits⟩

end

end Spoo
