import Spoo.Proofs.PendingSlots

/-!
# Rows that have been delivered

A row that has been delivered is never claimed again, since it never becomes PENDING again. What an
attempt writes in the end is under the id of the row alone: an executor that has lost its lease can
still write that the delivery failed.
-/

namespace Spoo

open Agents Mongo.Collection

variable {ι : Type}

/-- A terminal write that is no success. -/
def AttemptWrite.fails : AttemptWrite → Bool
  | .finish _ status => status = .failed
  | .fail _ => true
  | _ => false

/-- A test send or a manual retry is under way. -/
def WebhookAgent.isManual (agent : WebhookAgent) : Bool :=
  agent.stance.row.any DeliveryExecutor.singleShot

/-- The row has status SUCCESS. -/
def WebhookWorld.succeeded (s : WebhookWorld) (id : ObjectId) : Bool :=
  (s.deliveries.lookup id).any (·.status = .success)

/-- The row that a move claims. -/
def claimedBy : WebhookAgent → WebhookAgent → Option WebhookDeliveryDoc
  | .attempt (.claiming ..), .attempt (.loading row) => some row
  | _, _ => none

/-- The rows that a move takes out of SUCCESS, unless it is one of a test send or a manual retry. -/
def undoneBy (agent : WebhookAgent) (s s' : WebhookWorld) : List ObjectId :=
  if agent.isManual then []
  else (s.deliveries.docs.filter fun row => s.succeeded row.id && !s'.succeeded row.id).map (·.id)

/-- What a run has done to delivered rows. -/
structure DeliveredHistory (ι : Type) where
  /-- The rows that have been SUCCESS before the last move. -/
  delivered : ObjectId → Bool := fun _ => false
  /-- The agents whose last claim was of such a row. -/
  late : ι → Bool := fun _ => false
  /-- The rows that background processing took out of SUCCESS. -/
  undone : List ObjectId := []
  /-- The rows of the background requests that were made under a late claim. -/
  resent : List ObjectId := []

/-- What a move adds. -/
def recordDelivered [DecidableEq ι] (who : ι) (_ : WebhookAnswer) (agent : WebhookAgent)
    (s : WebhookWorld) (moved : WebhookAgent × WebhookWorld) (h : DeliveredHistory ι) :
    DeliveredHistory ι where
  delivered id := h.delivered id || s.succeeded id
  late := match claimedBy agent moved.1 with
    | some row => Function.update h.late who (h.delivered row.id || s.succeeded row.id)
    | none => h.late
  undone := undoneBy agent s moved.2 ++ h.undone
  resent :=
    (if h.late who && !agent.isManual then
      (moved.2.posts.take (moved.2.posts.length - s.posts.length)).map (·.row)
      else []) ++ h.resent

/-- Background processing has changed no delivered row, and made no request for one under a claim that
is later than the delivery. -/
def StaysDelivered (h : DeliveredHistory ι) : Prop := h.undone = [] ∧ h.resent = []

/-- A background attempt that has lost its lease does not come to write that a delivered row failed. -/
def FailsUnderLease (pool : Pool ι WebhookAgent (WebhookWorld × DeliveredHistory ι))
    (event : ι × WebhookAnswer) : Prop :=
  event.2.choice.fails = false → ∀ row w, (pool.agents event.1).writing = some (row, w) →
    DeliveryExecutor.singleShot row = false → w.fails = true →
    ∀ doc, pool.shared.1.deliveries.lookup row.id = some doc →
      doc.claimedUntil ≠ row.claimedUntil → doc.status ≠ .success

/-- What holds of the rows and of the history in every state. -/
structure RowsSettled (deliveries : DeliveryStore) (h : DeliveredHistory ι) : Prop where
  unleased : ∀ id row, deliveries.lookup id = some row → row.status ≠ .pending →
    row.claimedUntil = none
  settled : ∀ id, h.delivered id = true →
    ∃ row, deliveries.lookup id = some row ∧ row.status ≠ .pending
  early : ∀ who, h.late who = false
  resent : h.resent = []

/-- A background attempt has a lease. -/
structure HoldsLease (agent : WebhookAgent) (deliveries : DeliveryStore) : Prop where
  permits : ∀ row w, agent.writing = some (row, w) → Permits row w
  inserted : ∀ id, agent.stance = .inserted id →
    ∃ row, deliveries.lookup id = some row ∧ row.isTest = true
  leased : ∀ row, agent.stance = .holds row → DeliveryExecutor.singleShot row = false →
    row.claimedUntil ≠ none

section

variable {cfg : WebhookConfig} {s s' : WebhookWorld} {agent agent' : WebhookAgent}
  {deliveries : DeliveryStore}

theorem succeeded_iff {id : ObjectId} : s.succeeded id = true ↔
    ∃ row, s.deliveries.lookup id = some row ∧ row.status = .success := by
  simp [WebhookWorld.succeeded, Option.any_eq_true]

theorem written_of_not_fails {row held : WebhookDeliveryDoc} {w : AttemptWrite} {now : Int}
    (hpermits : Permits held w) (hfails : w.fails = false) (hstatus : row.status = .success) :
    (WebhookDeliveryRepository.written w now row).status = .success := by
  cases w with
  | defer delaySeconds => exact hstatus
  | reschedule attempt nextAttemptAt => exact hstatus
  | finish attempt status =>
    cases status with
    | success => rfl
    | pending => exact absurd rfl hpermits
    | failed => cases hfails
  | fail reason => cases hfails

theorem written_of_fails {row : WebhookDeliveryDoc} {w : AttemptWrite} {now : Int}
    (hfails : w.fails = true) : (WebhookDeliveryRepository.written w now row).status = .failed := by
  cases w with
  | defer delaySeconds => cases hfails
  | reschedule attempt nextAttemptAt => cases hfails
  | finish attempt status =>
    show status = .failed
    simpa [AttemptWrite.fails] using hfails
  | fail reason => rfl

theorem claimedUntil_written (w : AttemptWrite) (now : Int) (row : WebhookDeliveryDoc) :
    (WebhookDeliveryRepository.written w now row).claimedUntil = none := by
  cases w <;> rfl

/-- A delivered row stays so, unless the move is the write that it failed. -/
theorem RowChange.success_kept {row row' : WebhookDeliveryDoc}
    (hchange : RowChange cfg s agent row row')
    (hpermits : ∀ row w, agent.writing = some (row, w) → Permits row w)
    (hstatus : row.status = .success)
    (hfails : ∀ held w, agent.writing = some (held, w) → row.id = held.id → w.fails = false) :
    row'.status = .success := by
  cases hchange with
  | same => exact hstatus
  | claimed => exact hstatus
  | frozen => exact hstatus
  | @written held w hagent hid =>
    exact written_of_not_fails (hpermits held w hagent) (hfails held w hagent hid) hstatus

/-- A row that is not PENDING has no lease. -/
theorem RowMove.unleased (hmove : RowMove cfg s agent agent' deliveries)
    (h : ∀ id row, s.deliveries.lookup id = some row → row.status ≠ .pending →
      row.claimedUntil = none) {id : ObjectId} {row : WebhookDeliveryDoc}
    (hrow : deliveries.lookup id = some row) (hstatus : row.status ≠ .pending) :
    row.claimedUntil = none := by
  rcases hmove.newRow_or_change hrow with hnew | ⟨old, hold, hchange⟩
  · exact hnew.claimedUntil
  · cases hchange with
    | same => exact h id _ hold hstatus
    | claimed _ hdue => exact absurd (WebhookDeliveryRepository.status_of_isDue hdue) hstatus
    | frozen => exact h id old hold hstatus
    | written => exact claimedUntil_written _ _ _

theorem undoneBy_eq_nil_iff : undoneBy agent s s' = [] ↔ agent.isManual = true ∨
    ∀ id, s.succeeded id = true → s'.succeeded id = true := by
  unfold undoneBy
  cases agent.isManual with
  | true => simp
  | false =>
    simp only [Bool.false_eq_true, if_false, List.map_eq_nil_iff, List.filter_eq_nil_iff,
      Bool.and_eq_true, Bool.not_eq_true', not_and, Bool.not_eq_false, false_or]
    constructor
    · intro h id hold
      obtain ⟨row, hrow, -⟩ := succeeded_iff.1 hold
      obtain ⟨hmem, rfl⟩ := lookup_eq_some_iff.1 hrow
      exact h row hmem hold
    · exact fun h row _ => h row.id

/-- A claim takes a row that is PENDING. -/
theorem pending_of_claimedBy (hmove : RowMove cfg s agent agent' deliveries)
    {row : WebhookDeliveryDoc} (hclaimed : claimedBy agent agent' = some row) :
    ∃ old, s.deliveries.lookup row.id = some old ∧ old.status = .pending := by
  unfold claimedBy at hclaimed
  split at hclaimed
  · cases hclaimed
    cases hmove with
    | leaves _ haway => cases haway
    | keeps _ hheld _ => cases hheld
    | claims hagent hrow hdue _ _ _ =>
      exact ⟨_, hrow, WebhookDeliveryRepository.status_of_isDue hdue⟩
    | retries hagent => cases hagent
    | reads hagent => cases hagent
    | inserts _ _ haway => cases haway
    | writes hagent => cases hagent
  · cases hclaimed

theorem claimedBy_of_away (haway : agent'.stance = .away) : claimedBy agent agent' = none := by
  unfold claimedBy
  split
  · cases haway
  · rfl

end

/-! ## Runs -/

section

variable [DecidableEq ι] {lib : WebhookLib} {cfg : WebhookConfig} {who : ι}
  {agent agent' : WebhookAgent} {s : WebhookWorld × DeliveredHistory ι}

/-- What a move has to show. -/
abbrev KeepsSettled (who : ι) (s : WebhookWorld × DeliveredHistory ι)
    (moved : WebhookAgent × WebhookWorld × DeliveredHistory ι) : Prop :=
  Pool.Keeps (fun s => RowsSettled s.1.deliveries s.2)
    (fun _ agent s => HoldsLease agent s.1.deliveries) who s moved

theorem HoldsLease.of_kept {deliveries deliveries' : DeliveryStore}
    (hagent : HoldsLease agent deliveries)
    (hkept : ∀ id row, deliveries.lookup id = some row →
      ∃ row', deliveries'.lookup id = some row' ∧ KeptRow row row') :
    HoldsLease agent deliveries' :=
  { hagent with
    inserted := fun id hid => by
      obtain ⟨row, hrow, htest⟩ := hagent.inserted id hid
      obtain ⟨row', hrow', hsame⟩ := hkept id row hrow
      exact ⟨row', hrow', hsame.isTest.trans htest⟩ }

/-- The lease of an attempt after a move. -/
theorem RowMove.holdsLease {world : WebhookWorld} {deliveries : DeliveryStore}
    (hmove : RowMove cfg world agent agent' deliveries)
    (hagent : HoldsLease agent world.deliveries)
    (hpermits : ∀ row w, agent'.writing = some (row, w) → Permits row w) :
    HoldsLease agent' deliveries where
  permits := hpermits
  inserted id hid := by
    cases hmove with
    | leaves _ haway => rw [haway] at hid; cases hid
    | keeps _ _ hholds => rw [hholds] at hid; cases hid
    | claims => cases hid
    | retries => cases hid
    | reads => cases hid
    | insertsTest _ _ _ htest _ hself _ => cases hid; exact ⟨_, hself, htest⟩
    | inserts _ _ haway => rw [haway] at hid; cases hid
    | freezes => cases hid
    | writes _ hstance =>
      rw [hstance] at hid
      split at hid <;> cases hid
  leased row hrow hsingle := by
    cases hmove with
    | leaves _ haway => rw [haway] at hrow; cases hrow
    | keeps _ hheld hholds =>
      rw [hholds] at hrow
      cases hrow
      exact hagent.leased row hheld hsingle
    | claims => cases hrow; simp [WebhookDeliveryRepository.withClaim]
    | retries _ _ hstatus =>
      cases hrow
      simp [DeliveryExecutor.singleShot, hstatus] at hsingle
    | reads hagent' hread =>
      cases hrow
      obtain ⟨doc, hdoc, htest⟩ := hagent.inserted row.id (by rw [hagent']; rfl)
      rw [hread] at hdoc
      cases hdoc
      simp [DeliveryExecutor.singleShot, htest] at hsingle
    | insertsTest => cases hrow
    | inserts _ _ haway => rw [haway] at hrow; cases hrow
    | freezes hagent' =>
      cases hrow
      exact hagent.leased row (by rw [hagent']; rfl) hsingle
    | writes _ hstance =>
      rw [hstance] at hrow
      split at hrow <;> cases hrow

theorem rowsSettled_record (answer : WebhookAnswer) {moved : WebhookAgent × WebhookWorld}
    (hs : RowsSettled s.1.deliveries s.2)
    (hkept : ∀ id row, s.1.deliveries.lookup id = some row →
      ∃ row', moved.2.deliveries.lookup id = some row' ∧ KeptRow row row')
    (hunleased : ∀ id row, moved.2.deliveries.lookup id = some row → row.status ≠ .pending →
      row.claimedUntil = none)
    (hclaimed : ∀ row, claimedBy agent moved.1 = some row →
      ∃ old, s.1.deliveries.lookup row.id = some old ∧ old.status = .pending) :
    RowsSettled moved.2.deliveries (recordDelivered who answer agent s.1 moved s.2) where
  unleased := hunleased
  settled id hdelivered := by
    have hold : ∃ row, s.1.deliveries.lookup id = some row ∧ row.status ≠ .pending := by
      rcases Bool.or_eq_true_iff.1 hdelivered with hdelivered | hsucceeded
      · exact hs.settled id hdelivered
      · obtain ⟨row, hrow, hstatus⟩ := succeeded_iff.1 hsucceeded
        exact ⟨row, hrow, by rw [hstatus]; exact DeliveryStatus.noConfusion⟩
    obtain ⟨row, hrow, hstatus⟩ := hold
    obtain ⟨row', hrow', hsame⟩ := hkept id row hrow
    exact ⟨row', hrow', hsame.settled hstatus⟩
  early i := by
    unfold recordDelivered
    cases hrow : claimedBy agent moved.1 with
    | none => exact hs.early i
    | some row =>
      obtain ⟨old, hold, hpending⟩ := hclaimed row hrow
      have hnever : s.2.delivered row.id = false := by
        cases hdelivered : s.2.delivered row.id with
        | false => rfl
        | true =>
          obtain ⟨settled, hsettled, hstatus⟩ := hs.settled row.id hdelivered
          rw [hold] at hsettled
          cases hsettled
          exact absurd hpending hstatus
      have hnot : s.1.succeeded row.id = false := by
        simp [WebhookWorld.succeeded, hold, hpending]
      show Function.update s.2.late who (s.2.delivered row.id || s.1.succeeded row.id) i = false
      rw [hnever, hnot]
      by_cases hi : i = who
      · rw [hi, Function.update_self]
        rfl
      · rw [Function.update_of_ne hi, hs.early i]
  resent := by
    unfold recordDelivered
    rw [hs.early who, hs.resent]
    rfl

/-- One move of anyone. -/
theorem keepsSettled_move (lib : WebhookLib) (answer : WebhookAnswer)
    (hs : RowsSettled s.1.deliveries s.2) (hagent : HoldsLease agent s.1.deliveries) :
    KeepsSettled who s (recorded recordDelivered (WebhookAgent.move lib cfg) who answer agent s) := by
  have hpermits : ∀ row w, (WebhookAgent.act lib cfg answer.choice agent
      (s.1.wait answer.delay)).1.writing = some (row, w) → Permits row w := fun _ _ => permits_act
  cases hfails : answer.choice.fails with
  | true =>
    obtain ⟨hworld, haway⟩ := act_of_fails lib cfg hfails agent (s.1.wait answer.delay)
    have hsame : (WebhookAgent.move lib cfg who answer agent s.1).2.deliveries =
        s.1.deliveries := by
      show (WebhookAgent.act lib cfg answer.choice agent _).2.deliveries = s.1.deliveries
      rw [hworld]
      rfl
    refine ⟨?_, ⟨hpermits, fun id hid => ?_, fun row hrow => ?_⟩, fun _ _ _ hother => ?_⟩
    · refine rowsSettled_record answer hs (fun id row hrow => ?_) (fun id row hrow => ?_) fun row hrow => ?_
      · exact ⟨row, hsame ▸ hrow, keptRow_refl row⟩
      · exact hs.unleased id row (hsame ▸ hrow)
      · rw [show claimedBy agent (WebhookAgent.move lib cfg who answer agent s.1).1 = none from
          claimedBy_of_away haway] at hrow
        cases hrow
    · cases haway.symm.trans hid
    · cases haway.symm.trans hrow
    · exact hother.of_kept fun id row hrow => ⟨row, hsame ▸ hrow, keptRow_refl row⟩
  | false =>
    have hmove := rowMove_act lib cfg hfails agent (s.1.wait answer.delay)
    have hkept : ∀ id row, s.1.deliveries.lookup id = some row → ∃ row',
        (WebhookAgent.move lib cfg who answer agent s.1).2.deliveries.lookup id = some row' ∧
          KeptRow row row' := fun id row hrow => hmove.exists_kept hagent.permits hrow
    refine ⟨?_, hmove.holdsLease hagent hpermits, fun _ _ _ hother => hother.of_kept hkept⟩
    exact rowsSettled_record answer hs hkept (fun id row hrow => hmove.unleased hs.unleased hrow)
      fun row hrow => pending_of_claimedBy hmove hrow

theorem isManual_of_writing {row : WebhookDeliveryDoc} {w : AttemptWrite}
    (h : agent.writing = some (row, w)) : agent.isManual = DeliveryExecutor.singleShot row := by
  rw [WebhookAgent.isManual, stance_of_writing h]
  rfl

omit [DecidableEq ι] in
/-- A move that undoes no delivery is as the condition has it. -/
theorem failsUnderLease_of_undoneBy {pool : Pool ι WebhookAgent (WebhookWorld × DeliveredHistory ι)}
    {event : ι × WebhookAnswer}
    (h : undoneBy (pool.agents event.1) pool.shared.1
      (WebhookAgent.move lib cfg event.1 event.2 (pool.agents event.1) pool.shared.1).2 = []) :
    FailsUnderLease pool event := by
  intro hchoice row w hwriting hsingle hfails doc hdoc _ hstatus
  have hmove := rowMove_act lib cfg hchoice (pool.agents event.1)
    (pool.shared.1.wait event.2.delay)
  rcases undoneBy_eq_nil_iff.1 h with hmanual | hkept
  · rw [isManual_of_writing hwriting, hsingle] at hmanual
    cases hmanual
  · obtain ⟨row', hrow', hstatus'⟩ :=
      succeeded_iff.1 (hkept row.id (succeeded_iff.2 ⟨doc, hdoc, hstatus⟩))
    have hwritten := WebhookDeliveryRepository.lookup_write_self hdoc w
      (pool.shared.1.wait event.2.delay).clock
    rw [show lookup _ row.id = some row' from hmove.of_writing hwriting ▸ hrow'] at hwritten
    cases hwritten
    rw [written_of_fails hfails] at hstatus'
    cases hstatus'

omit [DecidableEq ι] in
/-- An attempt that has its lease finds its row PENDING, so that what the condition leaves undoes no
delivery. -/
theorem undoneBy_of_failsUnderLease
    {pool : Pool ι WebhookAgent (WebhookWorld × DeliveredHistory ι)} {event : ι × WebhookAnswer}
    (hs : RowsSettled pool.shared.1.deliveries pool.shared.2)
    (hagent : HoldsLease (pool.agents event.1) pool.shared.1.deliveries)
    (h : FailsUnderLease pool event) :
    undoneBy (pool.agents event.1) pool.shared.1
      (WebhookAgent.move lib cfg event.1 event.2 (pool.agents event.1) pool.shared.1).2 = [] := by
  rw [undoneBy_eq_nil_iff, or_iff_not_imp_left, Bool.not_eq_true]
  intro hbackground id hold
  cases hfails : event.2.choice.fails with
  | true =>
    obtain ⟨hworld, -⟩ := act_of_fails lib cfg hfails (pool.agents event.1)
      (pool.shared.1.wait event.2.delay)
    show WebhookWorld.succeeded (WebhookAgent.act lib cfg event.2.choice _ _).2 id = true
    rw [hworld]
    exact hold
  | false =>
    have hmove := rowMove_act lib cfg hfails (pool.agents event.1)
      (pool.shared.1.wait event.2.delay)
    obtain ⟨row, hrow, hstatus⟩ := succeeded_iff.1 hold
    obtain ⟨row', hrow', hchange⟩ := hmove.exists_change hrow
    refine succeeded_iff.2 ⟨row', hrow', hchange.success_kept hagent.permits hstatus ?_⟩
    intro held w hwriting hid
    rw [← Bool.not_eq_true]
    intro hfailing
    have hsingle : DeliveryExecutor.singleShot held = false :=
      (isManual_of_writing hwriting).symm.trans hbackground
    have hsame : row.id = id := (lookup_eq_some_iff.1 hrow).2
    refine h hfails held w hwriting hsingle hfailing row (hid ▸ hsame ▸ hrow) ?_ hstatus
    rw [hs.unleased id row hrow (by rw [hstatus]; exact DeliveryStatus.noConfusion)]
    exact (hagent.leased held (stance_of_writing hwriting) hsingle).symm

end

/-- In a run background processing leaves every delivered row so exactly when no background attempt
that has lost its lease comes to write that a delivered row failed. -/
theorem staysDelivered_iff_failsUnderLease [DecidableEq ι] (lib : WebhookLib) (cfg : WebhookConfig)
    (pool : Pool ι WebhookAgent (WebhookWorld × DeliveredHistory ι))
    (events : List (ι × WebhookAnswer)) (hidle : ∀ who, (pool.agents who).Idle)
    (hrest : ∀ row ∈ pool.shared.1.deliveries.docs, row.status ≠ .pending →
      row.claimedUntil = none)
    (hstart : pool.shared.2 = {}) :
    (∀ t ∈ List.scanl (Pool.step (recorded recordDelivered (WebhookAgent.move lib cfg))) pool events,
        StaysDelivered t.shared.2) ↔
      Run.Guarded (Pool.step (recorded recordDelivered (WebhookAgent.move lib cfg)))
        FailsUnderLease pool events := by
  refine Run.forall_mem_scanl_iff_of_invariant
    (Pool.Sound (fun s => RowsSettled s.1.deliveries s.2)
      fun _ agent s => HoldsLease agent s.1.deliveries)
    (fun pool event hsound _ hnext => ?_) (fun pool event hsound hstays hguard => ?_) ?_ ?_
  · exact failsUnderLease_of_undoneBy (List.append_eq_nil_iff.1 hnext.1).1
  · refine ⟨hsound.step (keepsSettled_move lib event.2 hsound.shared (hsound.agents event.1)),
      List.append_eq_nil_iff.2 ⟨?_, hstays.1⟩, ?_⟩
    · exact undoneBy_of_failsUnderLease hsound.shared (hsound.agents event.1) hguard
    · exact (keepsSettled_move lib event.2 hsound.shared (hsound.agents event.1)).shared.resent
  · refine ⟨⟨fun id row hrow => hrest row (lookup_eq_some_iff.1 hrow).1, ?_, ?_, ?_⟩, fun who => ?_⟩
    · intro id hdelivered
      rw [hstart] at hdelivered
      cases hdelivered
    · intro who
      rw [hstart]
    · rw [hstart]
    · obtain ⟨hquiet, haway⟩ := stance_of_idle (hidle who)
      constructor
      · intro row w hwriting
        rw [hquiet] at hwriting
        cases hwriting
      · intro id hid
        rw [haway] at hid
        cases hid
      · intro row hrow
        rw [haway] at hrow
        cases hrow
  · rw [hstart]
    exact ⟨rfl, rfl⟩

theorem staysDelivered_iff_failsUnderLease_overrun :
    (∀ t ∈ List.scanl (Pool.step (recorded recordDelivered (WebhookAgent.move plainLib {})))
        (twoExecutors oneDue {}) overrun, StaysDelivered t.shared.2) ↔
      Run.Guarded (Pool.step (recorded recordDelivered (WebhookAgent.move plainLib {})))
        FailsUnderLease (twoExecutors oneDue {}) overrun := by
  refine staysDelivered_iff_failsUnderLease _ _ _ _ (fun _ => rfl) (fun row hrow hstatus => ?_) rfl
  rw [show (twoExecutors oneDue ({} : DeliveredHistory Bool)).shared.1.deliveries.docs = [dueRow]
    from rfl, List.mem_singleton] at hrow
  subst hrow
  exact absurd rfl hstatus

/-- The answer that comes too late, 410, turns the delivered row into a failed one. -/
theorem delivered_row_undone_overrun :
    ∃ t ∈ List.scanl (Pool.step (recorded recordDelivered (WebhookAgent.move plainLib {})))
      (twoExecutors oneDue {}) overrun, ¬ StaysDelivered t.shared.2 := by
  refine ⟨overrun.foldl (Pool.step (recorded recordDelivered (WebhookAgent.move plainLib {})))
    (twoExecutors oneDue {}), by simp [overrun, claimAndSend], fun h => ?_⟩
  have hundone : (overrun.foldl (Pool.step (recorded recordDelivered
      (WebhookAgent.move plainLib {}))) (twoExecutors oneDue {})).shared.2.undone = [3] := by
    decide +kernel
  rw [h.1] at hundone
  cases hundone

end Spoo
