import Spoo.Proofs.DeliveryRows

/-!
# Pending slots

The slot of a row is released by the agent whose write took the row out of PENDING, and no row leaves
PENDING twice.
-/

namespace Spoo

open Agents Mongo.Collection

variable {ι : Type}

/-- The writes that took a row out of PENDING, and the releases of a slot, with who made them. -/
structure SlotHistory (ι : Type) where
  ended : List (ι × ObjectId) := []
  released : List (ι × ObjectId) := []

/-- What a move adds. -/
def recordSlots (who : ι) (answer : WebhookAnswer) (agent : WebhookAgent) (s : WebhookWorld)
    (_ : WebhookAgent × WebhookWorld) (h : SlotHistory ι) : SlotHistory ι :=
  if answer.choice.fails then h
  else match agent.writing with
    | some (row, w) =>
      if (WebhookDeliveryRepository.write s.deliveries row.id w s.clock).1 then
        { h with ended := (who, row.id) :: h.ended }
      else h
    | none =>
      match agent.stance.owed with
      | some row => { h with released := (who, row.id) :: h.released }
      | none => h

/-- Whoever has released a slot has ended its row before, and a row is ended once. -/
structure SlotsKept (deliveries : DeliveryStore) (h : SlotHistory ι) : Prop where
  once : (h.ended.map (·.2)).Nodup
  settled : ∀ who id, (who, id) ∈ h.ended →
    ∃ row, deliveries.lookup id = some row ∧ row.status ≠ .pending
  earned : ∀ entry, entry ∈ h.released → entry ∈ h.ended
  nodup : h.released.Nodup
  reserved : ∀ who id, (who, id) ∈ h.released →
    ∃ row, deliveries.lookup id = some row ∧ row.isTest = false

/-- What is asserted of an agent. -/
structure OwesSlot (who : ι) (agent : WebhookAgent) (deliveries : DeliveryStore)
    (h : SlotHistory ι) : Prop where
  permits : ∀ row w, agent.writing = some (row, w) → Permits row w
  read : ∀ row, agent.stance.row = some row →
    ∃ doc, deliveries.lookup row.id = some doc ∧ doc.isTest = row.isTest
  owes : ∀ row, agent.stance.owed = some row →
    (who, row.id) ∈ h.ended ∧ (who, row.id) ∉ h.released ∧ row.isTest = false

/-- What a move has to show. -/
abbrev KeepsSlots (who : ι) (s : WebhookWorld × SlotHistory ι)
    (moved : WebhookAgent × WebhookWorld × SlotHistory ι) : Prop :=
  Pool.Keeps (fun s => SlotsKept s.1.deliveries s.2)
    (fun i agent s => OwesSlot i agent s.1.deliveries s.2) who s moved

section

variable {cfg : WebhookConfig} {s s' : WebhookWorld} {h : SlotHistory ι} {who : ι}
  {agent agent' : WebhookAgent}

/-- Rows that stay, with the history as it was. -/
theorem SlotsKept.of_kept {deliveries deliveries' : DeliveryStore} (hs : SlotsKept deliveries h)
    (hkept : ∀ id row, deliveries.lookup id = some row →
      ∃ row', deliveries'.lookup id = some row' ∧ KeptRow row row') : SlotsKept deliveries' h :=
  { hs with
    settled := fun who id hmem => by
      obtain ⟨row, hrow, hstatus⟩ := hs.settled who id hmem
      obtain ⟨row', hrow', hsame⟩ := hkept id row hrow
      exact ⟨row', hrow', hsame.settled hstatus⟩
    reserved := fun who id hmem => by
      obtain ⟨row, hrow, htest⟩ := hs.reserved who id hmem
      obtain ⟨row', hrow', hsame⟩ := hkept id row hrow
      exact ⟨row', hrow', hsame.isTest.trans htest⟩ }

theorem OwesSlot.of_kept {deliveries deliveries' : DeliveryStore} {h h' : SlotHistory ι} {i : ι}
    (hagent : OwesSlot i agent deliveries h)
    (hkept : ∀ id row, deliveries.lookup id = some row →
      ∃ row', deliveries'.lookup id = some row' ∧ KeptRow row row')
    (hended : ∀ entry, entry ∈ h.ended → entry ∈ h'.ended)
    (hreleased : ∀ id, (i, id) ∈ h'.released → (i, id) ∈ h.released) :
    OwesSlot i agent deliveries' h' where
  permits := hagent.permits
  read row hrow := by
    obtain ⟨doc, hdoc, htest⟩ := hagent.read row hrow
    obtain ⟨doc', hdoc', hsame⟩ := hkept _ doc hdoc
    exact ⟨doc', hdoc', hsame.isTest.trans htest⟩
  owes row hrow := by
    obtain ⟨hmem, hnot, htest⟩ := hagent.owes row hrow
    exact ⟨hended _ hmem, fun hnew => hnot (hreleased _ hnew), htest⟩

theorem recordSlots_of_quiet {answer : WebhookAnswer} {moved : WebhookAgent × WebhookWorld}
    {world : WebhookWorld} (hquiet : agent.writing = none)
    (howed : agent.stance.owed = none) : recordSlots who answer agent world moved h = h := by
  unfold recordSlots
  rw [hquiet, howed]
  exact ite_self _

/-- A move that ends no row and releases no slot. -/
theorem keepsSlots_of_same {s : WebhookWorld × SlotHistory ι} {world : WebhookWorld}
    (hs : SlotsKept s.1.deliveries s.2)
    (hkept : ∀ id row, s.1.deliveries.lookup id = some row →
      ∃ row', world.deliveries.lookup id = some row' ∧ KeptRow row row')
    (hpermits : ∀ row w, agent'.writing = some (row, w) → Permits row w)
    (hread : ∀ row, agent'.stance.row = some row →
      ∃ doc, world.deliveries.lookup row.id = some doc ∧ doc.isTest = row.isTest)
    (howed : agent'.stance.owed = none) : KeepsSlots who s (agent', world, s.2) where
  shared := hs.of_kept hkept
  own := ⟨hpermits, hread, fun row hrow => by rw [howed] at hrow; cases hrow⟩
  others _ _ _ hother := hother.of_kept hkept (fun _ => id) fun _ => id

/-- The release of a slot that the agent owes. -/
theorem keepsSlots_release {s : WebhookWorld × SlotHistory ι} {world : WebhookWorld}
    {row : WebhookDeliveryDoc} (hs : SlotsKept s.1.deliveries s.2)
    (hagent : OwesSlot who agent s.1.deliveries s.2) (hstance : agent.stance = .owes row)
    (hdeliveries : world.deliveries = s.1.deliveries) (haway : agent'.stance = .away)
    (hpermits : ∀ row w, agent'.writing = some (row, w) → Permits row w) :
    KeepsSlots who s
      (agent', world, { s.2 with released := (who, row.id) :: s.2.released }) := by
  obtain ⟨hended, hnot, htest⟩ := hagent.owes row (by rw [hstance]; rfl)
  obtain ⟨doc, hdoc, hsame⟩ := hagent.read row (by rw [hstance]; rfl)
  refine ⟨?_, ⟨hpermits, fun row' hrow => ?_, fun row' hrow => ?_⟩, fun j other hj hother => ?_⟩
  · rw [hdeliveries]
    refine { hs with
      earned := List.forall_mem_cons.2 ⟨hended, hs.earned⟩
      nodup := List.nodup_cons.2 ⟨hnot, hs.nodup⟩
      reserved := fun i id hmem => ?_ }
    rcases List.mem_cons.1 hmem with heq | hold
    · cases heq
      exact ⟨doc, hdoc, hsame.trans htest⟩
    · exact hs.reserved i id hold
  · rw [haway] at hrow
    cases hrow
  · rw [haway] at hrow
    cases hrow
  · rw [hdeliveries]
    refine hother.of_kept (fun _ row h => ⟨row, h, keptRow_refl row⟩) (fun _ => id) fun id hmem => ?_
    rcases List.mem_cons.1 hmem with heq | hold
    · cases heq
      exact absurd rfl hj
    · exact hold

/-- The write that takes a row out of PENDING. -/
theorem keepsSlots_end {s : WebhookWorld × SlotHistory ι} {world : WebhookWorld}
    {row : WebhookDeliveryDoc} {w : AttemptWrite} {now : Int} (hs : SlotsKept s.1.deliveries s.2)
    (hagent : OwesSlot who agent s.1.deliveries s.2) (hwriting : agent.writing = some (row, w))
    (hheld : agent.stance = .holds row)
    (hended : (WebhookDeliveryRepository.write s.1.deliveries row.id w now).1 = true)
    (hdeliveries : world.deliveries =
      (WebhookDeliveryRepository.write s.1.deliveries row.id w now).2)
    (hkept : ∀ id row, s.1.deliveries.lookup id = some row →
      ∃ row', world.deliveries.lookup id = some row' ∧ KeptRow row row')
    (hstance : agent'.stance = .away ∨ agent'.stance = .owes row ∧ row.isTest = false)
    (hpermits : ∀ row w, agent'.writing = some (row, w) → Permits row w) :
    KeepsSlots who s (agent', world, { s.2 with ended := (who, row.id) :: s.2.ended }) := by
  obtain ⟨hterminal, stored, hstored, hpending⟩ := WebhookDeliveryRepository.exists_of_write hended
  have hnew : row.id ∉ s.2.ended.map (·.2) := by
    intro hmem
    obtain ⟨⟨i, id⟩, hmem, rfl⟩ := List.mem_map.1 hmem
    obtain ⟨old, hold, hsettled⟩ := hs.settled i row.id hmem
    rw [hstored] at hold
    cases hold
    exact hsettled hpending
  have hwritten : world.deliveries.lookup row.id =
      some (WebhookDeliveryRepository.written w now stored) := by
    rw [hdeliveries]
    exact WebhookDeliveryRepository.lookup_write_self hstored w now
  have hsettled : (WebhookDeliveryRepository.written w now stored).status ≠ .pending := by
    have hpermitted := hagent.permits row w hwriting
    rcases hterminal with ⟨attempt, status, rfl⟩ | ⟨reason, rfl⟩
    · exact hpermitted
    · exact DeliveryStatus.noConfusion
  have hkeeps := hs.of_kept hkept
  refine ⟨?_, ⟨hpermits, fun row' hrow => ?_, fun row' hrow => ?_⟩, fun j other hj hother => ?_⟩
  · refine { hkeeps with
      once := List.nodup_cons.2 ⟨hnew, hs.once⟩
      settled := fun i id hmem => ?_
      earned := fun entry hmem => List.mem_cons_of_mem _ (hs.earned entry hmem) }
    rcases List.mem_cons.1 hmem with heq | hold
    · cases heq
      exact ⟨_, hwritten, hsettled⟩
    · exact hkeeps.settled i id hold
  · rcases hstance with haway | ⟨howes, -⟩
    · rw [haway] at hrow
      cases hrow
    · rw [howes] at hrow
      cases hrow
      obtain ⟨doc, hdoc, htest⟩ := hagent.read row (by rw [hheld]; rfl)
      obtain ⟨doc', hdoc', hsame⟩ := hkept _ doc hdoc
      exact ⟨doc', hdoc', hsame.isTest.trans htest⟩
  · rcases hstance with haway | ⟨howes, htest⟩
    · rw [haway] at hrow
      cases hrow
    · rw [howes] at hrow
      cases hrow
      refine ⟨List.mem_cons_self, fun hreleased => hnew ?_, htest⟩
      exact List.mem_map_of_mem (hs.earned _ hreleased)
  · exact hother.of_kept hkept (fun _ => List.mem_cons_of_mem _) fun _ => id

/-- The write that ends a row is recorded, and its agent owes the slot from then on. -/
theorem keepsSlots_write {s : WebhookWorld × SlotHistory ι} {world : WebhookWorld} {answer : WebhookAnswer}
    {row : WebhookDeliveryDoc} {w : AttemptWrite} {after : Option HealthWrite} {now : Int}
    (hfails : answer.choice.fails = false) (hs : SlotsKept s.1.deliveries s.2)
    (hagent : OwesSlot who (.attempt (.writing row w after)) s.1.deliveries s.2)
    (hstance : agent'.stance =
      if (WebhookDeliveryRepository.write s.1.deliveries row.id w s.1.clock).1 && !row.isTest then .owes row
      else .away)
    (hdeliveries : world.deliveries = (WebhookDeliveryRepository.write s.1.deliveries row.id w now).2)
    (hkept : ∀ id row, s.1.deliveries.lookup id = some row →
      ∃ row', world.deliveries.lookup id = some row' ∧ KeptRow row row')
    (hpermits : ∀ row w, agent'.writing = some (row, w) → Permits row w) :
    KeepsSlots who s
      (agent', world, recordSlots who answer (.attempt (.writing row w after)) s.1 (agent', world) s.2) := by
  have hrecord : recordSlots who answer (.attempt (.writing row w after)) s.1 (agent', world) s.2 =
      if (WebhookDeliveryRepository.write s.1.deliveries row.id w s.1.clock).1 then
        { s.2 with ended := (who, row.id) :: s.2.ended }
      else s.2 := if_neg (by simp [hfails])
  rw [hrecord]
  cases hended : (WebhookDeliveryRepository.write s.1.deliveries row.id w s.1.clock).1 with
  | false =>
    have haway : agent'.stance = .away := by rw [hstance, hended]; rfl
    have hunread (held : WebhookDeliveryDoc) (hrow : agent'.stance.row = some held) :
        ∃ doc, world.deliveries.lookup held.id = some doc ∧ doc.isTest = held.isTest := by
      rw [haway] at hrow
      cases hrow
    exact keepsSlots_of_same hs hkept hpermits hunread (by rw [haway]; rfl)
  | true =>
    -- Whether the write ends the row does not depend on the clock.
    refine keepsSlots_end hs hagent rfl rfl ?_ hdeliveries hkept ?_ hpermits
    · exact hended
    cases htest : row.isTest with
    | true => exact .inl (by rw [hstance, htest, Bool.not_true, Bool.and_false]; rfl)
    | false => exact .inr ⟨by rw [hstance, hended, htest]; rfl, rfl⟩

/-- A move that does not fail. -/
theorem keepsSlots_of_rowMove {s : WebhookWorld × SlotHistory ι} {answer : WebhookAnswer}
    {moved : WebhookAgent × WebhookWorld} (hfails : answer.choice.fails = false)
    (hs : SlotsKept s.1.deliveries s.2) (hagent : OwesSlot who agent s.1.deliveries s.2)
    (hmove : RowMove cfg (s.1.wait answer.delay) agent moved.1 moved.2.deliveries)
    (hpermits : ∀ row w, moved.1.writing = some (row, w) → Permits row w) :
    KeepsSlots who s (moved.1, moved.2, recordSlots who answer agent s.1 moved s.2) := by
  obtain ⟨agent', world⟩ := moved
  have hkept : ∀ id row, s.1.deliveries.lookup id = some row →
      ∃ row', world.deliveries.lookup id = some row' ∧ KeptRow row row' :=
    fun id row hrow => hmove.exists_kept hagent.permits hrow
  have hsame (hquiet : agent.writing = none) (howed : agent.stance.owed = none)
      (hread : ∀ row, agent'.stance.row = some row →
        ∃ doc, world.deliveries.lookup row.id = some doc ∧ doc.isTest = row.isTest)
      (howed' : agent'.stance.owed = none) :
      KeepsSlots who s (agent', world, recordSlots who answer agent s.1 (agent', world) s.2) := by
    rw [recordSlots_of_quiet hquiet howed]
    exact keepsSlots_of_same hs hkept hpermits hread howed'
  have hread {row : WebhookDeliveryDoc} (hheld : agent.stance.row = some row) :
      ∃ doc, world.deliveries.lookup row.id = some doc ∧ doc.isTest = row.isTest := by
    obtain ⟨doc, hdoc, htest⟩ := hagent.read row hheld
    obtain ⟨doc', hdoc', hkept⟩ := hkept _ doc hdoc
    exact ⟨doc', hdoc', hkept.isTest.trans htest⟩
  have hunread (haway : agent'.stance = .away) (row : WebhookDeliveryDoc)
      (hrow : agent'.stance.row = some row) :
      ∃ doc, world.deliveries.lookup row.id = some doc ∧ doc.isTest = row.isTest := by
    rw [haway] at hrow
    cases hrow
  generalize hdeliveries : world.deliveries = deliveries at hmove
  cases hmove with
  | leaves hquiet haway =>
    cases hstance : agent.stance with
    | owes row =>
      have hreleased : recordSlots who answer agent s.1 (agent', world) s.2 =
          { s.2 with released := (who, row.id) :: s.2.released } := by
        simp [recordSlots, RowStance.owed, hfails, hquiet, hstance]
      rw [hreleased]
      exact keepsSlots_release hs hagent hstance hdeliveries haway hpermits
    | _ =>
      exact hsame hquiet (by rw [hstance]; rfl) (hunread haway) (by rw [haway]; rfl)
  | @keeps _ row hquiet hheld hholds =>
    refine hsame hquiet (by rw [hheld]; rfl) (fun row' hrow => ?_) (by rw [hholds]; rfl)
    rw [hholds] at hrow
    exact hread (by rw [hheld, hrow])
  | claims hagent' hrow hdue hclaim hself hothers =>
    subst hagent'
    refine hsame rfl rfl (fun row' hrow' => ?_) rfl
    cases hrow'
    exact ⟨_, hdeliveries ▸ hself, rfl⟩
  | retries hagent' hrow hstatus =>
    subst hagent'
    refine hsame rfl rfl (fun row' hrow' => ?_) rfl
    cases hrow'
    exact ⟨_, hdeliveries ▸ hrow, rfl⟩
  | reads hagent' hrow =>
    subst hagent'
    refine hsame rfl rfl (fun row' hrow' => ?_) rfl
    cases hrow'
    exact ⟨_, hdeliveries ▸ hrow, rfl⟩
  | insertsTest hquiet hstance hnew htest hfree hself hothers =>
    exact hsame hquiet (by rw [hstance]; rfl) (fun row' hrow => nomatch hrow) rfl
  | inserts hquiet hstance haway hnew htest hfree hself hothers =>
    exact hsame hquiet (by rw [hstance]; rfl) (hunread haway) (by rw [haway]; rfl)
  | freezes hagent' =>
    subst hagent'
    refine hsame rfl rfl (fun row' hrow' => ?_) rfl
    cases hrow'
    exact hread rfl
  | writes hagent' hstance =>
    subst hagent'
    exact keepsSlots_write hfails hs hagent hstance hdeliveries hkept hpermits

/-- A move that fails. -/
theorem keepsSlots_of_fails {s : WebhookWorld × SlotHistory ι} {answer : WebhookAnswer}
    {moved : WebhookAgent × WebhookWorld} (hfails : answer.choice.fails = true)
    (hs : SlotsKept s.1.deliveries s.2) (hworld : moved.2 = s.1.wait answer.delay)
    (haway : moved.1.stance = .away)
    (hpermits : ∀ row w, moved.1.writing = some (row, w) → Permits row w) :
    KeepsSlots who s (moved.1, moved.2, recordSlots who answer agent s.1 moved s.2) := by
  have hsame : recordSlots who answer agent s.1 moved s.2 = s.2 := if_pos hfails
  rw [hsame, hworld]
  refine keepsSlots_of_same hs (fun id row hrow => ⟨row, hrow, keptRow_refl row⟩) hpermits
    (fun row hrow => ?_) (by rw [haway]; rfl)
  rw [haway] at hrow
  cases hrow

/-- One move of anyone. -/
theorem keepsSlots_move (lib : WebhookLib) {s : WebhookWorld × SlotHistory ι}
    (answer : WebhookAnswer) (hs : SlotsKept s.1.deliveries s.2)
    (hagent : OwesSlot who agent s.1.deliveries s.2) :
    KeepsSlots who s (recorded recordSlots (WebhookAgent.move lib cfg) who answer agent s) := by
  have hpermits : ∀ row w, (WebhookAgent.act lib cfg answer.choice agent
      (s.1.wait answer.delay)).1.writing = some (row, w) → Permits row w := fun _ _ => permits_act
  cases hfails : answer.choice.fails with
  | false => exact keepsSlots_of_rowMove hfails hs hagent (rowMove_act lib cfg hfails agent _) hpermits
  | true =>
    obtain ⟨hworld, haway⟩ := act_of_fails lib cfg hfails agent (s.1.wait answer.delay)
    exact keepsSlots_of_fails hfails hs hworld haway hpermits

end

theorem stance_of_idle {agent : WebhookAgent} (h : agent.Idle) :
    agent.writing = none ∧ agent.stance = .away := by
  cases agent with
  | attempt phase => cases h; exact ⟨rfl, rfl⟩
  | _ => exact ⟨rfl, rfl⟩

/-- In every run no row has its slot released twice, and one whose slot has been released is no test
and is not PENDING. -/
theorem slots_released_once [DecidableEq ι] (lib : WebhookLib) (cfg : WebhookConfig)
    (pool : Pool ι WebhookAgent (WebhookWorld × SlotHistory ι)) (events : List (ι × WebhookAnswer))
    (hidle : ∀ who, (pool.agents who).Idle) (hstart : pool.shared.2 = {}) :
    ∀ t ∈ List.scanl (Pool.step (recorded recordSlots (WebhookAgent.move lib cfg))) pool events,
      (t.shared.2.released.map (·.2)).Nodup ∧
      ∀ who id, (who, id) ∈ t.shared.2.released →
        ∃ row, t.shared.1.deliveries.lookup id = some row ∧ row.status ≠ .pending ∧
          row.isTest = false := by
  intro t ht
  have hsound : t.Sound (fun s => SlotsKept s.1.deliveries s.2)
      fun i agent s => OwesSlot i agent s.1.deliveries s.2 := by
    refine Pool.Sound.forall_mem_scanl_of_step
      (fun pool event h => keepsSlots_move lib event.2 h.shared (h.agents event.1)) ⟨?_, ?_⟩ t ht
    · rw [hstart]
      exact ⟨List.nodup_nil, fun _ _ h => (List.not_mem_nil h).elim,
        fun _ h => (List.not_mem_nil h).elim, List.nodup_nil,
        fun _ _ h => (List.not_mem_nil h).elim⟩
    · intro who
      obtain ⟨hquiet, haway⟩ := stance_of_idle (hidle who)
      constructor
      · intro row w hwriting
        rw [hquiet] at hwriting
        cases hwriting
      · intro row hrow
        rw [haway] at hrow
        cases hrow
      · intro row hrow
        rw [haway] at hrow
        cases hrow
  have hs := hsound.shared
  constructor
  · refine List.Nodup.map_on (fun x hx y hy hsame => ?_) hs.nodup
    exact List.inj_on_of_nodup_map hs.once (hs.earned x hx) (hs.earned y hy) hsame
  · intro who id hmem
    obtain ⟨row, hrow, hstatus⟩ := hs.settled who id (hs.earned _ hmem)
    obtain ⟨row', hrow', htest⟩ := hs.reserved who id hmem
    rw [hrow] at hrow'
    cases hrow'
    exact ⟨row, hrow, hstatus, htest⟩

/-- Renderers, signatures and ids that are easy to read. -/
def plainLib : WebhookLib where
  renderers flavor := some { render := fun eventId _ _ _ => flavor.name ++ " " ++ eventId }
  decryptSecret := some
  sign webhookId _ _ secret := webhookId ++ " " ++ secret
  newWebhookId n := "msg_" ++ String.ofList (Nat.toDigits 10 n)
  newEventId n := "evt_" ++ String.ofList (Nat.toDigits 10 n)
  newSecret n := "whsec_" ++ String.ofList (Nat.toDigits 10 n)
  isPublicUrl _ := true
  sample _ := .empty

/-- An endpoint that listens to everything. -/
def everyEvent : WebhookEndpointDoc :=
  { id := 1, userId := 0, url := "https://example.com/hook", events := ["*"] }

/-- A click. -/
def clickEvent : WebhookEventDoc :=
  { id := 2, eventId := "evt_2", type := "link.clicked", ownerId := 0, occurredAt := 0,
    payload := .empty }

/-- The delivery of it that is due. -/
def dueRow : WebhookDeliveryDoc :=
  { id := 3, endpointId := 1, userId := 0, eventOid := 2, eventType := "link.clicked",
    webhookId := "msg_3", nextAttemptAt := some 0 }

/-- That delivery alone is waiting. -/
def oneDue : WebhookWorld where
  endpoints := ⟨[{ everyEvent with pendingCount := some 1 }], by simp, by simp⟩
  deliveries := ⟨[dueRow], by simp, by simp⟩
  events := ⟨[clickEvent], by simp, by simp⟩
  clock := 0
  issued := 4

/-- Two executors, and no one else. -/
def twoExecutors {η : Type} (s : WebhookWorld) (h : η) : Pool Bool WebhookAgent (WebhookWorld × η) where
  agents _ := .attempt .idle
  shared := (s, h)

/-- The moves from a claim to the request, after some time. -/
def claimAndSend {ι : Type} (who : ι) (delay : Nat) : List (ι × WebhookAnswer) :=
  [(who, ⟨delay, .claim []⟩), (who, ⟨0, .go⟩), (who, ⟨0, .go⟩), (who, ⟨0, .go⟩), (who, ⟨0, .go⟩),
    (who, ⟨0, .go⟩)]

/-- A response, with nothing else to it. -/
def respondWith (statusCode : Nat) : WebhookAnswer :=
  ⟨0, .respond { statusCode := some statusCode, error := none, bodySnippet := none } 0⟩

/-- One executor outlives its lease, another delivers the row, and then the first has its answer. -/
def overrun : List (Bool × WebhookAnswer) :=
  claimAndSend true 0 ++ claimAndSend false 60000 ++
    [(false, respondWith 200), (false, ⟨0, .go⟩), (true, respondWith 410), (true, ⟨0, .go⟩),
      (false, ⟨0, .go⟩), (false, ⟨0, .go⟩)]

theorem slots_released_once_overrun :
    (∀ who, ((twoExecutors oneDue ({} : SlotHistory Bool)).agents who).Idle) ∧ ∀ t ∈ List.scanl (Pool.step (recorded recordSlots (WebhookAgent.move plainLib {})))
        (twoExecutors oneDue {}) overrun,
      (t.shared.2.released.map (·.2)).Nodup ∧
      ∀ who id, (who, id) ∈ t.shared.2.released →
        ∃ row, t.shared.1.deliveries.lookup id = some row ∧ row.status ≠ .pending ∧
          row.isTest = false :=
  ⟨fun _ => rfl, slots_released_once _ _ _ _ (fun _ => rfl) rfl⟩

end Spoo
