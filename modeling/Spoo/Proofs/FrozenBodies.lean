import Spoo.Proofs.PendingSlots

/-!
# One body for each row

The body of a delivery is stored by a compare-and-set, and whoever loses it posts what it has rendered
itself. Two requests for a row have different bodies only when a body is rendered that differs from
the stored one.
-/

namespace Spoo

open Agents Mongo.Collection

variable {ι : Type}

/-- Any two requests for one row have the same body. -/
def BodiesAgree (s : WebhookWorld) : Prop :=
  ∀ p ∈ s.posts, ∀ q ∈ s.posts, p.row = q.row → p.body = q.body

/-- Who is about to post a row that was read with a body posts that body. -/
def WebhookAgent.SendsStored : WebhookAgent → Prop
  | .attempt (.sending row _ body) => ∀ frozen ∈ row.renderedBody, body = frozen
  | _ => True

/-- The body that an agent is about to store, and its row. -/
def WebhookAgent.freezing : WebhookAgent → Option (WebhookDeliveryDoc × String)
  | .attempt (.freezing row _ body) => some (row, body)
  | _ => none

/-- Whoever stores a body finds none, or the same. -/
def FreezesOnce (pool : Pool ι WebhookAgent WebhookWorld) (event : ι × WebhookAnswer) : Prop :=
  event.2.choice.fails = false → ∀ held ∈ (pool.agents event.1).freezing,
    ∀ doc ∈ pool.shared.deliveries.lookup held.1.id, ∀ frozen ∈ doc.renderedBody, frozen = held.2

instance (s : WebhookWorld) : Decidable (BodiesAgree s) :=
  inferInstanceAs (Decidable (∀ p ∈ s.posts, ∀ q ∈ s.posts, p.row = q.row → p.body = q.body))

instance (pool : Pool ι WebhookAgent WebhookWorld) (event : ι × WebhookAnswer) :
    Decidable (FreezesOnce pool event) :=
  inferInstanceAs (Decidable (event.2.choice.fails = false →
    ∀ held ∈ (pool.agents event.1).freezing, ∀ doc ∈ pool.shared.deliveries.lookup held.1.id,
      ∀ frozen ∈ doc.renderedBody, frozen = held.2))

/-- Rows stay, with the bodies that they have. -/
def KeepsBodies (deliveries deliveries' : DeliveryStore) : Prop :=
  ∀ id doc, deliveries.lookup id = some doc → ∃ doc', deliveries'.lookup id = some doc' ∧
    ∀ body ∈ doc.renderedBody, doc'.renderedBody = some body

/-- The row is stored, with the body where there is one. -/
def HasBody (deliveries : DeliveryStore) (id : ObjectId) (body : Option String) : Prop :=
  ∃ doc, deliveries.lookup id = some doc ∧ ∀ frozen ∈ body, doc.renderedBody = some frozen

/-- What an attempt has read of a body, or will send, is stored. -/
def AttemptPhase.Frozen (deliveries : DeliveryStore) : AttemptPhase → Prop
  | .loading row => HasBody deliveries row.id row.renderedBody
  | .rendering row _ => HasBody deliveries row.id none ∧ row.renderedBody = none
  | .freezing row _ _ => HasBody deliveries row.id none ∧ row.renderedBody = none
  | .sending row _ body =>
    HasBody deliveries row.id (some body) ∧ ∀ frozen ∈ row.renderedBody, body = frozen
  | _ => True

/-- What is asserted of an agent. -/
def WebhookAgent.Frozen (deliveries : DeliveryStore) : WebhookAgent → Prop
  | .attempt phase => phase.Frozen deliveries
  | _ => True

section

variable {lib : WebhookLib} {cfg : WebhookConfig} {s : WebhookWorld} {agent agent' : WebhookAgent}
  {deliveries deliveries' : DeliveryStore}

theorem HasBody.of_keeps {id : ObjectId} {body : Option String} (h : HasBody deliveries id body)
    (hkeeps : KeepsBodies deliveries deliveries') : HasBody deliveries' id body := by
  obtain ⟨doc, hdoc, hbody⟩ := h
  obtain ⟨doc', hdoc', hkept⟩ := hkeeps id doc hdoc
  exact ⟨doc', hdoc', fun frozen hfrozen => hkept frozen (hbody frozen hfrozen)⟩

theorem hasBody_of_lookup {row : WebhookDeliveryDoc} (h : deliveries.lookup row.id = some row) :
    HasBody deliveries row.id row.renderedBody := ⟨row, h, fun _ => id⟩

theorem HasBody.none {id : ObjectId} {body : Option String} (h : HasBody deliveries id body) :
    HasBody deliveries id none := by
  obtain ⟨doc, hdoc, -⟩ := h
  exact ⟨doc, hdoc, fun frozen hfrozen => nomatch hfrozen⟩

theorem WebhookAgent.Frozen.of_keeps (h : agent.Frozen deliveries)
    (hkeeps : KeepsBodies deliveries deliveries') : agent.Frozen deliveries' := by
  cases agent with
  | attempt phase =>
    cases phase with
    | loading row => exact HasBody.of_keeps h hkeeps
    | rendering row endpoint => exact ⟨HasBody.of_keeps h.1 hkeeps, h.2⟩
    | freezing row endpoint body => exact ⟨HasBody.of_keeps h.1 hkeeps, h.2⟩
    | sending row endpoint body => exact ⟨HasBody.of_keeps h.1 hkeeps, h.2⟩
    | _ => trivial
  | _ => trivial

theorem WebhookAgent.Frozen.sendsStored (h : agent.Frozen deliveries) : agent.SendsStored := by
  cases agent with
  | attempt phase =>
    cases phase with
    | sending row endpoint body => exact h.2
    | _ => trivial
  | _ => trivial

theorem RowMove.keepsBodies (hmove : RowMove cfg s agent agent' deliveries) :
    KeepsBodies s.deliveries deliveries := by
  intro id doc hdoc
  obtain ⟨doc', hdoc', hchange⟩ := hmove.exists_change hdoc
  refine ⟨doc', hdoc', fun body hbody => ?_⟩
  cases hchange with
  | same => exact hbody
  | claimed => exact hbody
  | frozen =>
    show some (doc.renderedBody.getD _) = some body
    rw [show doc.renderedBody = some body from hbody]
    rfl
  | @written _ w => cases w <;> exact hbody

/-- The own moves of an attempt. -/
theorem frozen_move {choice : WebhookChoice} {phase : AttemptPhase} (h : phase.Frozen s.deliveries)
    (honce : ∀ row endpoint body, phase = .freezing row endpoint body →
      ∀ doc, s.deliveries.lookup row.id = some doc → ∀ frozen ∈ doc.renderedBody, frozen = body) :
    (DeliveryExecutor.move lib cfg choice phase s).1.Frozen
      (DeliveryExecutor.move lib cfg choice phase s).2.deliveries := by
  cases phase with
  | idle => cases choice <;> trivial
  | claiming excludeEndpoints now =>
    simp only [DeliveryExecutor.move]
    rcases WebhookDeliveryRepository.claimDue_cases s.deliveries cfg.leaseSeconds excludeEndpoints
      now with hnone | ⟨row, deliveries, -, -, hclaim, hself, -⟩
    · rw [hnone]
      trivial
    · rw [hclaim]
      exact hasBody_of_lookup hself
  | checking endpointId deliveryId userId =>
    simp only [DeliveryExecutor.move]
    split <;> trivial
  | retrying endpointId deliveryId userId =>
    simp only [DeliveryExecutor.move]
    split
    · trivial
    · rename_i row hrow
      obtain ⟨hrow, -⟩ := Option.filter_eq_some_iff.1 hrow
      have hid : row.id = deliveryId := (lookup_eq_some_iff.1 hrow).2
      exact hasBody_of_lookup (hid ▸ hrow)
  | testing endpointId userId eventType =>
    simp only [DeliveryExecutor.move]
    split
    · trivial
    · split <;> trivial
  | testEvent endpoint eventType =>
    simp only [DeliveryExecutor.move]
    split <;> trivial
  | testRow endpoint eventType eventOid =>
    simp only [DeliveryExecutor.move]
    split <;> trivial
  | testLoading deliveryId =>
    simp only [DeliveryExecutor.move]
    split
    · trivial
    · rename_i row hrow
      have hid : row.id = deliveryId := (lookup_eq_some_iff.1 hrow).2
      exact hasBody_of_lookup (hid ▸ hrow)
  | loading row =>
    simp only [DeliveryExecutor.move]
    split
    · trivial
    · split_ifs
      · trivial
      · trivial
      · split
        · rename_i body hbody
          have hread : HasBody s.deliveries row.id (some body) := hbody ▸ h
          exact ⟨hread, fun frozen hfrozen => Option.some.inj (hbody.symm.trans hfrozen)⟩
        · rename_i hbody
          exact ⟨HasBody.none h, hbody⟩
  | rendering row endpoint =>
    simp only [DeliveryExecutor.move]
    split
    · trivial
    · exact h
  | freezing row endpoint body =>
    obtain ⟨⟨doc, hdoc, -⟩, hread⟩ := h
    refine ⟨⟨_, WebhookDeliveryRepository.lookup_setRenderedBody_self hdoc body, ?_⟩,
      fun frozen hfrozen => by simp [hread] at hfrozen⟩
    intro sent hsent
    obtain rfl : body = sent := Option.mem_some_iff.1 hsent
    cases hbody : doc.renderedBody with
    | none => rfl
    | some frozen => exact congrArg some (honce row endpoint body rfl doc hdoc frozen hbody)
  | sending row endpoint body =>
    simp only [DeliveryExecutor.move]
    split <;> trivial
  | awaiting row endpoint body =>
    cases choice with
    | respond result durationMs =>
      obtain ⟨w, after, hwriting⟩ := exists_of_outcome row result durationMs s.clock
      simp only [DeliveryExecutor.move, hwriting]
      trivial
    | _ => trivial
  | writing row w after =>
    simp only [DeliveryExecutor.move]
    split
    · trivial
    · cases after <;> trivial
  | releasing row after => cases after <;> trivial
  | healing endpointId health =>
    cases health with
    | exhausted failure =>
      simp only [DeliveryExecutor.move]
      split_ifs <;> trivial
    | _ => trivial

theorem posts_dispatch (home : Nat) (choice : WebhookChoice) (phase : DispatchPhase)
    (s : WebhookWorld) : (WebhookDispatcher.move lib cfg home choice phase s).2.posts = s.posts := by
  cases phase with
  | idle => cases choice <;> rfl
  | matching event =>
    cases choice with
    | unreachable => rfl
    | _ =>
      simp only [WebhookDispatcher.move]
      split_ifs <;> rfl
  | finding event cached =>
    simp only [WebhookDispatcher.move]
    split_ifs <;> rfl
  | caching event endpoints => cases choice <;> rfl
  | recording event endpoints =>
    simp only [WebhookDispatcher.move]
    split
    · rfl
    · rename_i hinsert
      obtain ⟨events, -, heq⟩ := Option.map_eq_some_iff.1 hinsert
      cases heq
      rfl
  | reserving d endpoint rest =>
    simp only [WebhookDispatcher.move]
    split
    · rfl
    · split_ifs <;> rfl
  | reserveAgain d endpoint rest =>
    simp only [WebhookDispatcher.move]
    split <;> rfl
  | storing d =>
    simp only [WebhookDispatcher.move]
    split
    · rfl
    · split
      · rfl
      · rename_i hinsert
        obtain ⟨deliveries, -, heq⟩ := Option.map_eq_some_iff.1 hinsert
        cases heq
        rfl
  | _ => rfl

variable (lib cfg)

/-- The requests that have gone out: a move makes one at most, with the body that it has come to. -/
theorem posts_attempt (choice : WebhookChoice) (phase : AttemptPhase) (s : WebhookWorld) :
    (DeliveryExecutor.move lib cfg choice phase s).2.posts = s.posts ∨
      ∃ row endpoint post, phase = .sending row endpoint post.body ∧ post.row = row.id ∧
        (DeliveryExecutor.move lib cfg choice phase s).2.posts = post :: s.posts := by
  cases phase with
  | idle => cases choice <;> exact .inl rfl
  | claiming excludeEndpoints now =>
    simp only [DeliveryExecutor.move]
    split <;> exact .inl rfl
  | checking endpointId deliveryId userId =>
    simp only [DeliveryExecutor.move]
    split <;> exact .inl rfl
  | retrying endpointId deliveryId userId =>
    simp only [DeliveryExecutor.move]
    split <;> exact .inl rfl
  | testing endpointId userId eventType =>
    simp only [DeliveryExecutor.move]
    split
    · exact .inl rfl
    · split <;> exact .inl rfl
  | testEvent endpoint eventType =>
    simp only [DeliveryExecutor.move]
    split
    · exact .inl rfl
    · rename_i hinsert
      obtain ⟨events, -, heq⟩ := Option.map_eq_some_iff.1 hinsert
      cases heq
      exact .inl rfl
  | testRow endpoint eventType eventOid =>
    simp only [DeliveryExecutor.move]
    split
    · exact .inl rfl
    · rename_i hinsert
      obtain ⟨deliveries, -, heq⟩ := Option.map_eq_some_iff.1 hinsert
      cases heq
      exact .inl rfl
  | testLoading deliveryId =>
    simp only [DeliveryExecutor.move]
    split <;> exact .inl rfl
  | loading row =>
    simp only [DeliveryExecutor.move]
    split
    · exact .inl rfl
    · split_ifs
      · exact .inl rfl
      · exact .inl rfl
      · split <;> exact .inl rfl
  | rendering row endpoint =>
    simp only [DeliveryExecutor.move]
    split <;> exact .inl rfl
  | sending row endpoint body =>
    simp only [DeliveryExecutor.move]
    split
    · exact .inl rfl
    · exact .inr ⟨row, endpoint, _, rfl, rfl, rfl⟩
  | awaiting row endpoint body => cases choice <;> exact .inl rfl
  | healing endpointId health =>
    cases health with
    | exhausted failure => exact .inl rfl
    | _ => exact .inl rfl
  | _ => exact .inl rfl

theorem posts_act (choice : WebhookChoice) (agent : WebhookAgent) (s : WebhookWorld) :
    (WebhookAgent.act lib cfg choice agent s).2.posts = s.posts ∨
      ∃ row endpoint post, agent = .attempt (.sending row endpoint post.body) ∧
        post.row = row.id ∧ (WebhookAgent.act lib cfg choice agent s).2.posts = post :: s.posts := by
  cases agent with
  | attempt phase =>
    have hmove := posts_attempt lib cfg choice phase s
    cases choice with
    | fail => exact .inl rfl
    | _ =>
      rcases hmove with hsame | ⟨row, endpoint, post, hphase, hrow, hposts⟩
      · exact .inl hsame
      · exact .inr ⟨row, endpoint, post, by rw [hphase], hrow, hposts⟩
  | dispatch home phase =>
    left
    cases choice with
    | fail => rfl
    | _ => exact posts_dispatch home _ phase s
  | owner phase =>
    left
    cases choice with
    | fail => rfl
    | _ => exact (frame_owner _ phase s).2
  | janitor => left; cases choice <;> rfl

/-- A move of anyone keeps the bodies. -/
theorem keepsBodies_act (choice : WebhookChoice) (agent : WebhookAgent) (s : WebhookWorld) :
    KeepsBodies s.deliveries (WebhookAgent.act lib cfg choice agent s).2.deliveries := by
  cases hfails : choice.fails with
  | true =>
    obtain ⟨hworld, -⟩ := act_of_fails lib cfg hfails agent s
    rw [hworld]
    exact fun id doc hdoc => ⟨doc, hdoc, fun _ hbody => hbody⟩
  | false => exact (rowMove_act lib cfg hfails agent s).keepsBodies

theorem frozen_act {choice : WebhookChoice} (h : agent.Frozen s.deliveries)
    (honce : choice.fails = false → ∀ row endpoint body,
      agent = .attempt (.freezing row endpoint body) →
      ∀ doc, s.deliveries.lookup row.id = some doc → ∀ frozen ∈ doc.renderedBody, frozen = body) :
    (WebhookAgent.act lib cfg choice agent s).1.Frozen
      (WebhookAgent.act lib cfg choice agent s).2.deliveries := by
  cases agent with
  | attempt phase =>
    cases choice with
    | fail => trivial
    | _ =>
      refine frozen_move h fun row endpoint body hphase => honce rfl row endpoint body ?_
      rw [hphase]
  | dispatch home phase => cases choice <;> trivial
  | owner phase => cases choice <;> trivial
  | janitor => trivial

end

/-! ## Runs -/

section

variable [DecidableEq ι] {lib : WebhookLib} {cfg : WebhookConfig}
  {pool : Pool ι WebhookAgent WebhookWorld} {event : ι × WebhookAnswer}

/-- What is kept: the body of every request is the one that is stored. -/
abbrev BodiesStored (pool : Pool ι WebhookAgent WebhookWorld) : Prop :=
  pool.Sound (fun s => ∀ p ∈ s.posts, HasBody s.deliveries p.row (some p.body))
    fun _ agent s => agent.Frozen s.deliveries

theorem bodiesStored_step (h : BodiesStored pool) (hguard : FreezesOnce pool event) :
    BodiesStored (pool.step (WebhookAgent.move lib cfg) event) := by
  have hkeeps := keepsBodies_act lib cfg event.2.choice (pool.agents event.1)
    (pool.shared.wait event.2.delay)
  have honce : event.2.choice.fails = false → ∀ row endpoint body,
      pool.agents event.1 = .attempt (.freezing row endpoint body) →
      ∀ doc, pool.shared.deliveries.lookup row.id = some doc →
        ∀ frozen ∈ doc.renderedBody, frozen = body := by
    intro hfails row endpoint body hagent
    exact hguard hfails (row, body) (by rw [hagent]; rfl)
  refine h.step ⟨fun p hp => ?_, frozen_act lib cfg (h.agents event.1) honce,
    fun _ _ _ hother => hother.of_keeps hkeeps⟩
  rcases posts_act lib cfg event.2.choice (pool.agents event.1) (pool.shared.wait event.2.delay) with
    hsame | ⟨row, endpoint, post, hagent, hrow, hposts⟩
  · exact (h.shared p (hsame ▸ hp)).of_keeps hkeeps
  · replace hp : p ∈ post :: pool.shared.posts := hposts ▸ hp
    rcases List.mem_cons.1 hp with rfl | hold
    · have hsent : (pool.agents event.1).Frozen pool.shared.deliveries := h.agents event.1
      rw [hagent] at hsent
      rw [hrow]
      exact HasBody.of_keeps hsent.1 hkeeps
    · exact (h.shared p hold).of_keeps hkeeps

end

/-- In a run in which whoever stores a body finds none, or the same, any two requests for one row have
the same body, and a row that is read with a body is posted with it. -/
theorem bodies_agree [DecidableEq ι] (lib : WebhookLib) (cfg : WebhookConfig)
    (pool : Pool ι WebhookAgent WebhookWorld) (events : List (ι × WebhookAnswer))
    (hidle : ∀ who, (pool.agents who).Idle) (hposts : pool.shared.posts = [])
    (honce : Run.Guarded (Pool.step (WebhookAgent.move lib cfg)) FreezesOnce pool events) :
    ∀ t ∈ List.scanl (Pool.step (WebhookAgent.move lib cfg)) pool events,
      BodiesAgree t.shared ∧ ∀ who, (t.agents who).SendsStored := by
  intro t ht
  have hstored : BodiesStored t := by
    refine Run.forall_mem_scanl (fun pool event => bodiesStored_step) ⟨?_, fun who => ?_⟩ honce t ht
    · rw [hposts]
      exact fun p hp => (List.not_mem_nil hp).elim
    · cases hagent : pool.agents who with
      | attempt phase =>
        have hphase : phase = .idle := by simpa [hagent, WebhookAgent.Idle] using hidle who
        rw [hphase]
        trivial
      | _ => trivial
  refine ⟨fun p hp q hq hrow => ?_, fun who => (hstored.agents who).sendsStored⟩
  obtain ⟨doc, hdoc, hbody⟩ := hstored.shared p hp
  obtain ⟨doc', hdoc', hbody'⟩ := hstored.shared q hq
  rw [← hrow, hdoc] at hdoc'
  cases hdoc'
  exact Option.some.inj ((hbody p.body rfl).symm.trans (hbody' q.body rfl))

/-- Two executors and the owner of the endpoint. -/
def executorsAndOwner : Pool Nat WebhookAgent WebhookWorld where
  agents who := if who = 2 then .owner .idle else .attempt .idle
  shared := oneDue

/-- The owner turns to another flavour. -/
def flavorEdit : List (Nat × WebhookAnswer) :=
  [(2, ⟨0, .update 1 0 { flavor := some .slack }⟩), (2, ⟨0, .go⟩), (2, ⟨0, .go⟩), (2, ⟨0, .go⟩)]

/-- The first executor is answered 503, the owner turns to another flavour, and the second executor
tries again. -/
def editedBetween : List (Nat × WebhookAnswer) :=
  claimAndSend 0 0 ++ [(0, respondWith 503), (0, ⟨0, .go⟩)] ++ flavorEdit ++
    [(1, ⟨5000, .claim []⟩), (1, ⟨0, .go⟩), (1, ⟨0, .go⟩), (1, ⟨0, .go⟩)]

/-- Both requests go out, with the body of the first. -/
theorem bodies_agree_failsOnce :
    ((editedBetween.foldl (Pool.step (WebhookAgent.move plainLib {})) executorsAndOwner).shared.posts.map
        (·.row)) = [dueRow.id, dueRow.id] ∧
      ∀ t ∈ List.scanl (Pool.step (WebhookAgent.move plainLib {})) executorsAndOwner editedBetween,
        BodiesAgree t.shared ∧ ∀ who, (t.agents who).SendsStored := by
  refine ⟨by decide +kernel, bodies_agree _ _ _ _ (fun who => ?_) rfl (by decide +kernel)⟩
  unfold executorsAndOwner
  dsimp only
  split <;> rfl

/-- The first executor has rendered the body when it stalls. The owner turns to another flavour, the
second executor claims the row and sends it, and then the first goes on. -/
def flavorChanges : List (Nat × WebhookAnswer) :=
  [(0, ⟨0, .claim []⟩), (0, ⟨0, .go⟩), (0, ⟨0, .go⟩), (0, ⟨0, .go⟩),
    (2, ⟨60000, .update 1 0 { flavor := some .slack }⟩), (2, ⟨0, .go⟩), (2, ⟨0, .go⟩),
    (2, ⟨0, .go⟩), (1, ⟨0, .claim []⟩), (1, ⟨0, .go⟩), (1, ⟨0, .go⟩), (1, ⟨0, .go⟩), (1, ⟨0, .go⟩),
    (1, ⟨0, .go⟩), (0, ⟨0, .go⟩), (0, ⟨0, .go⟩)]

/-- Two requests for the row have two bodies. -/
theorem bodies_differ_flavorChanges :
    ∃ t ∈ List.scanl (Pool.step (WebhookAgent.move plainLib {})) executorsAndOwner flavorChanges,
      ¬ BodiesAgree t.shared :=
  ⟨flavorChanges.foldl (Pool.step (WebhookAgent.move plainLib {})) executorsAndOwner,
    by simp [flavorChanges], by decide +kernel⟩

end Spoo
