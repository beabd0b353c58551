import Spoo.Services.CustomDomainService

/-!
# What a call does to the custom domains

A move of a call leaves the collection alone, inserts a pending document, removes one, writes a status or edits other
fields. `_transition` and its callers check a status that was read before the DNS and edge calls, and the write does
not look again. A change is legal exactly when the status that was read still stands, or what stands instead does not
mind. `assert_owned_and_active` takes the first document of a name, and a name can have several: those that were
revoked stay until they are removed. It lets the owner of the active one pass exactly when that one is the first, which
is decided when it becomes active.
-/

namespace Spoo

open Agents Mongo Mongo.Collection CustomDomainRepository CustomDomainService

section

/-- A write of a status that takes effect: what the call has read, what it writes, and the document
that is stored. -/
structure DomainWrite where
  read : CustomDomainDoc
  newStatus : DomainStatus
  stored : CustomDomainDoc
  deriving DecidableEq

/-- The write of a status that a move makes, on the collection as it is. -/
def domainWrite (choice : DomainChoice) (phase : DomainPhase) (domains : DomainStore) :
    Option DomainWrite :=
  match phase with
  | .writing read newStatus _ _ _ =>
    if choice = .failBefore then none
    else ((domains.lookup read.id).filter fun stored => !nameTaken domains stored newStatus).map
      fun stored => ⟨read, newStatus, stored⟩
  | _ => none

/-- What a move can do. -/
inductive DomainMoved (s : DomainWorld) (choice : DomainChoice) (phase : DomainPhase) :
    DomainWorld → Prop
  | rests (hphase : domainWrite choice phase s.domains = none) : DomainMoved s choice phase s
  | inserts (doc : CustomDomainDoc) (domains : DomainStore)
      (hphase : domainWrite choice phase s.domains = none) (hid : doc.id = s.issued)
      (hstatus : doc.status = .pending) (hinsert : s.domains.insertOne doc = some domains) :
      DomainMoved s choice phase { s with domains, issued := s.issued + 1 }
  | deletes (domainId : ObjectId) (hphase : domainWrite choice phase s.domains = none) :
      DomainMoved s choice phase { s with domains := (deleteById s.domains domainId).2 }
  | edits (domainId : ObjectId) (u : KeyedUpdate CustomDomainDoc)
      (hphase : domainWrite choice phase s.domains = none)
      (hsame : ∀ doc, (u.apply doc).status = doc.status ∧ (u.apply doc).fqdn = doc.fqdn ∧
        (u.apply doc).ownerId = doc.ownerId) :
      DomainMoved s choice phase { s with domains := s.domains.updateOne domainId (fun _ => true) u }
  | writes (read : CustomDomainDoc) (newStatus : DomainStatus) (error : Option String) (bump : Bool)
      (goal : StatusGoal) (domains : DomainStore)
      (hphase : phase = .writing read newStatus error bump goal) (hchoice : choice ≠ .failBefore)
      (hwrite : updateStatus s.domains read.id newStatus error bump s.clock = some domains) :
      DomainMoved s choice phase { s with domains }

section

variable {cfg : DomainConfig} {s : DomainWorld} {answer : DomainAnswer} {phase : DomainPhase}

theorem domainWrite_of_refused {read : CustomDomainDoc} {newStatus : DomainStatus}
    {error : Option String} {bump : Bool} {goal : StatusGoal}
    (h : updateStatus s.domains read.id newStatus error bump s.clock = none) (choice : DomainChoice) :
    domainWrite choice (.writing read newStatus error bump goal) s.domains = none := by
  rw [domainWrite]
  split
  · rfl
  · rw [Option.map_eq_none_iff, Option.filter_eq_none_iff]
    intro stored hstored hfree
    have hsome : (updateStatus s.domains read.id newStatus error bump s.clock).isSome = true :=
      (isSome_updateStatus_iff hstored).2 (by simpa using hfree)
    simp [h] at hsome

/-- A call that is not in the middle of anything reads and writes nothing. -/
theorem move_idle (last : Option DomainOutcome) :
    (CustomDomainService.move cfg answer (.idle last) s).2 = s := by
  obtain ⟨delay, choice, outside⟩ := answer
  cases choice with
  | create fqdn user =>
    simp only [CustomDomainService.move]
    split_ifs
    · rfl
    · split <;> rfl
    · split <;> rfl
  | call domainId call =>
    cases call <;> simp only [CustomDomainService.move] <;> split_ifs <;> rfl
  | _ => rfl

theorem domainMoved_inserting (fqdn : String) (user : ObjectId) (method : VerificationMethod) :
    DomainMoved s answer.choice (.inserting fqdn user method)
      (CustomDomainService.move cfg answer (.inserting fqdn user method) s).2 := by
  simp only [CustomDomainService.move]
  split
  · exact .rests rfl
  · rename_i domains hinsert
    exact .inserts _ domains rfl rfl rfl hinsert

theorem domainMoved_writing (hchoice : answer.choice ≠ .failBefore) (read : CustomDomainDoc)
    (newStatus : DomainStatus) (error : Option String) (bump : Bool) (goal : StatusGoal) :
    DomainMoved s answer.choice (.writing read newStatus error bump goal)
      (CustomDomainService.move cfg answer (.writing read newStatus error bump goal) s).2 := by
  simp only [CustomDomainService.move]
  split
  · rename_i hrefused
    exact .rests (domainWrite_of_refused hrefused answer.choice)
  · rename_i domains hwrite
    exact .writes read newStatus error bump goal domains rfl hchoice hwrite

theorem domainMoved_routing (doc : CustomDomainDoc) (ops : RoutingOps) :
    DomainMoved s answer.choice (.routing doc ops)
      (CustomDomainService.move cfg answer (.routing doc ops) s).2 := by
  simp only [CustomDomainService.move, updateRouting]
  by_cases hops : ops = {}
  · simp only [if_pos hops, Bool.false_eq_true, if_false]
    exact .rests rfl
  · simp only [if_neg hops]
    split_ifs <;> exact .edits doc.id _ rfl fun _ => ⟨rfl, rfl, rfl⟩

/-- A call that does not lose its access before it takes effect. -/
theorem domainMoved_move (hchoice : answer.choice ≠ .failBefore) :
    DomainMoved s answer.choice phase (CustomDomainService.move cfg answer phase s).2 := by
  cases phase with
  | idle last =>
    rw [move_idle]
    exact .rests rfl
  | inserting fqdn user method => exact domainMoved_inserting fqdn user method
  | writing read newStatus error bump goal => exact domainMoved_writing hchoice read newStatus error bump goal
  | routing doc ops => exact domainMoved_routing doc ops
  | rollingBack domainId => exact .deletes domainId rfl
  | removing doc =>
    simp only [CustomDomainService.move]
    split_ifs <;> exact .deletes doc.id rfl
  | evicting doc goal => exact .edits doc.id _ rfl fun _ => ⟨rfl, rfl, rfl⟩
  | checking fqdn user =>
    simp only [CustomDomainService.move]
    split_ifs <;> exact .rests rfl
  | counting fqdn user =>
    simp only [CustomDomainService.move]
    split_ifs <;> exact .rests rfl
  | registering domainId =>
    simp only [CustomDomainService.move]
    split_ifs <;> exact .rests rfl
  | reloading domainId =>
    simp only [CustomDomainService.move]
    split <;> exact .rests rfl
  | loading domainId call =>
    simp only [CustomDomainService.move]
    split <;> exact .rests rfl
  | probing doc => exact .rests rfl
  | refreshing doc strict =>
    simp only [CustomDomainService.move]
    split <;> exact .rests rfl
  | sweeping limit => exact .rests rfl
  | reverifying rest results =>
    cases rest with
    | nil => exact .rests rfl
    | cons doc rest =>
      simp only [CustomDomainService.move]
      split_ifs <;> exact .rests rfl

/-- A move of a call, with the failures of its access. -/
theorem domainMoved_act : DomainMoved s answer.choice phase (act cfg answer phase s).2 := by
  obtain ⟨delay, choice, outside⟩ := answer
  cases choice with
  | failBefore =>
    refine .rests ?_
    cases phase <;> rfl
  | failAfter => exact domainMoved_move (by simp)
  | _ => exact domainMoved_move (by simp)

/-- A move of the system. -/
theorem domainMoved_phase {ι : Type} (cfg : DomainConfig) (who : ι) (answer : DomainAnswer)
    (phase : DomainPhase) (s : DomainWorld) : DomainMoved (s.wait answer.delay) answer.choice phase
      (DomainPhase.move cfg who answer phase s).2 := domainMoved_act

/-- The write of a status is that of its phase, and the index lets it pass. -/
theorem mem_domainWrite {choice : DomainChoice} {domains : DomainStore} {write : DomainWrite} :
    write ∈ domainWrite choice phase domains ↔
      choice ≠ .failBefore ∧ domains.lookup write.read.id = some write.stored ∧
        nameTaken domains write.stored write.newStatus = false ∧
        ∃ error bump goal, phase = .writing write.read write.newStatus error bump goal := by
  obtain ⟨read, newStatus, stored⟩ := write
  cases phase with
  | writing read' newStatus' error bump goal =>
    simp only [domainWrite, DomainPhase.writing.injEq]
    split_ifs with hfail
    · simp [hfail]
    · simp only [Option.mem_def, Option.map_eq_some_iff, Option.filter_eq_some_iff, DomainWrite.mk.injEq]
      constructor
      · rintro ⟨found, ⟨hfound, hfree⟩, rfl, rfl, rfl⟩
        exact ⟨hfail, hfound, by simpa using hfree, error, bump, goal, rfl, rfl, rfl, rfl, rfl⟩
      · rintro ⟨-, hfound, hfree, _, _, _, rfl, rfl, -⟩
        exact ⟨stored, ⟨hfound, by simpa using hfree⟩, rfl, rfl, rfl⟩
  | _ => simp [domainWrite]

/-- A stored document keeps its status, unless its status is what the move writes. -/
theorem DomainMoved.status_eq_or {choice : DomainChoice} {s' : DomainWorld}
    (hm : DomainMoved s choice phase s') {domainId : ObjectId} {doc now : CustomDomainDoc}
    (hdoc : s.domains.lookup domainId = some doc) (hnow : s'.domains.lookup domainId = some now) :
    now.status = doc.status ∨
      ∃ write ∈ domainWrite choice phase s.domains, write.stored = doc ∧ now.status = write.newStatus := by
  cases hm with
  | rests =>
    rw [hdoc] at hnow
    cases hnow
    exact .inl rfl
  | inserts new domains _ _ _ hinsert =>
    rw [lookup_insertOne hinsert, hdoc, Option.some_or] at hnow
    cases hnow
    exact .inl rfl
  | deletes deleted =>
    simp only [deleteById, lookup_deleteMany, hdoc, Option.filter_eq_some_iff, Option.some.injEq] at hnow
    exact .inl (hnow.1 ▸ rfl)
  | edits edited u _ hsame =>
    by_cases hid : domainId = edited
    · subst hid
      simp only [lookup_updateOne_self, hdoc, Option.map_some, Option.some.injEq] at hnow
      subst hnow
      exact .inl (hsame doc).1
    · simp only [lookup_updateOne_of_ne _ _ _ hid, hdoc, Option.some.injEq] at hnow
      exact .inl (hnow ▸ rfl)
  | writes read newStatus error bump goal domains hphase hchoice hwrite =>
    by_cases hid : domainId = read.id
    · subst hid
      rw [lookup_updateStatus_self hwrite, hdoc] at hnow
      cases hnow
      have hfree := (isSome_updateStatus_iff hdoc).1 (Option.isSome_of_mem hwrite)
      exact .inr ⟨⟨read, newStatus, doc⟩,
        mem_domainWrite.2 ⟨hchoice, hdoc, hfree, error, bump, goal, hphase⟩, rfl, rfl⟩
    · rw [lookup_updateStatus_of_ne hwrite hid, hdoc] at hnow
      cases hnow
      exact .inl rfl

/-- What a move writes is stored after it. -/
theorem DomainMoved.exists_of_domainWrite {choice : DomainChoice} {s' : DomainWorld}
    (hm : DomainMoved s choice phase s') {write : DomainWrite}
    (hwrite : write ∈ domainWrite choice phase s.domains) :
    ∃ now, s'.domains.lookup write.read.id = some now ∧ now.status = write.newStatus := by
  cases hm with
  | rests hphase => simp [hphase] at hwrite
  | inserts _ _ hphase => simp [hphase] at hwrite
  | deletes _ hphase => simp [hphase] at hwrite
  | edits _ _ hphase => simp [hphase] at hwrite
  | writes read newStatus error bump goal domains hphase hchoice hupdate =>
    obtain ⟨-, hstored, -, _, _, _, hsame⟩ := mem_domainWrite.1 hwrite
    rw [hphase] at hsame
    obtain ⟨rfl, rfl, -⟩ := DomainPhase.writing.inj hsame
    refine ⟨(statusOps write.newStatus error bump s.clock).apply write.stored, ?_, rfl⟩
    rw [lookup_updateStatus_self hupdate, hstored]
    rfl

/-- What is stored after a move is stored before it, or has the next id. -/
theorem DomainMoved.id_eq_of_new {choice : DomainChoice} {s' : DomainWorld}
    (hm : DomainMoved s choice phase s') {domainId : ObjectId} (hnone : s.domains.lookup domainId = none)
    (hsome : (s'.domains.lookup domainId).isSome = true) :
    domainId = s.issued ∧ s'.issued = s.issued + 1 := by
  cases hm with
  | rests => simp [hnone] at hsome
  | inserts new domains _ hid _ hinsert =>
    rw [lookup_insertOne hinsert, hnone, Option.none_or] at hsome
    split at hsome
    · rename_i hnew
      exact ⟨hnew ▸ hid, rfl⟩
    · cases hsome
  | deletes deleted => simp [deleteById, lookup_deleteMany, hnone] at hsome
  | edits edited u =>
    by_cases hid : domainId = edited
    · subst hid
      simp [lookup_updateOne_self, hnone] at hsome
    · simp [lookup_updateOne_of_ne _ _ _ hid, hnone] at hsome
  | writes read newStatus error bump goal domains hphase hchoice hupdate =>
    by_cases hid : domainId = read.id
    · subst hid
      simp [lookup_updateStatus_self hupdate, hnone] at hsome
    · simp [lookup_updateStatus_of_ne hupdate hid, hnone] at hsome

theorem DomainMoved.issued_le {choice : DomainChoice} {s' : DomainWorld}
    (hm : DomainMoved s choice phase s') : s.issued ≤ s'.issued := by
  cases hm with
  | inserts => exact Nat.le_succ _
  | _ => exact Nat.le_refl _

end

/-! ## Changes of a domain's status -/

variable {ι : Type}

/-- A change of the status of a stored document. -/
structure StatusChange where
  domainId : ObjectId
  before : DomainStatus
  after : DomainStatus
  deriving DecidableEq

/-- The documents whose status is another one than before. -/
def statusChanges (before after : DomainStore) : List StatusChange :=
  before.docs.filterMap fun doc => ((after.lookup doc.id).filter (·.status ≠ doc.status)).map
    fun now => ⟨doc.id, doc.status, now.status⟩

/-- What a move adds to the changes. -/
def recordStatuses (_ : ι) (_ : DomainAnswer) (_ : DomainPhase) (s : DomainWorld)
    (moved : DomainPhase × DomainWorld) (changes : List StatusChange) : List StatusChange :=
  statusChanges s.domains moved.2.domains ++ changes

/-- The changes are in `LEGAL_TRANSITIONS`, and a document that was revoked is revoked. -/
structure StatusesKept (s : DomainWorld × List StatusChange) : Prop where
  legal : ∀ change ∈ s.2, change.after ∈ legalTransitions change.before
  terminal : ∀ change ∈ s.2, change.after = .revoked →
    ∀ doc ∈ s.1.domains.lookup change.domainId, doc.status = .revoked

instance (s : DomainWorld × List StatusChange) : Decidable (StatusesKept s) :=
  decidable_of_iff ((∀ change ∈ s.2, change.after ∈ legalTransitions change.before) ∧
    ∀ change ∈ s.2, change.after = .revoked →
      ∀ doc ∈ s.1.domains.lookup change.domainId, doc.status = .revoked)
    ⟨fun h => ⟨h.1, h.2⟩, fun h => ⟨h.legal, h.terminal⟩⟩

/-- What may stand where a status is written, whatever the call has read. -/
def sparedBy : DomainStatus → List DomainStatus
  | .pending => [.pending, .verifying]
  | .verifying => [.verifying]
  | .active => [.pending, .verifying, .active, .suspended]
  | .suspended => [.active, .suspended]
  | .revoked => [.pending, .verifying, .active, .suspended, .revoked]

/-- What the call has read still stands, or what stands instead is spared. -/
def ReadStands (choice : DomainChoice) (phase : DomainPhase) (domains : DomainStore) : Prop :=
  ∀ write ∈ domainWrite choice phase domains,
    write.stored.status = write.read.status ∨ write.stored.status ∈ sparedBy write.newStatus

/-- The same for the move of an event. -/
def ReadsStand (pool : Pool ι DomainPhase (DomainWorld × List StatusChange))
    (event : ι × DomainAnswer) : Prop :=
  ReadStands event.2.choice (pool.agents event.1) pool.shared.1.domains

instance (pool : Pool ι DomainPhase (DomainWorld × List StatusChange)) (event : ι × DomainAnswer) :
    Decidable (ReadsStand pool event) :=
  inferInstanceAs (Decidable (∀ write ∈ domainWrite event.2.choice _ _, _ ∨ _))

theorem mem_sparedBy {stored newStatus : DomainStatus} :
    stored ∈ sparedBy newStatus ↔ newStatus = stored ∨ newStatus ∈ legalTransitions stored := by
  cases stored <;> cases newStatus <;> decide

/-! ## What a call is about to write -/

/-- A write of a status was checked against the status that was read, and what is verified again was
active. -/
def DomainPhase.Checked : DomainPhase → Prop
  | .writing read newStatus _ _ goal =>
    (read.status = newStatus ∨ newStatus ∈ legalTransitions read.status) ∧
      ∀ rest results, goal = .reverify rest results → ∀ doc ∈ rest, doc.status = .active
  | .reverifying rest _ => ∀ doc ∈ rest, doc.status = .active
  | _ => True

theorem checked_transition (doc : CustomDomainDoc) (newStatus : DomainStatus) (error : Option String)
    (bump : Bool) {goal : StatusGoal} (hgoal : ∀ rest results, goal ≠ .reverify rest results) :
    (transition doc newStatus error bump goal).Checked := by
  have hrest : ∀ rest results, goal = .reverify rest results → ∀ doc ∈ rest, doc.status = .active :=
    fun rest results heq => absurd heq (hgoal rest results)
  unfold transition
  split_ifs with hsame hlegal
  · exact ⟨.inl hsame, hrest⟩
  · exact ⟨.inr hlegal, hrest⟩
  · exact trivial

theorem checked_dispatch (call : DomainCall) (doc : CustomDomainDoc) : (dispatch call doc).Checked := by
  cases call with
  | suspend reason => exact checked_transition doc .suspended (some reason) false (by simp)
  | delete user =>
    simp only [dispatch]
    split_ifs
    · exact trivial
    · exact checked_transition doc .revoked none false (by simp)
  | _ => simp only [dispatch]; split_ifs <;> exact trivial

theorem checked_probe (cfg : DomainConfig) (outside : DomainOutside) (doc : CustomDomainDoc) :
    (probe cfg outside doc).Checked := by
  simp only [probe]
  split_ifs
  · exact trivial
  · exact ⟨.inl rfl, by simp⟩
  · exact checked_transition doc .active none true (by simp)
  · exact ⟨.inl rfl, by simp⟩
  · exact trivial

theorem checked_afterWrite (doc : CustomDomainDoc) {goal : StatusGoal}
    (hgoal : ∀ rest results, goal = .reverify rest results → ∀ doc ∈ rest, doc.status = .active) :
    (afterWrite doc goal).Checked := by
  cases goal with
  | reverify rest results => exact hgoal rest results rfl
  | _ => exact trivial

theorem status_of_mem_findStaleActive {domains : DomainStore} {olderThan : Int} {limit : Nat}
    {doc : CustomDomainDoc} (h : doc ∈ findStaleActive domains olderThan limit) :
    doc.status = .active := by
  have hfound : doc ∈ domains.find (isStaleActive olderThan) :=
    (List.mergeSort_perm _ _).mem_iff.1 (List.mem_of_mem_take h)
  have hstale := (List.mem_filter.1 hfound).2
  simp only [isStaleActive, Bool.and_eq_true, decide_eq_true_eq] at hstale
  exact hstale.1.1

theorem checked_reverifying {cfg : DomainConfig} {answer : DomainAnswer} {s : DomainWorld}
    {rest : List CustomDomainDoc} {results : List (CustomDomainDoc × Bool)}
    (hrest : ∀ doc ∈ rest, doc.status = .active) :
    (CustomDomainService.move cfg answer (.reverifying rest results) s).1.Checked := by
  cases rest with
  | nil => exact trivial
  | cons doc rest =>
    have hdoc : doc.status = .active := hrest doc List.mem_cons_self
    have htail : ∀ each ∈ rest, each.status = .active :=
      fun each heach => hrest each (List.mem_cons_of_mem _ heach)
    simp only [CustomDomainService.move]
    split_ifs
    · refine ⟨.inl hdoc, fun rest' results' heq => ?_⟩
      cases heq
      exact htail
    · refine ⟨.inl rfl, fun rest' results' heq => ?_⟩
      cases heq
      exact htail
    · exact htail

theorem checked_afterFailure (phase : DomainPhase) : (afterFailure phase).Checked := by
  cases phase <;> exact trivial

theorem checked_move {cfg : DomainConfig} {answer : DomainAnswer} {phase : DomainPhase}
    {s : DomainWorld} (h : phase.Checked) : (CustomDomainService.move cfg answer phase s).1.Checked := by
  cases phase with
  | idle last =>
    obtain ⟨delay, choice, outside⟩ := answer
    cases choice with
    | create fqdn user =>
      simp only [CustomDomainService.move]
      split_ifs
      · exact trivial
      · split <;> exact trivial
      · split <;> exact trivial
    | call domainId call =>
      cases call with
      | suspend reason => exact trivial
      | _ => simp only [CustomDomainService.move]; split_ifs <;> exact trivial
    | _ => exact trivial
  | loading domainId call =>
    simp only [CustomDomainService.move]
    split
    · exact trivial
    · exact trivial
    · exact checked_dispatch _ _
  | probing doc => exact checked_probe cfg answer.outside doc
  | writing read newStatus error bump goal =>
    simp only [CustomDomainService.move]
    split
    · exact trivial
    · exact checked_afterWrite read h.2
  | sweeping limit => exact fun doc hdoc => status_of_mem_findStaleActive hdoc
  | reverifying rest results => exact checked_reverifying h
  | inserting fqdn user method =>
    simp only [CustomDomainService.move]
    split <;> exact trivial
  | reloading domainId =>
    simp only [CustomDomainService.move]
    split <;> exact trivial
  | refreshing doc strict =>
    simp only [CustomDomainService.move]
    split
    · split_ifs <;> exact trivial
    · exact trivial
  | rollingBack domainId => exact trivial
  | _ =>
    simp only [CustomDomainService.move]
    split_ifs <;> exact trivial

theorem checked_act {cfg : DomainConfig} {answer : DomainAnswer} {phase : DomainPhase}
    {s : DomainWorld} (h : phase.Checked) : (act cfg answer phase s).1.Checked := by
  obtain ⟨delay, choice, outside⟩ := answer
  cases choice with
  | failBefore => exact checked_afterFailure phase
  | failAfter => exact checked_afterFailure phase
  | _ => exact checked_move h

/-! ## Runs -/

theorem mem_statusChanges {before after : DomainStore} {change : StatusChange} :
    change ∈ statusChanges before after ↔
      ∃ doc now, before.lookup change.domainId = some doc ∧ after.lookup change.domainId = some now ∧
        now.status ≠ doc.status ∧ change.before = doc.status ∧ change.after = now.status := by
  obtain ⟨domainId, old, new⟩ := change
  simp only [statusChanges, List.mem_filterMap, Option.map_eq_some_iff, Option.filter_eq_some_iff,
    decide_eq_true_eq, StatusChange.mk.injEq]
  constructor
  · rintro ⟨doc, hdoc, now, ⟨hnow, hne⟩, rfl, rfl, rfl⟩
    exact ⟨doc, now, lookup_eq_some_iff.2 ⟨hdoc, rfl⟩, hnow, hne, rfl, rfl⟩
  · rintro ⟨doc, now, hdoc, hnow, hne, rfl, rfl⟩
    obtain ⟨hmem, rfl⟩ := lookup_eq_some_iff.1 hdoc
    exact ⟨doc, hmem, now, ⟨hnow, hne⟩, rfl, rfl, rfl⟩

/-- The calls are about to write what they checked, and the ids that are stored or recorded have been
drawn. -/
structure StatusesSound (pool : Pool ι DomainPhase (DomainWorld × List StatusChange)) : Prop where
  checked : ∀ i, (pool.agents i).Checked
  stored : ∀ domainId, (pool.shared.1.domains.lookup domainId).isSome = true →
    domainId < pool.shared.1.issued
  changed : ∀ change ∈ pool.shared.2, change.domainId < pool.shared.1.issued

section

variable {s s' : DomainWorld} {choice : DomainChoice} {phase : DomainPhase}
  {changes : List StatusChange}

/-- A write of a status that was checked changes it legally, where what was read stands. -/
theorem legal_of_readStands (hm : DomainMoved s choice phase s') (hchecked : phase.Checked)
    (hstands : ReadStands choice phase s.domains) {domainId : ObjectId} {doc now : CustomDomainDoc}
    (hdoc : s.domains.lookup domainId = some doc) (hnow : s'.domains.lookup domainId = some now) :
    now.status = doc.status ∨ now.status ∈ legalTransitions doc.status := by
  rcases hm.status_eq_or hdoc hnow with hsame | ⟨write, hwrite, rfl, hstatus⟩
  · exact .inl hsame
  · rw [hstatus]
    rcases hstands write hwrite with hread | hspared
    · obtain ⟨-, -, -, _, _, _, rfl⟩ := mem_domainWrite.1 hwrite
      rw [hread]
      exact hchecked.1.imp_left Eq.symm
    · exact mem_sparedBy.1 hspared

/-- Where every change is legal, what was read stands. -/
theorem readStands_of_legal (hm : DomainMoved s choice phase s')
    (hlegal : ∀ change ∈ statusChanges s.domains s'.domains,
      change.after ∈ legalTransitions change.before) : ReadStands choice phase s.domains := by
  intro write hwrite
  refine .inr (mem_sparedBy.2 ?_)
  obtain ⟨now, hnow, hstatus⟩ := hm.exists_of_domainWrite hwrite
  obtain ⟨-, hstored, -⟩ := mem_domainWrite.1 hwrite
  by_cases hsame : write.newStatus = write.stored.status
  · exact .inl hsame
  · refine .inr (hlegal ⟨write.read.id, write.stored.status, write.newStatus⟩ ?_)
    exact mem_statusChanges.2 ⟨write.stored, now, hstored, hnow, hstatus ▸ hsame, rfl, hstatus.symm⟩

/-- A legal move leaves what was revoked revoked. -/
theorem StatusesKept.move (h : StatusesKept (s, changes)) (hm : DomainMoved s choice phase s')
    (hrecorded : ∀ change ∈ changes, change.domainId < s.issued) (hchecked : phase.Checked)
    (hstands : ReadStands choice phase s.domains) :
    StatusesKept (s', statusChanges s.domains s'.domains ++ changes) where
  legal := by
    intro change hchange
    rcases List.mem_append.1 hchange with hnew | hold
    · obtain ⟨doc, now, hdoc, hnow, hne, hbefore, hafter⟩ := mem_statusChanges.1 hnew
      rw [hbefore, hafter]
      exact (legal_of_readStands hm hchecked hstands hdoc hnow).resolve_left hne
    · exact h.legal change hold
  terminal := by
    intro change hchange hrevoked now hnow
    rcases List.mem_append.1 hchange with hnew | hold
    · obtain ⟨-, now', -, hnow', -, -, hafter⟩ := mem_statusChanges.1 hnew
      cases hnow.symm.trans hnow'
      exact hafter ▸ hrevoked
    · cases hdoc : s.domains.lookup change.domainId with
      | none =>
        -- A document that comes later has another id.
        have hid := (hm.id_eq_of_new hdoc (Option.isSome_of_mem hnow)).1
        exact absurd hid (Nat.ne_of_lt (hrecorded change hold))
      | some doc =>
        have hdead : doc.status = .revoked := h.terminal change hold hrevoked doc hdoc
        have hstep := legal_of_readStands hm hchecked hstands hdoc hnow
        rw [hdead] at hstep
        exact hstep.resolve_right List.not_mem_nil

end

variable [DecidableEq ι] {cfg : DomainConfig}
  {pool : Pool ι DomainPhase (DomainWorld × List StatusChange)} {event : ι × DomainAnswer}

theorem StatusesSound.step (h : StatusesSound pool) :
    StatusesSound (pool.step (recorded recordStatuses (DomainPhase.move cfg)) event) := by
  have hm := domainMoved_phase cfg event.1 event.2 (pool.agents event.1) pool.shared.1
  have hstored (domainId : ObjectId) (hsome : (pool.shared.1.domains.lookup domainId).isSome = true) :
      domainId < (DomainPhase.move cfg event.1 event.2 (pool.agents event.1) pool.shared.1).2.issued :=
    Nat.lt_of_lt_of_le (h.stored domainId hsome) hm.issued_le
  constructor
  · exact Pool.forall_agents_step (Q := fun _ => DomainPhase.Checked) (checked_act (h.checked event.1))
      fun i _ => h.checked i
  · intro domainId hsome
    cases hbefore : pool.shared.1.domains.lookup domainId with
    | none =>
      have hnone : (pool.shared.1.wait event.2.delay).domains.lookup domainId = none := hbefore
      obtain ⟨hid, hissued⟩ := hm.id_eq_of_new hnone hsome
      show domainId < (DomainPhase.move cfg event.1 event.2 (pool.agents event.1) pool.shared.1).2.issued
      rw [hissued, hid]
      exact Nat.lt_succ_self _
    | some doc => exact hstored domainId (by simp [hbefore])
  · intro change hchange
    rcases List.mem_append.1 hchange with hnew | hold
    · obtain ⟨doc, now, hdoc, -⟩ := mem_statusChanges.1 hnew
      exact hstored change.domainId (Option.isSome_of_mem hdoc)
    · exact Nat.lt_of_lt_of_le (h.changed change hold) hm.issued_le

/-- In every run of calls on custom domains, each change of a stored status is in `LEGAL_TRANSITIONS` and
what is revoked stays so, exactly if every write finds the status that its call has read, or one that
the written status spares. -/
theorem statuses_kept_iff_read_stands (cfg : DomainConfig)
    (pool : Pool ι DomainPhase (DomainWorld × List StatusChange)) (events : List (ι × DomainAnswer))
    (hidle : ∀ i, ∃ last, pool.agents i = .idle last) (hchanges : pool.shared.2 = [])
    (hissued : ∀ doc ∈ pool.shared.1.domains.docs, doc.id < pool.shared.1.issued) :
    (∀ t ∈ List.scanl (Pool.step (recorded recordStatuses (DomainPhase.move cfg))) pool events,
        StatusesKept t.shared) ↔
      Run.Guarded (Pool.step (recorded recordStatuses (DomainPhase.move cfg))) ReadsStand pool
        events := by
  refine Run.forall_mem_scanl_iff_of_invariant
    (P := fun pool : Pool ι DomainPhase (DomainWorld × List StatusChange) => StatusesKept pool.shared)
    StatusesSound (fun pool event hsound h hnext => ?_) (fun pool event hsound h hstands => ?_) ?_ ?_
  · have hm := domainMoved_phase cfg event.1 event.2 (pool.agents event.1) pool.shared.1
    have hstands := readStands_of_legal hm fun change hchange =>
      hnext.legal change (List.mem_append_left _ hchange)
    exact hstands
  · have hm := domainMoved_phase cfg event.1 event.2 (pool.agents event.1) pool.shared.1
    have hwaited : StatusesKept (pool.shared.1.wait event.2.delay, pool.shared.2) :=
      ⟨h.legal, h.terminal⟩
    exact ⟨hsound.step, hwaited.move hm hsound.changed (hsound.checked event.1) hstands⟩
  · refine ⟨fun i => ?_, fun domainId hsome => ?_, ?_⟩
    · obtain ⟨last, hlast⟩ := hidle i
      rw [hlast]
      exact trivial
    · obtain ⟨doc, hdoc⟩ := Option.isSome_iff_exists.1 hsome
      obtain ⟨hmem, rfl⟩ := lookup_eq_some_iff.1 hdoc
      exact hissued doc hmem
    · rw [hchanges]
      exact fun change hchange => absurd hchange List.not_mem_nil
  · constructor <;> rw [hchanges] <;> exact fun change hchange => absurd hchange List.not_mem_nil

/-- A deployment that verifies by a CNAME record alone. -/
def cnameConfig : DomainConfig where
  lib := asciiUrlLib
  verifiers := [.cname]

/-- Two calls that have not begun, and a registration that is not verified yet. -/
def oneRegistered : Pool Bool DomainPhase (DomainWorld × List StatusChange) where
  agents _ := .idle none
  shared := ({
    domains := .single {
      id := 0
      fqdn := "go.example"
      ownerId := 1
      verificationMethod := .cname
      createdAt := 0 }
    clock := 0
    issued := 1 }, [])

/-- The owner verifies the domain, and deletes it after that. -/
def deletedAfterwards : List (Bool × DomainAnswer) :=
  [(true, ⟨0, .call 0 (.verify 1), {}⟩), (true, ⟨0, .go, {}⟩), (true, ⟨0, .go, {}⟩),
    (true, ⟨0, .go, {}⟩), (true, ⟨0, .go, {}⟩), (false, ⟨0, .call 0 (.delete 1), {}⟩),
    (false, ⟨0, .go, {}⟩), (false, ⟨0, .go, {}⟩), (false, ⟨0, .go, {}⟩), (false, ⟨0, .go, {}⟩)]

theorem statuses_kept_deletedAfterwards :
    Run.Guarded (Pool.step (recorded recordStatuses (DomainPhase.move cnameConfig))) ReadsStand
      oneRegistered deletedAfterwards ∧
    ((∀ t ∈ List.scanl (Pool.step (recorded recordStatuses (DomainPhase.move cnameConfig)))
        oneRegistered deletedAfterwards, StatusesKept t.shared) ↔
      Run.Guarded (Pool.step (recorded recordStatuses (DomainPhase.move cnameConfig))) ReadsStand
        oneRegistered deletedAfterwards) :=
  ⟨by decide +kernel, statuses_kept_iff_read_stands cnameConfig oneRegistered deletedAfterwards
    (fun _ => ⟨none, rfl⟩) rfl (by decide)⟩

/-- The domain is deleted while DNS is asked about it: what was revoked is active again. -/
theorem revoked_left_deletedMeanwhile :
    ¬ ∀ t ∈ List.scanl (Pool.step (recorded recordStatuses (DomainPhase.move cnameConfig))) oneRegistered
      [(true, ⟨0, .call 0 (.verify 1), {}⟩), (true, ⟨0, .go, {}⟩), (true, ⟨0, .go, {}⟩),
        (false, ⟨0, .call 0 (.delete 1), {}⟩), (false, ⟨0, .go, {}⟩), (false, ⟨0, .go, {}⟩),
        (true, ⟨0, .go, {}⟩)], StatusesKept t.shared := by
  decide +kernel

end

/-! ## The domain an owner is let shorten on -/

variable {ι : Type}

/-- The call lets the user pass exactly if an active document of the name is the user's. -/
def OwnerServed (cfg : DomainConfig) (name : String) (user : ObjectId) (domains : DomainStore) : Prop :=
  (assertOwnedAndActive cfg domains user name).isOk = true ↔
    ∃ doc ∈ domains.docs, doc.fqdn = canonical cfg.lib name ∧ doc.ownerId = user ∧ doc.status = .active

instance (cfg : DomainConfig) (name : String) (user : ObjectId) (domains : DomainStore) :
    Decidable (OwnerServed cfg name user domains) :=
  inferInstanceAs (Decidable (_ ↔ _))

/-- No document of the name is stored before this one. -/
def IsFirstOfName (domains : DomainStore) (stored : CustomDomainDoc) : Prop :=
  ∀ earlier ∈ domains.docs.takeWhile (· ≠ stored), earlier.fqdn ≠ stored.fqdn

instance (domains : DomainStore) (stored : CustomDomainDoc) : Decidable (IsFirstOfName domains stored) :=
  inferInstanceAs (Decidable (∀ earlier ∈ _, _))

/-- What becomes active for the user is the first of its name. -/
def ActivatesFirst (name : String) (user : ObjectId) (choice : DomainChoice) (phase : DomainPhase)
    (domains : DomainStore) : Prop :=
  ∀ write ∈ domainWrite choice phase domains, write.newStatus = .active →
    write.stored.fqdn = name → write.stored.ownerId = user → IsFirstOfName domains write.stored

/-- The same for the move of an event. -/
def ActivationsFirst (cfg : DomainConfig) (name : String) (user : ObjectId)
    (pool : Pool ι DomainPhase DomainWorld) (event : ι × DomainAnswer) : Prop :=
  ActivatesFirst (canonical cfg.lib name) user event.2.choice (pool.agents event.1) pool.shared.domains

instance (cfg : DomainConfig) (name : String) (user : ObjectId) (pool : Pool ι DomainPhase DomainWorld)
    (event : ι × DomainAnswer) : Decidable (ActivationsFirst cfg name user pool event) :=
  inferInstanceAs (Decidable (∀ write ∈ domainWrite event.2.choice _ _, _ → _ → _ → _))

/-! ## The first document of a name -/

/-- What the user has of the name that is active is the first of the name. -/
def FirstServes (name : String) (user : ObjectId) (domains : DomainStore) : Prop :=
  ∀ doc ∈ domains.docs, doc.fqdn = name → doc.ownerId = user → doc.status = .active →
    findByFqdn domains name = some doc

/-- What passes is found exactly if nothing that comes before it passes. -/
theorem find?_eq_some_iff_takeWhile {α : Type} [DecidableEq α] {p : α → Bool} {a : α} {xs : List α}
    (hmem : a ∈ xs) (hp : p a = true) :
    xs.find? p = some a ↔ ∀ x ∈ xs.takeWhile (· ≠ a), p x = false := by
  induction xs with
  | nil => cases hmem
  | cons x xs ih =>
    by_cases hx : x = a
    · subst hx
      simp [hp]
    · have htail : a ∈ xs := (List.mem_cons.1 hmem).resolve_left (Ne.symm hx)
      cases hpx : p x with
      | true => simp [hpx, hx]
      | false => simpa [hpx, hx] using ih htail

theorem isFirstOfName_iff {domains : DomainStore} {stored : CustomDomainDoc}
    (h : stored ∈ domains.docs) :
    IsFirstOfName domains stored ↔ findByFqdn domains stored.fqdn = some stored := by
  rw [findByFqdn, findOne, find?_eq_some_iff_takeWhile h (by simp)]
  simp [IsFirstOfName]

/-- Two live documents of a name are one. -/
theorem eq_of_fqdn_eq {domains : DomainStore} {doc other : CustomDomainDoc} (hdoc : doc ∈ domains.docs)
    (hother : other ∈ domains.docs) (hname : doc.fqdn = other.fqdn) (hlive : doc.status ≠ .revoked)
    (hlive' : other.status ≠ .revoked) : doc = other := by
  refine List.inj_on_of_nodup_map domains.nodup_key hdoc hother ?_
  simp [Document.key, CustomDomainDoc.indexKey, hlive, hlive', hname]

theorem isOk_assertOwnedAndActive {cfg : DomainConfig} {name : String} {user : ObjectId}
    {domains : DomainStore} :
    (assertOwnedAndActive cfg domains user name).isOk = true ↔
      ∃ doc, findByFqdn domains (canonical cfg.lib name) = some doc ∧ doc.ownerId = user ∧
        doc.status = .active := by
  unfold assertOwnedAndActive assertOwned
  cases hfound : findByFqdn domains (canonical cfg.lib name) with
  | none => simp [bind, Except.bind, Except.isOk, Except.toBool]
  | some doc =>
    by_cases howner : doc.ownerId = user
    · by_cases hactive : doc.status = .active
      · simp [bind, Except.bind, Except.isOk, Except.toBool, howner, hactive]
      · simp [bind, Except.bind, Except.isOk, Except.toBool, howner, hactive]
    · simp [bind, Except.bind, Except.isOk, Except.toBool, howner]

theorem ownerServed_iff {cfg : DomainConfig} {name : String} {user : ObjectId} {domains : DomainStore} :
    OwnerServed cfg name user domains ↔ FirstServes (canonical cfg.lib name) user domains := by
  rw [OwnerServed, isOk_assertOwnedAndActive]
  constructor
  · intro h doc hdoc hname howner hactive
    obtain ⟨first, hfirst, -, hfirstActive⟩ := h.2 ⟨doc, hdoc, hname, howner, hactive⟩
    have hfirstName : first.fqdn = canonical cfg.lib name := by simpa using List.find?_some hfirst
    have hsame : first = doc :=
      eq_of_fqdn_eq (List.mem_of_find?_eq_some hfirst) hdoc (hfirstName.trans hname.symm)
        (by simp [hfirstActive]) (by simp [hactive])
    rw [hfirst, hsame]
  · intro h
    constructor
    · rintro ⟨doc, hfound, howner, hactive⟩
      have hname : doc.fqdn = canonical cfg.lib name := by simpa using List.find?_some hfound
      exact ⟨doc, List.mem_of_find?_eq_some hfound, hname, howner, hactive⟩
    · rintro ⟨doc, hdoc, hname, howner, hactive⟩
      exact ⟨doc, h doc hdoc hname howner hactive, howner, hactive⟩

/-! ## What a move leaves -/

/-- A write that maps the documents and keeps their names maps the first of a name. -/
theorem findByFqdn_map {domains domains' : DomainStore} {f : CustomDomainDoc → CustomDomainDoc}
    (h : domains'.docs = domains.docs.map f) (hname : ∀ doc, (f doc).fqdn = doc.fqdn) (name : String) :
    findByFqdn domains' name = (findByFqdn domains name).map f := by
  simp only [findByFqdn, findOne, h, List.find?_map, Function.comp_def, hname]

section

variable {s s' : DomainWorld} {choice : DomainChoice} {phase : DomainPhase} {name : String}
  {user : ObjectId}

/-- A write that makes nothing active leaves the first that is active first. -/
theorem FirstServes.map {domains domains' : DomainStore} {f : CustomDomainDoc → CustomDomainDoc}
    (h : FirstServes name user domains) (hdocs : domains'.docs = domains.docs.map f)
    (hname : ∀ doc, (f doc).fqdn = doc.fqdn) (howner : ∀ doc, (f doc).ownerId = doc.ownerId)
    (hactive : ∀ doc ∈ domains.docs, (f doc).status = .active → doc.fqdn = name → doc.ownerId = user →
      doc.status = .active ∨ findByFqdn domains name = some doc) :
    FirstServes name user domains' := by
  intro now hnow hnowName hnowOwner hnowActive
  rw [hdocs] at hnow
  obtain ⟨doc, hdoc, rfl⟩ := List.mem_map.1 hnow
  have hdocName : doc.fqdn = name := (hname doc).symm.trans hnowName
  have hdocOwner : doc.ownerId = user := (howner doc).symm.trans hnowOwner
  have hfirst : findByFqdn domains name = some doc := by
    rcases hactive doc hdoc hnowActive hdocName hdocOwner with hwas | hfirst
    · exact h doc hdoc hdocName hdocOwner hwas
    · exact hfirst
  rw [findByFqdn_map hdocs hname, hfirst, Option.map_some]

theorem firstServes_insertOne {domains domains' : DomainStore} {doc : CustomDomainDoc}
    (h : FirstServes name user domains) (hinsert : domains.insertOne doc = some domains')
    (hstatus : doc.status = .pending) : FirstServes name user domains' := by
  obtain ⟨-, -, hdocs⟩ := insertOne_eq_some hinsert
  intro now hnow hnowName hnowOwner hnowActive
  rw [hdocs, List.mem_append, List.mem_singleton] at hnow
  rcases hnow with hold | rfl
  · have hfirst : domains.docs.find? (fun doc => doc.fqdn = name) = some now :=
      h now hold hnowName hnowOwner hnowActive
    rw [findByFqdn, findOne, hdocs, List.find?_append, hfirst, Option.some_or]
  · rw [hstatus] at hnowActive
    cases hnowActive

theorem firstServes_deleteMany {domains : DomainStore} (h : FirstServes name user domains)
    (q : CustomDomainDoc → Bool) : FirstServes name user (domains.deleteMany q) := by
  intro now hnow hnowName hnowOwner hnowActive
  obtain ⟨hmem, hkept⟩ := List.mem_filter.1 hnow
  have hfirst : domains.docs.find? (fun doc => doc.fqdn = name) = some now :=
    h now hmem hnowName hnowOwner hnowActive
  obtain ⟨hname, before, after, hdocs, hbefore⟩ := List.find?_eq_some_iff_append.1 hfirst
  refine List.find?_eq_some_iff_append.2 ⟨hname, before.filter (fun doc => !q doc),
    after.filter (fun doc => !q doc), ?_, fun doc hdoc => hbefore doc (List.mem_filter.1 hdoc).1⟩
  show domains.docs.filter (fun doc => !q doc) = _
  rw [hdocs, List.filter_append, List.filter_cons, if_pos hkept]

/-- A write of a status, where the user's active document was the first of its name. -/
theorem firstServes_updateStatus_iff {read : CustomDomainDoc} {newStatus : DomainStatus}
    {error : Option String} {bump : Bool} {now : Int} {domains domains' : DomainStore}
    (h : FirstServes name user domains)
    (hwrite : updateStatus domains read.id newStatus error bump now = some domains') :
    FirstServes name user domains' ↔ ∀ stored ∈ domains.lookup read.id, newStatus = .active →
      stored.fqdn = name → stored.ownerId = user → findByFqdn domains name = some stored := by
  have hdocs := docs_updateStatus hwrite
  have hname (doc : CustomDomainDoc) : (applyWhere (fun doc => doc.id = read.id)
      (statusOps newStatus error bump now) doc).fqdn = doc.fqdn :=
    field_applyWhere CustomDomainDoc.fqdn _ _ (fun _ => rfl) doc
  have howner (doc : CustomDomainDoc) : (applyWhere (fun doc => doc.id = read.id)
      (statusOps newStatus error bump now) doc).ownerId = doc.ownerId :=
    field_applyWhere CustomDomainDoc.ownerId _ _ (fun _ => rfl) doc
  constructor
  · intro hnow stored hstored hactive hstoredName hstoredOwner
    obtain ⟨hmem, hid⟩ := lookup_eq_some_iff.1 hstored
    have hwritten : applyWhere (fun doc => doc.id = read.id) (statusOps newStatus error bump now)
        stored = (statusOps newStatus error bump now).apply stored :=
      applyWhere_of_matches _ (decide_eq_true hid)
    have hfirst := hnow _ (hdocs ▸ List.mem_map_of_mem hmem) ((hname stored).trans hstoredName)
      ((howner stored).trans hstoredOwner) (by rw [hwritten]; exact hactive)
    rw [findByFqdn_map hdocs hname, Option.map_eq_some_iff] at hfirst
    obtain ⟨first, hfound, hsame⟩ := hfirst
    -- The write keeps the ids, so that the first is the document that was written.
    have hids : Document.id first = Document.id stored := by
      rw [← id_applyWhere (fun doc => doc.id = read.id) (statusOps newStatus error bump now) first, hsame,
        id_applyWhere]
    rw [hfound, List.inj_on_of_nodup_map domains.nodup_id (List.mem_of_find?_eq_some hfound) hmem hids]
  · intro hfirst
    refine h.map hdocs hname howner fun doc hdoc hactive hdocName hdocOwner => ?_
    by_cases hid : doc.id = read.id
    · have hwritten : applyWhere (fun doc => doc.id = read.id) (statusOps newStatus error bump now)
          doc = (statusOps newStatus error bump now).apply doc :=
        applyWhere_of_matches _ (decide_eq_true hid)
      rw [hwritten] at hactive
      exact .inr (hfirst doc (lookup_eq_some_iff.2 ⟨hdoc, hid⟩) hactive hdocName hdocOwner)
    · have hkept : applyWhere (fun doc => doc.id = read.id) (statusOps newStatus error bump now) doc = doc :=
        applyWhere_of_not_matches _ (decide_eq_false hid)
      rw [hkept] at hactive
      exact .inl hactive

/-- The user's active document stays the first of its name, exactly when what becomes active is. -/
theorem DomainMoved.firstServes_iff (hm : DomainMoved s choice phase s')
    (h : FirstServes name user s.domains) :
    FirstServes name user s'.domains ↔ ActivatesFirst name user choice phase s.domains := by
  have hvacuous (hphase : domainWrite choice phase s.domains = none) :
      ActivatesFirst name user choice phase s.domains := by
    intro write hwrite
    rw [hphase] at hwrite
    cases hwrite
  cases hm with
  | rests hphase => exact iff_of_true h (hvacuous hphase)
  | inserts doc domains hphase hid hstatus hinsert =>
    exact iff_of_true (firstServes_insertOne h hinsert hstatus) (hvacuous hphase)
  | deletes domainId hphase => exact iff_of_true (firstServes_deleteMany h _) (hvacuous hphase)
  | edits domainId u hphase hsame =>
    have hstatus (doc : CustomDomainDoc) := field_applyWhere CustomDomainDoc.status
      (fun doc => decide (Document.id doc = domainId) && true) u.toUpdate (fun doc => (hsame doc).1) doc
    refine iff_of_true (h.map rfl (field_applyWhere CustomDomainDoc.fqdn _ _ fun doc => (hsame doc).2.1)
      (field_applyWhere CustomDomainDoc.ownerId _ _ fun doc => (hsame doc).2.2)
      fun doc _ hactive _ _ => .inl ?_) (hvacuous hphase)
    exact (hstatus doc).symm.trans hactive
  | writes read newStatus error bump goal domains hphase hchoice hwrite =>
    rw [firstServes_updateStatus_iff h hwrite]
    constructor
    · intro hfirst write hmem hactive hname howner
      obtain ⟨-, hstored, -, _, _, _, hsame⟩ := mem_domainWrite.1 hmem
      rw [hphase] at hsame
      obtain ⟨rfl, rfl, -⟩ := DomainPhase.writing.inj hsame
      rw [isFirstOfName_iff (lookup_eq_some_iff.1 hstored).1, hname]
      exact hfirst write.stored hstored hactive hname howner
    · intro hguard stored hstored hactive hname howner
      have hfree := (isSome_updateStatus_iff hstored).1 (Option.isSome_of_mem hwrite)
      have hfirst := hguard ⟨read, newStatus, stored⟩
        (mem_domainWrite.2 ⟨hchoice, hstored, hfree, error, bump, goal, hphase⟩) hactive hname howner
      rw [isFirstOfName_iff (lookup_eq_some_iff.1 hstored).1, hname] at hfirst
      exact hfirst

end

/-- In every run of calls on custom domains, `assert_owned_and_active` lets the user pass on the name
exactly if the user has an active document of it, as long as, and only as long as, each document of the
name that becomes active for the user is the first that is stored. -/
theorem owner_served_iff_first [DecidableEq ι] (cfg : DomainConfig) (name : String) (user : ObjectId)
    (pool : Pool ι DomainPhase DomainWorld) (events : List (ι × DomainAnswer))
    (hstart : OwnerServed cfg name user pool.shared.domains) :
    (∀ t ∈ List.scanl (Pool.step (DomainPhase.move cfg)) pool events,
        OwnerServed cfg name user t.shared.domains) ↔
      Run.Guarded (Pool.step (DomainPhase.move cfg)) (ActivationsFirst cfg name user) pool events := by
  refine Run.forall_mem_scanl_iff
    (P := fun pool : Pool ι DomainPhase DomainWorld => OwnerServed cfg name user pool.shared.domains)
    (fun pool event h => ?_) hstart
  have hm := domainMoved_phase cfg event.1 event.2 (pool.agents event.1) pool.shared
  rw [ownerServed_iff] at h ⊢
  exact hm.firstServes_iff h

/-- A deployment that verifies by a CNAME record, and lets a user have two domains. -/
def twoPerUser : DomainConfig where
  lib := asciiUrlLib
  maxPerUser := 2
  verifiers := [.cname]

/-- One call after the other, and no domain yet. -/
def noDomains : Pool Unit DomainPhase DomainWorld where
  agents _ := .idle none
  shared := { domains := .empty, clock := 0, issued := 0 }

/-- The moves of a registration. -/
def registeringMoves (user : ObjectId) : List (Unit × DomainAnswer) :=
  ((), ⟨0, .create "Go.Example" user, {}⟩) :: List.replicate 5 ((), ⟨0, .go, {}⟩)

/-- The moves of a verification. -/
def verifyingMoves (domainId user : ObjectId) : List (Unit × DomainAnswer) :=
  ((), ⟨0, .call domainId (.verify user), {}⟩) :: List.replicate 4 ((), ⟨0, .go, {}⟩)

/-- The moves of a revocation. -/
def revokingMoves (domainId user : ObjectId) : List (Unit × DomainAnswer) :=
  ((), ⟨0, .call domainId (.delete user), {}⟩) :: List.replicate 4 ((), ⟨0, .go, {}⟩)

theorem owner_served_registeredOnce :
    Run.Guarded (Pool.step (DomainPhase.move twoPerUser)) (ActivationsFirst twoPerUser "go.example" 1)
      noDomains (registeringMoves 1 ++ verifyingMoves 0 1 ++ revokingMoves 0 1) ∧
    ((∀ t ∈ List.scanl (Pool.step (DomainPhase.move twoPerUser)) noDomains
        (registeringMoves 1 ++ verifyingMoves 0 1 ++ revokingMoves 0 1),
        OwnerServed twoPerUser "go.example" 1 t.shared.domains) ↔
      Run.Guarded (Pool.step (DomainPhase.move twoPerUser)) (ActivationsFirst twoPerUser "go.example" 1)
        noDomains (registeringMoves 1 ++ verifyingMoves 0 1 ++ revokingMoves 0 1)) :=
  ⟨by decide +kernel, owner_served_iff_first twoPerUser "go.example" 1 noDomains _ (by decide +kernel)⟩

/-- A name is registered again after it was revoked: the new registration is active, and its owner is
refused. -/
theorem owner_refused_registeredAgain :
    ¬ ∀ t ∈ List.scanl (Pool.step (DomainPhase.move twoPerUser)) noDomains
      (registeringMoves 1 ++ verifyingMoves 0 1 ++ revokingMoves 0 1 ++ registeringMoves 2 ++ verifyingMoves 1 2),
      OwnerServed twoPerUser "go.example" 2 t.shared.domains := by
  decide +kernel

end Spoo
