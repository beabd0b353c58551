import Spoo.Proofs.DomainMoves
import Spoo.Proofs.PendingSlots
import Spoo.Services.ApiKeyService
import Spoo.Services.TagService

/-!
# Quotas

Every kind of document is counted first and inserted later. A call that goes on has found room, and the room
is still there unless other calls have inserted theirs between the two.
-/

namespace Spoo

open Agents Mongo Mongo.Collection

variable {ι : Type}

/-- The kinds of documents that an account can have a limited number of. -/
inductive QuotaKind where
  | apiKey
  | tag
  | endpoint
  | domain
  deriving DecidableEq, Repr

/-- What the four services are built on. -/
structure QuotaConfig where
  apiKeyLib : ApiKeyLib
  tagLib : TagLib
  webhookLib : WebhookLib
  maxActiveKeys : Nat := 20
  webhooks : WebhookConfig := {}
  domains : DomainConfig

/-- The four collections, with what goes with them. -/
structure QuotaWorld where
  keys : ApiKeyWorld
  tags : TagWorld
  webhooks : WebhookWorld
  domains : DomainWorld

/-- A create call. -/
inductive CreateCall where
  | apiKey (request : CreateApiKey)
  | tag (request : CreateTag)
  | endpoint (request : CreateEndpoint)
  | domain (fqdn : String) (user : ObjectId)
  deriving DecidableEq, Repr

/-- Where a create call stands. -/
inductive CreatePhase where
  | called (call : CreateCall)
  | apiKey (phase : ApiKeyPhase)
  | tag (phase : TagPhase)
  | endpoint (phase : OwnerPhase)
  | domain (phase : DomainPhase)
  deriving DecidableEq, Repr

variable (cfg : QuotaConfig)

/-- One move of a create call, by the service of its kind. -/
def createMove (outside : DomainOutside) (phase : CreatePhase) (s : QuotaWorld) :
    CreatePhase × QuotaWorld :=
  match phase with
  | .called (.apiKey request) => (.apiKey (.counting request), s)
  | .called (.tag request) => (.tag (.counting request), s)
  | .called (.endpoint request) =>
    let moved := WebhookService.move cfg.webhookLib cfg.webhooks (.create request) .idle s.webhooks
    (.endpoint moved.1, { s with webhooks := moved.2 })
  | .called (.domain fqdn user) =>
    let moved := CustomDomainService.move cfg.domains ⟨0, .create fqdn user, outside⟩ (.idle none) s.domains
    (.domain moved.1, { s with domains := moved.2 })
  | .apiKey phase =>
    let moved := ApiKeyService.move cfg.apiKeyLib cfg.maxActiveKeys phase s.keys
    (.apiKey moved.1, { s with keys := moved.2 })
  | .tag phase =>
    let moved := TagService.move cfg.tagLib phase s.tags
    (.tag moved.1, { s with tags := moved.2 })
  | .endpoint phase =>
    let moved := WebhookService.move cfg.webhookLib cfg.webhooks .go phase s.webhooks
    (.endpoint moved.1, { s with webhooks := moved.2 })
  | .domain phase =>
    let moved := CustomDomainService.move cfg.domains ⟨0, .go, outside⟩ phase s.domains
    (.domain moved.1, { s with domains := moved.2 })

/-- One move of a create call; the answer is what comes from outside. -/
def CreatePhase.move : Move ι DomainOutside CreatePhase QuotaWorld := fun _ => createMove cfg

/-- The documents of a kind that the service counts for a user. -/
def quotaCount (s : QuotaWorld) (user : ObjectId) : QuotaKind → Nat
  | .apiKey => ApiKeyRepository.countByUser s.keys.keys user
  | .tag => TagRepository.countByOwner s.tags.tags user
  | .endpoint => WebhookEndpointRepository.countByUser s.webhooks.endpoints user
  | .domain => CustomDomainRepository.countByOwner s.domains.domains user

/-- The configured maximum of a kind. -/
def quotaMaximum : QuotaKind → Nat
  | .apiKey => cfg.maxActiveKeys
  | .tag => tagsMaxPerOwner
  | .endpoint => cfg.webhooks.maxEndpoints
  | .domain => cfg.domains.maxPerUser

/-- The user has no more than the maximum of any kind. -/
def WithinQuotas (user : ObjectId) (s : QuotaWorld) : Prop :=
  ∀ kind, quotaCount s user kind ≤ quotaMaximum cfg kind

/-- The user whose key a call is about to insert, where no unique index refuses it. -/
def ApiKeyPhase.insertsFor (lib : ApiKeyLib) (s : ApiKeyWorld) : ApiKeyPhase → Option ObjectId
  | .inserting request =>
    if (ApiKeyRepository.insert s.keys (ApiKeyService.apiKeyDoc lib request s)).isSome
    then some request.userId else none
  | _ => none

/-- The user whose tag a call is about to insert. -/
def TagPhase.insertsFor (lib : TagLib) (s : TagWorld) : TagPhase → Option ObjectId
  | .inserting request color =>
    if (TagRepository.insert s.tags (TagService.tagDoc lib request color s)).isSome
    then some request.ownerId else none
  | _ => none

/-- The user whose endpoint a call is about to insert. -/
def OwnerPhase.insertsFor (lib : WebhookLib) (s : WebhookWorld) : OwnerPhase → Option ObjectId
  | .inserting request scope =>
    if (s.insertEndpoint {
        id := 0
        userId := request.userId
        url := request.url
        description := request.description
        events := request.events
        scope
        flavor := request.flavor
        signingSecretEnc := lib.newSecret s.issued }).isSome
    then some request.userId else none
  | _ => none

/-- The user whose domain a call is about to insert. -/
def DomainPhase.insertsFor (s : DomainWorld) : DomainPhase → Option ObjectId
  | .inserting fqdn user method =>
    if (CustomDomainRepository.insert s.domains {
        id := s.issued
        fqdn
        ownerId := user
        verificationMethod := method
        createdAt := s.clock }).isSome
    then some user else none
  | _ => none

/-- The kind and the user of the document that a call is about to insert. -/
def CreatePhase.inserts (s : QuotaWorld) : CreatePhase → Option (QuotaKind × ObjectId)
  | .called _ => none
  | .apiKey phase => (phase.insertsFor cfg.apiKeyLib s.keys).map (.apiKey, ·)
  | .tag phase => (phase.insertsFor cfg.tagLib s.tags).map (.tag, ·)
  | .endpoint phase => (phase.insertsFor cfg.webhookLib s.webhooks).map (.endpoint, ·)
  | .domain phase => (phase.insertsFor s.domains).map (.domain, ·)

/-- The kind and the user of the documents that a call has counted, where it has not inserted yet. -/
def CreatePhase.counted : CreatePhase → Option (QuotaKind × ObjectId)
  | .apiKey (.inserting request) => some (.apiKey, request.userId)
  | .tag (.listing request) => some (.tag, request.ownerId)
  | .tag (.inserting request _) => some (.tag, request.ownerId)
  | .endpoint (.inserting request _) => some (.endpoint, request.userId)
  | .domain (.inserting _ user _) => some (.domain, user)
  | _ => none

/-- Which inserts each call has not seen: those of others since it counted. -/
def recordInserts [DecidableEq ι] (who : ι) (_ : DomainOutside) (phase : CreatePhase) (s : QuotaWorld)
    (_ : CreatePhase × QuotaWorld) (unseen : Unseen ι (QuotaKind × ObjectId)) :
    Unseen ι (QuotaKind × ObjectId) :=
  unseen.after who (phase.counted = none) fun key => phase.inserts cfg s = some key

/-! ## What one move counts -/

/-- The count goes up by one with an insert, and never without. -/
def Counts (before after : Nat) (inserts : Prop) : Prop :=
  (inserts → after = before + 1) ∧ (¬ inserts → after ≤ before)

theorem Counts.same {n : Nat} {inserts : Prop} (h : ¬ inserts) : Counts n n inserts :=
  ⟨fun hinserts => absurd hinserts h, fun _ => le_rfl⟩

/-- A move that inserts for no one adds nothing. -/
theorem Counts.none_of_le {α : Type} {before after : Nat} {a : α} (hle : after ≤ before) :
    Counts before after (none = some a) := by
  simp [Counts, hle]

theorem Counts.none {α : Type} {n : Nat} {a : α} : Counts n n (none = some a) := Counts.none_of_le le_rfl

/-- An insert is counted for the user it is for. -/
theorem counts_insertOne {D I K : Type} [Document D I K] [DecidableEq I] [DecidableEq K]
    {c c' : Collection D} {d : D} {counted : D → Bool} {owner user : ObjectId}
    (h : c.insertOne d = some c') (hcounted : counted d = decide (owner = user)) :
    Counts (c.find counted).length (c'.find counted).length (some owner = some user) := by
  have hlength := length_find_insertOne h counted
  rw [hcounted] at hlength
  constructor
  · intro howner
    simpa [Option.some.inj howner] using hlength
  · intro howner
    have hne : owner ≠ user := fun heq => howner (congrArg some heq)
    simp [hlength, hne]

/-- A write that leaves alone what is counted. -/
theorem length_find_updateMany {D I K : Type} [Document D I K] (c : Collection D) (q p : D → Bool)
    (u : KeyedUpdate D) (h : ∀ d, p (u.apply d) = p d) :
    ((c.updateMany q u).find p).length = (c.find p).length :=
  length_find_of_docs rfl (field_applyWhere p q u.toUpdate h)

theorem ApiKeyService.counts_move (lib : ApiKeyLib) (maxActiveKeys : Nat) (phase : ApiKeyPhase)
    (s : ApiKeyWorld) (user : ObjectId) :
    Counts (ApiKeyRepository.countByUser s.keys user)
      (ApiKeyRepository.countByUser (ApiKeyService.move lib maxActiveKeys phase s).2.keys user)
      (phase.insertsFor lib s = some user) := by
  cases phase with
  | counting request =>
    simp only [ApiKeyService.move]
    split_ifs <;> exact Counts.none
  | inserting request =>
    cases hinsert : ApiKeyRepository.insert s.keys (ApiKeyService.apiKeyDoc lib request s) with
    | none =>
      simp only [ApiKeyService.move, ApiKeyPhase.insertsFor, hinsert]
      exact Counts.none
    | some keys =>
      simp only [ApiKeyService.move, ApiKeyPhase.insertsFor, hinsert, Option.isSome_some, if_true]
      exact counts_insertOne hinsert (Bool.and_true _)
  | created doc raw => exact Counts.none
  | refused error => exact Counts.none
  | raised => exact Counts.none

theorem TagService.counts_move (lib : TagLib) (phase : TagPhase) (s : TagWorld) (user : ObjectId) :
    Counts (TagRepository.countByOwner s.tags user)
      (TagRepository.countByOwner (TagService.move lib phase s).2.tags user)
      (phase.insertsFor lib s = some user) := by
  cases phase with
  | counting request =>
    simp only [TagService.move]
    split_ifs
    · exact Counts.none
    · cases request.color <;> exact Counts.none
  | listing request => exact Counts.none
  | inserting request color =>
    cases hinsert : TagRepository.insert s.tags (TagService.tagDoc lib request color s) with
    | none =>
      simp only [TagService.move, TagPhase.insertsFor, hinsert]
      exact Counts.none
    | some tags =>
      simp only [TagService.move, TagPhase.insertsFor, hinsert, Option.isSome_some, if_true]
      exact counts_insertOne hinsert rfl
  | finding ownerId tagId =>
    simp only [TagService.move]
    split_ifs <;> exact Counts.none
  | pulling ownerId tagId => exact Counts.none
  | removing ownerId tagId linksUpdated =>
    exact Counts.none_of_le (length_find_deleteMany_le ..)
  | done outcome => exact Counts.none

theorem WebhookService.counts_move (lib : WebhookLib) (cfg : WebhookConfig) (choice : WebhookChoice)
    (phase : OwnerPhase) (s : WebhookWorld) (user : ObjectId) :
    Counts (WebhookEndpointRepository.countByUser s.endpoints user)
      (WebhookEndpointRepository.countByUser
        (WebhookService.move lib cfg choice phase s).2.endpoints user)
      (phase.insertsFor lib s = some user) := by
  cases phase with
  | idle =>
    cases choice with
    | create request =>
      simp only [WebhookService.move]
      split_ifs <;> exact Counts.none
    | _ => exact Counts.none
  | creating request =>
    simp only [WebhookService.move]
    split_ifs
    · exact Counts.none
    · cases WebhookService.scopeFromLinks request.scopeLinks <;> exact Counts.none
  | inserting request scope =>
    simp only [WebhookService.move, OwnerPhase.insertsFor]
    cases hinsert : s.insertEndpoint { id := 0, userId := request.userId, url := request.url, description := request.description, events := request.events, scope, flavor := request.flavor, signingSecretEnc := lib.newSecret s.issued } with
    | none => exact Counts.none
    | some s' =>
      obtain ⟨endpoints, hendpoints, rfl⟩ := Option.map_eq_some_iff.1 hinsert
      exact counts_insertOne hendpoints rfl
  | updating endpointId userId request =>
    simp only [WebhookService.move]
    cases WebhookEndpointRepository.findOwned s.endpoints endpointId userId with
    | none => exact Counts.none
    | some doc =>
      cases hupdates : WebhookService.updatesOf lib doc request with
      | none =>
        simp only [hupdates]
        exact Counts.none
      | some updates =>
        simp only [hupdates]
        split_ifs <;> exact Counts.none
  | writing endpointId userId updates =>
    exact Counts.none_of_le (length_find_updateMany _ _ _ _ fun _ => rfl).le
  | deleting endpointId userId =>
    simp only [WebhookService.move, WebhookEndpointRepository.deleteEndpoint]
    cases (WebhookEndpointRepository.findOwned s.endpoints endpointId userId).isSome with
    | false => exact Counts.none
    | true => exact Counts.none_of_le (length_find_deleteMany_le ..)
  | invalidating userId => cases choice <;> exact Counts.none

/-- A write of a status leaves the owner. -/
theorem CustomDomainRepository.countByOwner_updateStatus {domains domains' : DomainStore}
    {domainId : ObjectId} {newStatus : DomainStatus} {error : Option String} {bump : Bool} {now : Int}
    (h : updateStatus domains domainId newStatus error bump now = some domains') (user : ObjectId) :
    countByOwner domains' user = countByOwner domains user :=
  length_find_of_docs (docs_updateStatus h)
    (field_applyWhere (fun doc : CustomDomainDoc => decide (doc.ownerId = user)) _ _ fun _ => rfl)

theorem CustomDomainService.counts_move (cfg : DomainConfig) (answer : DomainAnswer)
    (phase : DomainPhase) (s : DomainWorld) (user : ObjectId) :
    Counts (CustomDomainRepository.countByOwner s.domains user)
      (CustomDomainRepository.countByOwner (CustomDomainService.move cfg answer phase s).2.domains user)
      (phase.insertsFor s = some user) := by
  cases phase with
  | inserting fqdn owner method =>
    simp only [CustomDomainService.move, DomainPhase.insertsFor]
    cases hinsert : CustomDomainRepository.insert s.domains {
        id := s.issued
        fqdn
        ownerId := owner
        verificationMethod := method
        createdAt := s.clock } with
    | none => exact Counts.none
    | some domains => exact counts_insertOne hinsert rfl
  | rollingBack domainId => exact Counts.none_of_le (length_find_deleteMany_le ..)
  | removing doc =>
    refine Counts.none_of_le ?_
    have hle : CustomDomainRepository.countByOwner
        (CustomDomainRepository.deleteById s.domains doc.id).2 user ≤
        CustomDomainRepository.countByOwner s.domains user := length_find_deleteMany_le ..
    simp only [CustomDomainService.move]
    split_ifs <;> exact hle
  | writing doc newStatus error bump goal =>
    refine Counts.none_of_le ?_
    simp only [CustomDomainService.move]
    cases hwrite : CustomDomainRepository.updateStatus s.domains doc.id newStatus error bump s.clock with
    | none => exact le_rfl
    | some domains => exact (CustomDomainRepository.countByOwner_updateStatus hwrite user).le
  | evicting doc goal => exact Counts.none_of_le (length_find_updateMany _ _ _ _ fun _ => rfl).le
  | routing doc ops =>
    refine Counts.none_of_le ?_
    simp only [CustomDomainService.move, CustomDomainRepository.updateRouting]
    by_cases hops : ops = {}
    · simp [hops]
    · simp only [hops, if_false]
      split_ifs <;> exact (length_find_updateMany _ _ _ _ fun _ => rfl).le
  | idle last =>
    rw [move_idle]
    exact Counts.none
  | loading domainId call =>
    simp only [CustomDomainService.move]
    split <;> exact Counts.none
  | reloading domainId =>
    simp only [CustomDomainService.move]
    split <;> exact Counts.none
  | refreshing doc strict =>
    simp only [CustomDomainService.move]
    split <;> exact Counts.none
  | reverifying rest results =>
    cases rest with
    | nil => exact Counts.none
    | cons doc rest =>
      simp only [CustomDomainService.move]
      split_ifs <;> exact Counts.none
  | probing doc => exact Counts.none
  | sweeping limit => exact Counts.none
  | _ =>
    simp only [CustomDomainService.move]
    split_ifs <;> exact Counts.none

/-- A move of a create call counts what it inserts, among the documents of its kind. -/
theorem counts_createMove (outside : DomainOutside) (phase : CreatePhase) (s : QuotaWorld)
    (user : ObjectId) (kind : QuotaKind) :
    Counts (quotaCount s user kind) (quotaCount (createMove cfg outside phase s).2 user kind)
      (phase.inserts cfg s = some (kind, user)) := by
  cases phase with
  | called call =>
    cases call with
    | endpoint request =>
      have hcounts := WebhookService.counts_move cfg.webhookLib cfg.webhooks (.create request) .idle
        s.webhooks user
      cases kind with
      | endpoint => exact Counts.none_of_le (hcounts.2 nofun)
      | _ => exact Counts.none
    | domain fqdn owner =>
      have hcounts := CustomDomainService.counts_move cfg.domains ⟨0, .create fqdn owner, outside⟩
        (.idle none) s.domains user
      cases kind with
      | domain => exact Counts.none_of_le (hcounts.2 nofun)
      | _ => exact Counts.none
    | _ => exact Counts.none
  | apiKey phase =>
    have hcounts := ApiKeyService.counts_move cfg.apiKeyLib cfg.maxActiveKeys phase s.keys user
    cases kind with
    | apiKey => simpa [CreatePhase.inserts, quotaCount, createMove] using hcounts
    | _ => exact Counts.same (by simp [CreatePhase.inserts])
  | tag phase =>
    have hcounts := TagService.counts_move cfg.tagLib phase s.tags user
    cases kind with
    | tag => simpa [CreatePhase.inserts, quotaCount, createMove] using hcounts
    | _ => exact Counts.same (by simp [CreatePhase.inserts])
  | endpoint phase =>
    have hcounts := WebhookService.counts_move cfg.webhookLib cfg.webhooks .go phase s.webhooks user
    cases kind with
    | endpoint => simpa [CreatePhase.inserts, quotaCount, createMove] using hcounts
    | _ => exact Counts.same (by simp [CreatePhase.inserts])
  | domain phase =>
    have hcounts := CustomDomainService.counts_move cfg.domains ⟨0, .go, outside⟩ phase s.domains user
    cases kind with
    | domain => simpa [CreatePhase.inserts, quotaCount, createMove] using hcounts
    | _ => exact Counts.same (by simp [CreatePhase.inserts])

/-! ## What a call has counted -/

/-- What a call has counted leaves room for what it is going to insert. -/
def LeavesRoom (key : QuotaKind × ObjectId) (phase : CreatePhase) (s : QuotaWorld) : Prop :=
  phase.counted = some key → quotaCount s key.2 key.1 < quotaMaximum cfg key.1

/-- A phase of a domain that is not about to insert has counted nothing. -/
theorem counted_domain_transition (doc : CustomDomainDoc) (newStatus : DomainStatus) (error : Option String)
    (bump : Bool) (goal : StatusGoal) :
    (CreatePhase.domain (CustomDomainService.transition doc newStatus error bump goal)).counted = none := by
  unfold CustomDomainService.transition
  split_ifs <;> rfl

theorem counted_domain_dispatch (call : DomainCall) (doc : CustomDomainDoc) :
    (CreatePhase.domain (CustomDomainService.dispatch call doc)).counted = none := by
  cases call <;> simp only [CustomDomainService.dispatch] <;> (try split_ifs) <;>
    first | rfl | exact counted_domain_transition ..

theorem counted_domain_probe (outside : DomainOutside) (doc : CustomDomainDoc) :
    (CreatePhase.domain (CustomDomainService.probe cfg.domains outside doc)).counted = none := by
  unfold CustomDomainService.probe
  split_ifs <;> first | rfl | exact counted_domain_transition ..

/-- A domain is about to be inserted where its owner's domains were counted, and there was room. -/
theorem counted_domain_move (answer : DomainAnswer) (phase : DomainPhase) (s : DomainWorld) :
    (CreatePhase.domain (CustomDomainService.move cfg.domains answer phase s).1).counted = none ∨
      ∃ fqdn user, phase = .counting fqdn user ∧
        CustomDomainRepository.countByOwner s.domains user < cfg.domains.maxPerUser ∧
        (CreatePhase.domain (CustomDomainService.move cfg.domains answer phase s).1).counted =
          some (.domain, user) := by
  cases phase with
  | counting fqdn user =>
    simp only [CustomDomainService.move]
    split_ifs with hquota hmethod
    · exact .inl rfl
    · exact .inr ⟨fqdn, user, rfl, Nat.not_le.1 hquota, rfl⟩
    · exact .inl rfl
  | loading domainId call =>
    left
    simp only [CustomDomainService.move]
    split <;> first | rfl | exact counted_domain_dispatch ..
  | probing doc => exact .inl (counted_domain_probe ..)
  | writing doc newStatus error bump goal =>
    left
    simp only [CustomDomainService.move]
    split
    · rfl
    · cases goal <;> rfl
  | reverifying rest results =>
    left
    cases rest with
    | nil => rfl
    | cons doc rest =>
      simp only [CustomDomainService.move]
      split_ifs <;> rfl
  | idle last =>
    left
    obtain ⟨delay, choice, outside⟩ := answer
    cases choice with
    | create fqdn user =>
      simp only [CustomDomainService.move]
      split_ifs
      · rfl
      · split <;> rfl
      · split <;> rfl
    | call domainId call =>
      cases call <;> simp only [CustomDomainService.move] <;> first | rfl | (split_ifs <;> rfl)
    | _ => rfl
  | refreshing doc strict =>
    left
    simp only [CustomDomainService.move]
    split
    · split_ifs <;> rfl
    · rfl
  | reloading domainId =>
    left
    simp only [CustomDomainService.move]
    split <;> rfl
  | inserting fqdn user method =>
    left
    simp only [CustomDomainService.move]
    split <;> rfl
  | rollingBack domainId => exact .inl rfl
  | sweeping limit => exact .inl rfl
  | _ =>
    left
    simp only [CustomDomainService.move]
    split_ifs <;> rfl

/-- A call is about to insert only what it has counted before, or has just counted and found room for. -/
theorem counted_createMove (outside : DomainOutside) (phase : CreatePhase) (s : QuotaWorld)
    {key : QuotaKind × ObjectId} (h : (createMove cfg outside phase s).1.counted = some key) :
    phase.counted = some key ∧ phase.inserts cfg s = none ∨
      phase.counted = none ∧ quotaCount s key.2 key.1 < quotaMaximum cfg key.1 := by
  cases phase with
  | called call =>
    cases call with
    | endpoint request =>
      simp only [createMove, WebhookService.move] at h
      split_ifs at h <;> cases h
    | domain fqdn user =>
      rcases counted_domain_move cfg ⟨0, .create fqdn user, outside⟩ (.idle none) s.domains with
        hnone | ⟨_, _, hphase, -⟩
      · cases hnone.symm.trans h
      · cases hphase
    | _ => cases h
  | apiKey phase =>
    cases phase with
    | counting request =>
      simp only [createMove, ApiKeyService.move] at h
      split_ifs at h with hverified hquota
      · cases h
      · cases h
      · cases h
        exact .inr ⟨rfl, Nat.not_le.1 hquota⟩
    | inserting request =>
      simp only [createMove, ApiKeyService.move] at h
      split at h <;> cases h
    | _ => cases h
  | tag phase =>
    cases phase with
    | counting request =>
      simp only [createMove, TagService.move] at h
      split_ifs at h with hquota
      · cases h
      · have hkey : some (QuotaKind.tag, request.ownerId) = some key := by
          rw [← h]
          cases request.color <;> rfl
        cases hkey
        exact .inr ⟨rfl, Nat.not_le.1 hquota⟩
    | listing request => exact .inl ⟨h, rfl⟩
    | inserting request color =>
      simp only [createMove, TagService.move] at h
      split at h <;> cases h
    | finding ownerId tagId =>
      simp only [createMove, TagService.move] at h
      split_ifs at h <;> cases h
    | _ => cases h
  | endpoint phase =>
    cases phase with
    | creating request =>
      simp only [createMove, WebhookService.move] at h
      split_ifs at h with hquota
      · cases h
      · split at h
        · cases h
        · cases h
          exact .inr ⟨rfl, Nat.not_le.1 hquota⟩
    | inserting request scope =>
      simp only [createMove, WebhookService.move] at h
      split at h <;> cases h
    | updating endpointId userId request =>
      simp only [createMove, WebhookService.move] at h
      split at h
      · cases h
      · split at h
        · cases h
        · split_ifs at h <;> cases h
    | deleting endpointId userId =>
      simp only [createMove, WebhookService.move] at h
      split at h <;> cases h
    | _ => cases h
  | domain phase =>
    rcases counted_domain_move cfg ⟨0, .go, outside⟩ phase s.domains with
      hnone | ⟨fqdn, user, rfl, hroom, hcounted⟩
    · cases hnone.symm.trans h
    · cases hcounted.symm.trans h
      exact .inr ⟨rfl, hroom⟩

/-- A call inserts what it has counted. -/
theorem counted_of_inserts {phase : CreatePhase} {s : QuotaWorld} {key : QuotaKind × ObjectId}
    (h : phase.inserts cfg s = some key) : phase.counted = some key := by
  cases phase with
  | called call => cases h
  | apiKey phase =>
    cases phase with
    | inserting request =>
      simp only [CreatePhase.inserts, ApiKeyPhase.insertsFor] at h
      split_ifs at h
      · exact h
      · cases h
    | _ => cases h
  | tag phase =>
    cases phase with
    | inserting request color =>
      simp only [CreatePhase.inserts, TagPhase.insertsFor] at h
      split_ifs at h
      · exact h
      · cases h
    | _ => cases h
  | endpoint phase =>
    cases phase with
    | inserting request scope =>
      simp only [CreatePhase.inserts, OwnerPhase.insertsFor] at h
      split_ifs at h
      · exact h
      · cases h
    | _ => cases h
  | domain phase =>
    cases phase with
    | inserting fqdn user method =>
      simp only [CreatePhase.inserts, DomainPhase.insertsFor] at h
      split_ifs at h
      · exact h
      · cases h
    | _ => cases h

/-! ## Whole runs -/

/-- Where others have inserted documents of the kind for the user since a call counted them, what it is
about to insert still fits. -/
def FindsRoom (user : ObjectId)
    (pool : Pool ι CreatePhase (QuotaWorld × Unseen ι (QuotaKind × ObjectId)))
    (event : ι × DomainOutside) : Prop :=
  ∀ inserted ∈ (pool.agents event.1).inserts cfg pool.shared.1,
    inserted.2 = user → pool.shared.2 event.1 inserted = true →
      quotaCount pool.shared.1 user inserted.1 < quotaMaximum cfg inserted.1

instance (user : ObjectId) (pool : Pool ι CreatePhase (QuotaWorld × Unseen ι (QuotaKind × ObjectId)))
    (event : ι × DomainOutside) : Decidable (FindsRoom cfg user pool event) :=
  inferInstanceAs (Decidable (∀ inserted ∈ (pool.agents event.1).inserts cfg pool.shared.1, _ → _ → _))

instance (user : ObjectId) (s : QuotaWorld) : Decidable (WithinQuotas cfg user s) :=
  decidable_of_iff (∀ kind ∈ [QuotaKind.apiKey, .tag, .endpoint, .domain],
      quotaCount s user kind ≤ quotaMaximum cfg kind)
    ⟨fun h kind => h kind (by cases kind <;> simp), fun h kind _ => h kind⟩

variable [DecidableEq ι] {cfg}

/-- What a call has counted still leaves room where no insert of another has gone unseen. -/
theorem relies_step (pool : Pool ι CreatePhase (QuotaWorld × Unseen ι (QuotaKind × ObjectId)))
    (event : ι × DomainOutside)
    (h : ∀ who, Relies (LeavesRoom cfg) pool.shared.2 who (pool.agents who) pool.shared.1) (who : ι) :
    Relies (LeavesRoom cfg)
      (pool.step (recorded (recordInserts cfg) (CreatePhase.move cfg)) event).shared.2 who
      ((pool.step (recorded (recordInserts cfg) (CreatePhase.move cfg)) event).agents who)
      (pool.step (recorded (recordInserts cfg) (CreatePhase.move cfg)) event).shared.1 := by
  have hcounts (key : QuotaKind × ObjectId) := counts_createMove cfg event.2 (pool.agents event.1)
    pool.shared.1 key.2 key.1
  by_cases hwho : who = event.1
  · subst hwho
    rw [Pool.agents_step_same]
    have hmoved {key : QuotaKind × ObjectId} (hcounted : _ = some key) :=
      counted_createMove cfg event.2 (pool.agents event.1) pool.shared.1 hcounted
    -- The documents that leave room before a move that inserts none leave room after it.
    have hstill {key : QuotaKind × ObjectId}
        (hinserts : (pool.agents event.1).inserts cfg pool.shared.1 ≠ some key)
        (hroom : quotaCount pool.shared.1 key.2 key.1 < quotaMaximum cfg key.1) :
        quotaCount (createMove cfg event.2 (pool.agents event.1) pool.shared.1).2 key.2 key.1 <
          quotaMaximum cfg key.1 := lt_of_le_of_lt ((hcounts key).2 hinserts) hroom
    refine (h event.1).after (fun hlooks key hcounted => ?_) fun key hroom hcounted => ?_
    · rcases hmoved hcounted with ⟨hbefore, -⟩ | ⟨hnone, hroom⟩
      · rw [of_decide_eq_true hlooks] at hbefore
        cases hbefore
      · refine hstill (fun hinserts => ?_) hroom
        cases hnone.symm.trans (counted_of_inserts cfg hinserts)
    · rcases hmoved hcounted with ⟨hbefore, hnone⟩ | ⟨hnone, hleft⟩
      · refine hstill (fun hinserts => ?_) (hroom hbefore)
        cases hnone.symm.trans hinserts
      · refine hstill (fun hinserts => ?_) hleft
        cases hnone.symm.trans (counted_of_inserts cfg hinserts)
  · rw [Pool.agents_step_of_ne hwho]
    refine (h who).after_of_ne hwho fun key hwrites hroom hcounted => ?_
    exact lt_of_le_of_lt ((hcounts key).2 (of_decide_eq_false hwrites)) (hroom hcounted)

theorem withinQuotas_step {user : ObjectId}
    (pool : Pool ι CreatePhase (QuotaWorld × Unseen ι (QuotaKind × ObjectId)))
    (event : ι × DomainOutside)
    (hrelies : ∀ who, Relies (LeavesRoom cfg) pool.shared.2 who (pool.agents who) pool.shared.1)
    (h : WithinQuotas cfg user pool.shared.1) :
    WithinQuotas cfg user
        (pool.step (recorded (recordInserts cfg) (CreatePhase.move cfg)) event).shared.1 ↔
      FindsRoom cfg user pool event := by
  have hcounts := counts_createMove cfg event.2 (pool.agents event.1) pool.shared.1 user
  constructor
  · rintro hafter ⟨kind, owner⟩ hinserted rfl -
    have hroom : quotaCount pool.shared.1 owner kind + 1 ≤ quotaMaximum cfg kind :=
      (hcounts kind).1 hinserted ▸ hafter kind
    exact hroom
  · intro hroom kind
    by_cases hinserted : (pool.agents event.1).inserts cfg pool.shared.1 = some (kind, user)
    · have hfits : quotaCount pool.shared.1 user kind < quotaMaximum cfg kind := by
        cases hunseen : pool.shared.2 event.1 (kind, user) with
        | true => exact hroom _ hinserted rfl hunseen
        | false => exact hrelies event.1 _ hunseen (counted_of_inserts cfg hinserted)
      exact ((hcounts kind).1 hinserted).trans_le hfits
    · exact ((hcounts kind).2 hinserted).trans (h kind)

/-- The quotas of a user hold all along exactly when each insert for the user still fits that comes after
an insert of another call since the count. -/
theorem quotas_held_iff_room {user : ObjectId}
    (pool : Pool ι CreatePhase (QuotaWorld × Unseen ι (QuotaKind × ObjectId)))
    (hcalled : ∀ who, ∃ call, pool.agents who = .called call)
    (h : WithinQuotas cfg user pool.shared.1) (events : List (ι × DomainOutside)) :
    (∀ t ∈ List.scanl (Pool.step (recorded (recordInserts cfg) (CreatePhase.move cfg))) pool events,
      WithinQuotas cfg user t.shared.1) ↔
      Run.Guarded (Pool.step (recorded (recordInserts cfg) (CreatePhase.move cfg))) (FindsRoom cfg user)
        pool events := by
  refine Run.forall_mem_scanl_iff_of_invariant
    (fun t : Pool ι CreatePhase (QuotaWorld × Unseen ι (QuotaKind × ObjectId)) =>
      ∀ who, Relies (LeavesRoom cfg) t.shared.2 who (t.agents who) t.shared.1)
    (fun t event hrelies hwithin hnext => (withinQuotas_step t event hrelies hwithin).1 hnext)
    (fun t event hrelies hwithin hroom =>
      ⟨relies_step t event hrelies, (withinQuotas_step t event hrelies hwithin).2 hroom⟩)
    (fun who key _ hcounted => ?_) h
  obtain ⟨call, hcall⟩ := hcalled who
  rw [hcall] at hcounted
  cases hcounted

/-- Tokens that tell how many were drawn before. -/
def countedKeys : ApiKeyLib where
  generateSecureToken n := String.ofList (Nat.toDigits 10 n)
  hashToken raw := "hash of " ++ raw

/-- The services with their defaults. -/
def defaultQuotas : QuotaConfig where
  apiKeyLib := countedKeys
  tagLib := ⟨id⟩
  webhookLib := plainLib
  domains := cnameConfig

/-- One call for each of two names, by a user who has nothing. -/
def twoDomains : Pool Bool CreatePhase (QuotaWorld × Unseen Bool (QuotaKind × ObjectId)) where
  agents who := .called (.domain (if who then "go.example" else "to.example") 1)
  shared := ({
    keys := ⟨.empty, 0, 0⟩
    tags := ⟨.empty, .empty, 0, 0⟩
    webhooks := { endpoints := .empty, deliveries := .empty, events := .empty, clock := 0, issued := 0 }
    domains := ⟨.empty, 0, 0⟩ }, fun _ _ => false)

/-- The moves of the two calls. -/
def domainTurns (order : List Bool) : List (Bool × DomainOutside) := order.map (·, {})

/-- One call after the other, and the second is refused. -/
theorem quotas_held_iff_room_inTurn :
    WithinQuotas defaultQuotas 1 twoDomains.shared.1 ∧
    ((∀ t ∈ List.scanl (Pool.step (recorded (recordInserts defaultQuotas) (CreatePhase.move defaultQuotas)))
        twoDomains (domainTurns [true, true, true, true, true, true, false, false, false, false]),
        WithinQuotas defaultQuotas 1 t.shared.1) ↔
      Run.Guarded (Pool.step (recorded (recordInserts defaultQuotas) (CreatePhase.move defaultQuotas)))
        (FindsRoom defaultQuotas 1) twoDomains
        (domainTurns [true, true, true, true, true, true, false, false, false, false])) :=
  ⟨by decide +kernel, quotas_held_iff_room twoDomains (fun _ => ⟨_, rfl⟩) (by decide +kernel) _⟩

/-- Both count before either inserts, and the user has two domains of one. -/
theorem quota_exceeded_countedTwice :
    WithinQuotas defaultQuotas 1 twoDomains.shared.1 ∧
    ¬ ∀ t ∈ List.scanl (Pool.step (recorded (recordInserts defaultQuotas)
        (CreatePhase.move defaultQuotas))) twoDomains
        (domainTurns [true, true, true, false, false, false, true, false]),
      WithinQuotas defaultQuotas 1 t.shared.1 := by
  decide +kernel

end Spoo
