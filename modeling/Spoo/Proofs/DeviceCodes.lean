import Spoo.Services.Auth.Device

/-!
# What a device code is good for

A log goes along with a run: what each exchange and each refresh has seen of the store, and what it was
given in the end. A pair of tokens is traced back through it to the checks that were passed for it.
-/

namespace Spoo

open Agents Mongo Mongo.Collection DeviceAuthService

variable {ι : Type}

/-- What the collections do not keep. -/
inductive DeviceEntry (ι : Type) where
  /-- An exchange or a refresh begins. -/
  | started (who : ι)
  | consumed (who : ι) (doc : VerificationTokenDoc)
  /-- The account, as it was stored when it was looked up. -/
  | userIs (who : ι) (user : Option UserDoc)
  /-- The active grant that was stored when it was looked up. -/
  | grantIs (who : ι) (grant : Option AppGrantDoc)
  | minted (who : ι) (source : MintSource) (pair : TokenPair)
  | granted (userId : ObjectId) (appId : String)
  | revoked (userId : ObjectId) (appId : String)
  deriving DecidableEq

/-- The client of an entry. -/
def DeviceEntry.client : DeviceEntry ι → Option ι
  | .started who => some who
  | .consumed who _ => some who
  | .userIs who _ => some who
  | .grantIs who _ => some who
  | .minted who _ _ => some who
  | .granted .. => none
  | .revoked .. => none

/-- The newest entry first. -/
abbrev DeviceLog (ι : Type) := List (DeviceEntry ι)

/-- What a move of a client adds. -/
def recordClient (who : ι) (phase : ClientPhase) (s : DeviceWorld) (moved : ClientPhase)
    (log : DeviceLog ι) : DeviceLog ι :=
  match phase, moved with
  | .idle _, .idle _ => log
  | .idle _, _ => .started who :: log
  | .consuming .., .findingUser (.code doc _) => .consumed who doc :: log
  | .findingUser source, .idle (some (.issued pair)) =>
    .minted who source pair :: .userIs who (s.users.lookup source.userId) :: log
  | .findingUser source, _ => .userIs who (s.users.lookup source.userId) :: log
  | .findingGrant _ user appId, _ =>
    .grantIs who (AppGrantRepository.findActiveGrant s.grants user.id appId) :: log
  | .touching source .., .idle (some (.issued pair)) => .minted who source pair :: log
  | _, _ => log

/-- What a move of an owner adds. -/
def recordOwner (choice : DeviceChoice) (action moved : OwnerAction) (log : DeviceLog ι) : DeviceLog ι :=
  match action, choice, moved with
  | .idle, .consent userId _ appId _, .clearingCodes .. => .granted userId appId :: log
  | .idle, .revoke userId appId, .revokingTokens .. => .revoked userId appId :: log
  | _, _, _ => log

/-- What a move adds to the log. -/
def recordDevice (who : ι) (answer : DeviceAnswer) (agent : DeviceAgent) (s : DeviceWorld)
    (moved : DeviceAgent × DeviceWorld) (log : DeviceLog ι) : DeviceLog ι :=
  match agent, moved.1 with
  | .client phase, .client phase' => recordClient who phase s phase' log
  | .owner action, .owner action' => recordOwner answer.choice action action' log
  | _, _ => log

/-- The codes that tokens were given for. -/
def mintedCodes (log : DeviceLog ι) : List ObjectId :=
  log.filterMap fun entry =>
    match entry with
    | .minted _ (.code doc _) _ => some doc.id
    | _ => none

/-- The codes that were consumed for an exchange. -/
def consumedCodes (log : DeviceLog ι) : List ObjectId :=
  log.filterMap fun entry =>
    match entry with
    | .consumed _ doc => some doc.id
    | _ => none

/-- The code is bound to an app, as those are that the routes ask for. -/
def IsAppCode (doc : VerificationTokenDoc) : Prop := ∃ appId, doc.appId = some appId ∧ appId ≠ ""

/-! ## What a move does -/

section

/-- What an exchange or a refresh has logged before it looks for the account. -/
def sourceTrail (who : ι) : MintSource → DeviceLog ι
  | .code doc _ => [.consumed who doc, .started who]
  | .refresh _ => [.started who]
  | .session _ => [.started who]

/-- What is checked before the account is looked for. -/
def SourceChecked (lib : DeviceLib) : MintSource → Prop
  | .code doc codeVerifier => verifierMatches lib doc codeVerifier = true
  | .refresh _ => True
  | .session claims => truthy claims.appId = none

/-- What becomes of the tokens of the collection in a move of a client: some are consumed. -/
def TokensUsed (tokens tokens' : TokenStore) : Prop :=
  ∀ doc' ∈ tokens'.docs, ∃ doc ∈ tokens.docs, doc'.id = doc.id ∧ doc'.tokenType = doc.tokenType ∧
    doc'.appId = doc.appId ∧ (doc.usedAt ≠ none → doc'.usedAt ≠ none)

/-- What a client can do. -/
inductive ClientMoved (lib : DeviceLib) (cfg : DeviceConfig) (who : ι) (s : DeviceWorld)
    (log : DeviceLog ι) : ClientPhase → ClientPhase → DeviceWorld → DeviceLog ι → Prop
  | rests {phase last tokens} (hused : TokensUsed s.tokens tokens) :
      ClientMoved lib cfg who s log phase (.idle last) { s with tokens } log
  | exchanges (last : Option DeviceOutcome) (code codeVerifier : String) :
      ClientMoved lib cfg who s log (.idle last) (.consuming code codeVerifier) s
        (.started who :: log)
  | presents (last : Option DeviceOutcome) (source : MintSource)
      (htrail : sourceTrail who source = [.started who]) (hchecked : SourceChecked lib source) :
      ClientMoved lib cfg who s log (.idle last) (.findingUser source) s (.started who :: log)
  | consumes (code codeVerifier : String) (doc : VerificationTokenDoc) (tokens : TokenStore)
      (hconsume : TokenRepository.consumeByHash s.tokens (lib.hashToken code) .deviceAuth s.clock =
        (some doc, tokens)) (hchecked : SourceChecked lib (.code doc codeVerifier)) :
      ClientMoved lib cfg who s log (.consuming code codeVerifier)
        (.findingUser (.code doc codeVerifier)) { s with tokens } (.consumed who doc :: log)
  | missesUser (source : MintSource) (last : Option DeviceOutcome) :
      ClientMoved lib cfg who s log (.findingUser source) (.idle last) s
        (.userIs who (s.users.lookup source.userId) :: log)
  | mintsPlain (source : MintSource) (user : UserDoc) (hnone : source.appId = none)
      (huser : s.users.lookup source.userId = some user) (hactive : user.status = .active) :
      ClientMoved lib cfg who s log (.findingUser source)
        (.idle (some (.issued (mint cfg source user none s)))) s
        (.minted who source (mint cfg source user none s) :: .userIs who (some user) :: log)
  | findsUser (source : MintSource) (user : UserDoc) (appId : String)
      (happ : source.appId = some appId) (huser : s.users.lookup source.userId = some user)
      (hactive : user.status = .active) :
      ClientMoved lib cfg who s log (.findingUser source) (.findingGrant source user appId) s
        (.userIs who (some user) :: log)
  | missesGrant (source : MintSource) (user : UserDoc) (appId : String)
      (last : Option DeviceOutcome) :
      ClientMoved lib cfg who s log (.findingGrant source user appId) (.idle last) s
        (.grantIs who (AppGrantRepository.findActiveGrant s.grants user.id appId) :: log)
  | findsGrant (source : MintSource) (user : UserDoc) (appId : String) (grant : AppGrantDoc)
      (hgrant : AppGrantRepository.findActiveGrant s.grants user.id appId = some grant) :
      ClientMoved lib cfg who s log (.findingGrant source user appId)
        (.touching source user appId (resolveEffectiveScopes cfg grant)) s
        (.grantIs who (some grant) :: log)
  | mintsScoped (source : MintSource) (user : UserDoc) (appId : String)
      (scopes : Option (List String)) (grants : GrantStore)
      (hgrants : grants = s.grants ∨
        grants = AppGrantRepository.touchLastUsed s.grants user.id appId s.clock) :
      ClientMoved lib cfg who s log (.touching source user appId scopes)
        (.idle (some (.issued (mint cfg source user scopes s)))) { s with grants }
        (.minted who source (mint cfg source user scopes s) :: log)

theorem tokensUsed_refl (tokens : TokenStore) : TokensUsed tokens tokens :=
  fun doc hdoc => ⟨doc, hdoc, rfl, rfl, rfl, id⟩

theorem tokensUsed_consumeByHash (tokens : TokenStore) (tokenHash : String) (tokenType : TokenType)
    (now : Int) :
    TokensUsed tokens (TokenRepository.consumeByHash tokens tokenHash tokenType now).2 := by
  unfold TokenRepository.consumeByHash
  split
  · exact tokensUsed_refl tokens
  · intro doc' hdoc'
    obtain ⟨doc, hdoc, rfl⟩ := mem_updateMany.1 hdoc'
    refine ⟨doc, hdoc, ?_⟩
    unfold applyWhere
    split
    · exact ⟨rfl, rfl, rfl, fun _ h => by cases h⟩
    · exact ⟨rfl, rfl, rfl, id⟩

variable {lib : DeviceLib} {cfg : DeviceConfig} {begun : GrantStore}

theorem clientMoved_stays (who : ι) (phase : ClientPhase) (last : Option DeviceOutcome) (s : DeviceWorld)
    (log : DeviceLog ι) : ClientMoved lib cfg who s log phase (.idle last) s log := by
  have hmoved : ClientMoved lib cfg who s log phase (.idle last) { s with tokens := s.tokens } log :=
    .rests (tokensUsed_refl _)
  exact hmoved

theorem clientMoved_move (who : ι) (choice : DeviceChoice) (phase : ClientPhase) (s : DeviceWorld)
    (log : DeviceLog ι) :
    ClientMoved lib cfg who s log phase (move lib cfg choice phase s).1 (move lib cfg choice phase s).2
      (recordClient who phase s (move lib cfg choice phase s).1 log) := by
  have hsame (last : Option DeviceOutcome) {phase : ClientPhase} :
      ClientMoved lib cfg who s log phase (.idle last) s log := clientMoved_stays who phase last s log
  cases phase with
  | idle last =>
    cases choice with
    | exchange code codeVerifier => exact .exchanges last code codeVerifier
    | refresh claims =>
      simp only [move]
      split_ifs
      · exact .presents last (.refresh claims) rfl trivial
      · exact hsame _
    | sessionRefresh claims =>
      simp only [move]
      split_ifs with h
      · exact .presents last (.session claims) rfl h.2
      · exact hsame _
    | _ => exact hsame _
  | consuming code codeVerifier =>
    simp only [move]
    split
    · exact hsame _
    · rename_i doc tokens hconsume
      split_ifs with hmatches
      · exact .consumes code codeVerifier doc tokens hconsume hmatches
      · have hused : TokensUsed s.tokens tokens := by
          have := tokensUsed_consumeByHash s.tokens (lib.hashToken code) .deviceAuth s.clock
          rwa [hconsume] at this
        exact .rests hused
  | findingUser source =>
    simp only [move]
    split
    · exact .missesUser source _
    · rename_i user huser
      split_ifs with hinactive
      · exact .missesUser source _
      · have hactive : user.status = .active := not_not.1 hinactive
        split
        · rename_i hnone
          rw [recordClient, huser]
          exact .mintsPlain source user hnone huser hactive
        · rename_i appId happ
          rw [recordClient, huser]
          · exact .findsUser source user appId happ huser hactive
          · exact fun pair h => by cases h
  | findingGrant source user appId =>
    simp only [move]
    split
    · exact .missesGrant source user appId _
    · rename_i grant hgrant
      rw [recordClient, hgrant]
      exact .findsGrant source user appId grant hgrant
  | touching source user appId scopes =>
    simp only [move]
    split_ifs
    · exact .mintsScoped source user appId scopes s.grants (.inl rfl)
    · exact .mintsScoped source user appId scopes _ (.inr rfl)

/-- A read leaves the world as it is, whatever becomes of it. -/
theorem world_move_findingUser (choice : DeviceChoice) (source : MintSource) (s : DeviceWorld) :
    (move lib cfg choice (.findingUser source) s).2 = s := by
  simp only [move]
  split
  · rfl
  · split_ifs
    · rfl
    · split <;> rfl

theorem world_move_findingGrant (choice : DeviceChoice) (source : MintSource) (user : UserDoc)
    (appId : String) (s : DeviceWorld) :
    (move lib cfg choice (.findingGrant source user appId) s).2 = s := by
  simp only [move]
  split <;> rfl

theorem world_move_consuming (choice : DeviceChoice) (code codeVerifier : String) (s : DeviceWorld) :
    (move lib cfg choice (.consuming code codeVerifier) s).2 = { s with
      tokens :=
        (TokenRepository.consumeByHash s.tokens (lib.hashToken code) .deviceAuth s.clock).2 } := by
  simp only [move]
  split
  · rename_i tokens hconsume
    have hsame : (TokenRepository.consumeByHash s.tokens (lib.hashToken code) .deviceAuth
        s.clock).2 = s.tokens := by
      unfold TokenRepository.consumeByHash at hconsume ⊢
      split at hconsume
      · rfl
      · cases hconsume
    rw [hsame]
  · rename_i doc tokens hconsume
    rw [hconsume]
    split_ifs <;> rfl

/-- A call that fails, before its effect or after it. -/
theorem clientMoved_failed (who : ι) (phase : ClientPhase) {s s' : DeviceWorld} (log : DeviceLog ι)
    (hs' : s' = s ∨ s' = (move lib cfg .failAfter phase s).2)
    (hphase : ∀ source user appId scopes, phase ≠ .touching source user appId scopes) :
    ClientMoved lib cfg who s log phase (afterFailure phase) s'
      (recordClient who phase s (afterFailure phase) log) := by
  cases phase with
  | idle last =>
    have hsame : s' = s := by rcases hs' with h | h <;> exact h
    subst hsame
    exact clientMoved_stays who _ _ _ log
  | consuming code codeVerifier =>
    rw [world_move_consuming] at hs'
    obtain rfl | rfl := hs'
    · exact clientMoved_stays who _ _ _ log
    · exact .rests (tokensUsed_consumeByHash s.tokens (lib.hashToken code) .deviceAuth s.clock)
  | findingUser source =>
    rw [world_move_findingUser, or_self] at hs'
    subst hs'
    exact .missesUser source _
  | findingGrant source user appId =>
    rw [world_move_findingGrant, or_self] at hs'
    subst hs'
    exact .missesGrant source user appId _
  | touching source user appId scopes => exact absurd rfl (hphase _ _ _ _)

theorem clientMoved_act (who : ι) (choice : DeviceChoice) (phase : ClientPhase) (s : DeviceWorld)
    (log : DeviceLog ι) :
    ClientMoved lib cfg who s log phase (act lib cfg choice phase s).1 (act lib cfg choice phase s).2
      (recordClient who phase s (act lib cfg choice phase s).1 log) := by
  unfold act
  split
  · exact clientMoved_move who choice _ s log
  · rename_i hphase
    exact clientMoved_failed who phase log (.inl rfl) hphase
  · rename_i hphase
    exact clientMoved_failed who phase log (.inr rfl) hphase
  · exact clientMoved_move who choice phase s log

/-- What an owner can do. -/
inductive OwnerMoved (lib : DeviceLib) (s : DeviceWorld) (log : DeviceLog ι) :
    OwnerAction → OwnerAction → DeviceWorld → DeviceLog ι → Prop
  | stays (action : OwnerAction) : OwnerMoved lib s log action .idle s log
  | asks (userId : ObjectId) (email appId codeChallenge : String) (happ : appId ≠ "") :
      OwnerMoved lib s log .idle (.clearingCodes userId email appId codeChallenge) s log
  | consents (userId : ObjectId) (email appId codeChallenge : String)
      (scopes : Option (List String)) (grants : GrantStore) (happ : appId ≠ "")
      (hgrants : AppGrantRepository.createOrReactivate s.grants userId appId s.issued scopes s.clock =
        some grants) :
      OwnerMoved lib s log .idle (.clearingCodes userId email appId codeChallenge)
        { s with grants, issued := s.issued + 1 } (.granted userId appId :: log)
  | revokes (userId : ObjectId) (appId : String) :
      OwnerMoved lib s log .idle (.revokingTokens userId appId)
        { s with grants := (AppGrantRepository.revoke s.grants userId appId s.clock).2 }
        (.revoked userId appId :: log)
  | changes (users : UserStore) : OwnerMoved lib s log .idle .idle { s with users } log
  | clears (userId : ObjectId) (email appId codeChallenge : String) (q : VerificationTokenDoc → Bool) :
      OwnerMoved lib s log (.clearingCodes userId email appId codeChallenge)
        (.creatingCode userId email appId codeChallenge) { s with tokens := s.tokens.deleteMany q } log
  | deletes (action : OwnerAction) (q : VerificationTokenDoc → Bool) :
      OwnerMoved lib s log action .idle { s with tokens := s.tokens.deleteMany q } log
  | creates (userId : ObjectId) (email appId codeChallenge : String) (tokens : TokenStore)
      (hcreate : TokenRepository.create s.tokens (deviceCode lib userId email appId codeChallenge s) =
        some tokens) :
      OwnerMoved lib s log (.creatingCode userId email appId codeChallenge) .idle
        { s with tokens, issued := s.issued + 1 } log

theorem appId_ne_of_resolveApp {appId : String} (h : (resolveApp cfg appId).isSome) : appId ≠ "" := by
  rintro rfl
  simp [resolveApp] at h

theorem ownerMoved_ownerMove (choice : DeviceChoice) (action : OwnerAction) (s : DeviceWorld)
    (log : DeviceLog ι) :
    OwnerMoved lib s log action (ownerMove lib cfg choice action s).1
      (ownerMove lib cfg choice action s).2
      (recordOwner choice action (ownerMove lib cfg choice action s).1 log) := by
  cases action with
  | idle =>
    cases choice with
    | login userId email appId codeChallenge =>
      simp only [ownerMove]
      split_ifs with h
      · exact .asks userId email appId codeChallenge (appId_ne_of_resolveApp h.1)
      · exact .stays _
    | consent userId email appId codeChallenge =>
      simp only [ownerMove]
      split
      · exact .stays _
      · rename_i app happ
        split
        · exact .stays _
        · rename_i grants hgrants
          exact .consents userId email appId codeChallenge _ grants
            (appId_ne_of_resolveApp (Option.isSome_of_eq_some happ)) hgrants
    | revoke userId appId =>
      simp only [ownerMove]
      split
      · rename_i grants hrevoke
        have hgrants : grants = (AppGrantRepository.revoke s.grants userId appId s.clock).2 :=
          (congrArg Prod.snd hrevoke).symm
        rw [hgrants]
        exact .revokes userId appId
      · exact .stays _
    | setStatus userId status => exact .changes _
    | expire tokenId => exact .deletes _ _
    | _ => exact .stays _
  | clearingCodes userId email appId codeChallenge => exact .clears userId email appId codeChallenge _
  | creatingCode userId email appId codeChallenge =>
    simp only [ownerMove]
    split
    · exact .stays _
    · rename_i tokens hcreate
      exact .creates userId email appId codeChallenge tokens hcreate
  | revokingTokens userId appId => exact .deletes _ _

/-! ## The log -/

/-- Whether the user allows the app: as was last logged, or as it was when the log began. -/
def isAllowed (begun : GrantStore) (userId : ObjectId) (appId : String) : DeviceLog ι → Bool
  | [] => (AppGrantRepository.findActiveGrant begun userId appId).isSome
  | .granted user app :: log =>
    if user = userId ∧ app = appId then true else isAllowed begun userId appId log
  | .revoked user app :: log =>
    if user = userId ∧ app = appId then false else isAllowed begun userId appId log
  | _ :: log => isAllowed begun userId appId log

/-- The app had been revoked when the client began, and has not been allowed since. -/
def RevokedBefore (begun : GrantStore) (who : ι) (userId : ObjectId) (appId : String)
    (log : DeviceLog ι) : Prop :=
  ∃ newer older, log = newer ++ .started who :: older ∧ .started who ∉ newer ∧
    .granted userId appId ∉ newer ∧ isAllowed begun userId appId older = false

theorem isAllowed_cons_of_client {userId : ObjectId} {appId : String} {entry : DeviceEntry ι}
    {log : DeviceLog ι} (h : entry.client ≠ none) :
    isAllowed begun userId appId (entry :: log) = isAllowed begun userId appId log := by
  cases entry with
  | granted => exact absurd rfl h
  | revoked => exact absurd rfl h
  | _ => rfl

/-- Entries of others leave it so that the app is not revoked before the client begins. -/
theorem not_revokedBefore_cons {who : ι} {userId : ObjectId} {appId : String} {entry : DeviceEntry ι}
    {log : DeviceLog ι} (h : ¬ RevokedBefore begun who userId appId log) (hentry : entry ≠ .started who) :
    ¬ RevokedBefore begun who userId appId (entry :: log) := by
  rintro ⟨newer, older, heq, hstarted, hgranted, hlast⟩
  cases newer with
  | nil =>
    cases heq
    exact hentry rfl
  | cons first newer =>
    cases heq
    exact h ⟨newer, older, rfl, fun hmem => hstarted (List.mem_cons_of_mem _ hmem),
      fun hmem => hgranted (List.mem_cons_of_mem _ hmem), hlast⟩

/-- Where an app was revoked before a client began and has not been allowed since, it is revoked. -/
theorem RevokedBefore.not_isAllowed {who : ι} {userId : ObjectId} {appId : String}
    {log : DeviceLog ι} (h : RevokedBefore begun who userId appId log) :
    isAllowed begun userId appId log = false := by
  obtain ⟨newer, older, rfl, -, hgranted, hlast⟩ := h
  induction newer with
  | nil => exact hlast
  | cons entry newer ih =>
    have hrest := ih fun hmem => hgranted (List.mem_cons_of_mem _ hmem)
    cases entry with
    | granted user app =>
      have hother : ¬(user = userId ∧ app = appId) := by
        rintro ⟨rfl, rfl⟩
        exact hgranted List.mem_cons_self
      rw [List.cons_append, isAllowed]
      simp only [hother, if_false]
      exact hrest
    | revoked user app =>
      rw [List.cons_append, isAllowed]
      by_cases hsame : user = userId ∧ app = appId
      · simp [hsame]
      · simp only [hsame, if_false]
        exact hrest
    | _ => exact hrest

variable [DecidableEq ι]

/-- The entries of a client. -/
def DeviceLog.of (log : DeviceLog ι) (who : ι) : DeviceLog ι :=
  log.filter fun entry => entry.client = some who

/-- The code that tokens are asked for with. -/
def MintSource.codeId : MintSource → Option ObjectId
  | .code doc _ => some doc.id
  | _ => none

/-- What a pair of tokens was made of, and what the client had seen. -/
inductive Backed (lib : DeviceLib) (cfg : DeviceConfig) (begun : GrantStore) (who : ι)
    (source : MintSource) (pair : TokenPair) (older : DeviceLog ι) : Prop
  | withoutApp (user : UserDoc) (rest : DeviceLog ι) (now : Int) (hchecked : SourceChecked lib source)
      (hnone : source.appId = none) (hcode : source.codeId = none) (hid : user.id = source.userId)
      (hactive : user.status = .active)
      (htrail : older.of who = .userIs who (some user) :: sourceTrail who source ++ rest)
      (hpair : pair = TokenFactory.issueTokens cfg.jwt user source.amr source.appId none now)
  | withApp (user : UserDoc) (appId : String) (grant : AppGrantDoc) (rest : DeviceLog ι) (now : Int)
      (hchecked : SourceChecked lib source) (happ : source.appId = some appId)
      (hid : user.id = source.userId) (hactive : user.status = .active)
      (hgrant : AppGrantRepository.isActive user.id appId grant = true)
      (htrail : older.of who =
        .grantIs who (some grant) :: .userIs who (some user) :: sourceTrail who source ++ rest)
      (hrevoked : ¬ RevokedBefore begun who user.id appId older)
      (hpair : pair = TokenFactory.issueTokens cfg.jwt user source.amr source.appId
        (resolveEffectiveScopes cfg grant) now)

/-- Every pair of tokens is backed by what was logged before it. -/
def MintsBacked (lib : DeviceLib) (cfg : DeviceConfig) (begun : GrantStore) (log : DeviceLog ι) : Prop :=
  ∀ who source pair older, .minted who source pair :: older <:+ log →
    Backed lib cfg begun who source pair older

theorem of_cons_self (who : ι) {entry : DeviceEntry ι} {log : DeviceLog ι}
    (h : entry.client = some who) : DeviceLog.of (entry :: log) who = entry :: log.of who :=
  List.filter_cons_of_pos (by simp [h])

theorem of_cons_of_ne {who : ι} {entry : DeviceEntry ι} {log : DeviceLog ι}
    (h : entry.client ≠ some who) : DeviceLog.of (entry :: log) who = log.of who :=
  List.filter_cons_of_neg (by simp [h])

theorem MintsBacked.cons {log : DeviceLog ι} (h : MintsBacked lib cfg begun log)
    {entry : DeviceEntry ι} (hentry : ∀ who source pair, entry = .minted who source pair →
      Backed lib cfg begun who source pair log) :
    MintsBacked lib cfg begun (entry :: log) := by
  intro who source pair older hsuffix
  rcases List.suffix_cons_iff.1 hsuffix with heq | hsuffix
  · cases heq
    exact hentry who source pair rfl
  · exact h who source pair older hsuffix

/-! ## Invariants -/

/-- What a client asks for tokens with. -/
def ClientPhase.source : ClientPhase → Option MintSource
  | .findingUser source => some source
  | .findingGrant source _ _ => some source
  | .touching source _ _ _ => some source
  | _ => none

/-- The code that an agent has consumed and not yet been answered for. -/
def DeviceAgent.heldCode : DeviceAgent → Option ObjectId
  | .client phase => phase.source.bind (·.codeId)
  | .owner _ => none

/-- No two agents have one code. -/
def CodesApart (a b : DeviceAgent) : Prop := ∀ id, a.heldCode = some id → b.heldCode ≠ some id

/-- What holds of the collections and the log between the moves. -/
structure DeviceKept (lib : DeviceLib) (cfg : DeviceConfig) (begun : GrantStore)
    (s : DeviceWorld × DeviceLog ι) : Prop where
  ids : ∀ doc ∈ s.1.tokens.docs, doc.id < s.1.issued
  bound : ∀ doc ∈ s.1.tokens.docs, doc.tokenType = .deviceAuth → IsAppCode doc
  spent : ∀ id ∈ consumedCodes s.2, id < s.1.issued ∧
    ∀ doc ∈ s.1.tokens.docs, doc.id = id → doc.usedAt ≠ none
  consumed : ∀ id ∈ mintedCodes s.2, id ∈ consumedCodes s.2
  once : (mintedCodes s.2).Nodup
  revoked : ∀ userId appId, isAllowed begun userId appId s.2 = false →
    AppGrantRepository.findActiveGrant s.1.grants userId appId = none
  backed : MintsBacked lib cfg begun s.2

/-- The code of a client, if it has one, is consumed and has not been answered with tokens. -/
def CodeInHand (source : MintSource) (log : DeviceLog ι) : Prop :=
  ∀ doc codeVerifier, source = .code doc codeVerifier →
    IsAppCode doc ∧ doc.id ∈ consumedCodes log ∧ doc.id ∉ mintedCodes log

/-- What a client has seen so far. -/
def ClientTrail (lib : DeviceLib) (cfg : DeviceConfig) (begun : GrantStore) (who : ι) (phase : ClientPhase)
    (log : DeviceLog ι) : Prop :=
  match phase with
  | .idle _ => True
  | .consuming .. => ∃ rest, log.of who = .started who :: rest
  | .findingUser source =>
    SourceChecked lib source ∧ CodeInHand source log ∧ ∃ rest, log.of who = sourceTrail who source ++ rest
  | .findingGrant source user appId =>
    SourceChecked lib source ∧ CodeInHand source log ∧ source.appId = some appId ∧
      user.id = source.userId ∧ user.status = .active ∧
      ∃ rest, log.of who = .userIs who (some user) :: sourceTrail who source ++ rest
  | .touching source user appId scopes =>
    SourceChecked lib source ∧ CodeInHand source log ∧ source.appId = some appId ∧
      user.id = source.userId ∧ user.status = .active ∧
      ∃ grant rest, AppGrantRepository.isActive user.id appId grant = true ∧
        scopes = resolveEffectiveScopes cfg grant ∧ ¬ RevokedBefore begun who user.id appId log ∧
        log.of who =
          .grantIs who (some grant) :: .userIs who (some user) :: sourceTrail who source ++ rest

/-- The codes that an owner asks for are bound to an app. -/
def AsksForApp : OwnerAction → Prop
  | .clearingCodes _ _ appId _ => appId ≠ ""
  | .creatingCode _ _ appId _ => appId ≠ ""
  | _ => True

/-- What an agent knows. -/
def DeviceKnows (lib : DeviceLib) (cfg : DeviceConfig) (begun : GrantStore) (who : ι) (agent : DeviceAgent)
    (s : DeviceWorld × DeviceLog ι) : Prop :=
  match agent with
  | .client phase => ClientTrail lib cfg begun who phase s.2
  | .owner action => AsksForApp action

/-- What a client knows stays so, as long as its own entries stay and its code is not answered. -/
theorem ClientTrail.mono {who : ι} {phase : ClientPhase} {log log' : DeviceLog ι}
    (h : ClientTrail lib cfg begun who phase log) (hof : log'.of who = log.of who)
    (hcode : ∀ source, phase.source = some source → CodeInHand source log → CodeInHand source log')
    (hrevoked : ∀ userId appId, ¬ RevokedBefore begun who userId appId log →
      ¬ RevokedBefore begun who userId appId log') : ClientTrail lib cfg begun who phase log' := by
  cases phase with
  | idle => trivial
  | consuming =>
    rw [ClientTrail, hof]
    exact h
  | findingUser source =>
    obtain ⟨hchecked, hhand, htrail⟩ := h
    exact ⟨hchecked, hcode source rfl hhand, by rwa [hof]⟩
  | findingGrant source user appId =>
    obtain ⟨hchecked, hhand, happ, hid, hactive, htrail⟩ := h
    exact ⟨hchecked, hcode source rfl hhand, happ, hid, hactive, by rwa [hof]⟩
  | touching source user appId scopes =>
    obtain ⟨hchecked, hhand, happ, hid, hactive, grant, rest, hgrant, hscopes, hnot, htrail⟩ := h
    exact ⟨hchecked, hcode source rfl hhand, happ, hid, hactive, grant, rest, hgrant, hscopes,
      hrevoked _ _ hnot, by rw [hof, htrail]⟩

omit [DecidableEq ι] in
theorem CodeInHand.cons {source : MintSource} {log : DeviceLog ι} (h : CodeInHand source log)
    {entry : DeviceEntry ι}
    (hentry : ∀ who doc codeVerifier pair, entry = .minted who (.code doc codeVerifier) pair →
      source.codeId ≠ some doc.id) : CodeInHand source (entry :: log) := by
  rintro doc codeVerifier rfl
  obtain ⟨hbound, hconsumed, hminted⟩ := h doc codeVerifier rfl
  refine ⟨hbound, ?_, ?_⟩
  · cases entry with
    | consumed who other => exact List.mem_cons_of_mem _ hconsumed
    | _ => exact hconsumed
  · cases entry with
    | minted who other pair =>
      cases other with
      | code other verifier =>
        intro hmem
        rcases List.mem_cons.1 hmem with heq | hmem
        · exact hentry who other verifier pair rfl (congrArg some heq)
        · exact hminted hmem
      | _ => exact hminted
    | _ => exact hminted

section

variable {who : ι} {s : DeviceWorld} {log : DeviceLog ι}

theorem DeviceKept.wait (h : DeviceKept lib cfg begun (s, log)) (delay : Nat) :
    DeviceKept lib cfg begun (s.wait delay, log) :=
  ⟨h.ids, h.bound, h.spent, h.consumed, h.once, h.revoked, h.backed⟩

theorem DeviceKept.used (h : DeviceKept lib cfg begun (s, log)) {tokens : TokenStore}
    (hused : TokensUsed s.tokens tokens) : DeviceKept lib cfg begun ({ s with tokens }, log) where
  ids doc' hdoc' := by
    obtain ⟨doc, hdoc, hid, -⟩ := hused doc' hdoc'
    exact hid ▸ h.ids doc hdoc
  bound doc' hdoc' htype := by
    obtain ⟨doc, hdoc, -, hsame, happ, -⟩ := hused doc' hdoc'
    rw [IsAppCode, happ]
    exact h.bound doc hdoc (hsame.symm.trans htype)
  spent id hid := by
    obtain ⟨hlt, hspent⟩ := h.spent id hid
    refine ⟨hlt, fun doc' hdoc' hid' => ?_⟩
    obtain ⟨doc, hdoc, hsame, -, -, hkept⟩ := hused doc' hdoc'
    exact hkept (hspent doc hdoc (hsame.symm.trans hid'))
  consumed := h.consumed
  once := h.once
  revoked := h.revoked
  backed := h.backed

/-- An entry that only says what was seen. -/
theorem DeviceKept.cons (h : DeviceKept lib cfg begun (s, log)) {entry : DeviceEntry ι}
    (hentry : (∃ who, entry = .started who) ∨ (∃ who user, entry = .userIs who user) ∨
      ∃ who grant, entry = .grantIs who grant) : DeviceKept lib cfg begun (s, entry :: log) := by
  have hclient : entry.client ≠ none := by
    obtain ⟨who, rfl⟩ | ⟨who, user, rfl⟩ | ⟨who, grant, rfl⟩ := hentry <;> simp [DeviceEntry.client]
  have hconsumed : consumedCodes (entry :: log) = consumedCodes log := by
    obtain ⟨who, rfl⟩ | ⟨who, user, rfl⟩ | ⟨who, grant, rfl⟩ := hentry <;> rfl
  have hminted : mintedCodes (entry :: log) = mintedCodes log := by
    obtain ⟨who, rfl⟩ | ⟨who, user, rfl⟩ | ⟨who, grant, rfl⟩ := hentry <;> rfl
  constructor
  · exact h.ids
  · exact h.bound
  · exact hconsumed.symm ▸ h.spent
  · exact hconsumed.symm ▸ hminted.symm ▸ h.consumed
  · exact hminted.symm ▸ h.once
  · intro userId appId hlast
    exact h.revoked userId appId ((isAllowed_cons_of_client hclient).symm.trans hlast)
  · refine h.backed.cons ?_
    rintro who source pair rfl
    obtain ⟨_, h⟩ | ⟨_, _, h⟩ | ⟨_, _, h⟩ := hentry <;> cases h

/-- A pair that is backed by the log and answers a code for the first time. -/
theorem DeviceKept.mint (h : DeviceKept lib cfg begun (s, log)) {source : MintSource} {pair : TokenPair}
    (hhand : CodeInHand source log) (hbacked : Backed lib cfg begun who source pair log) :
    DeviceKept lib cfg begun (s, .minted who source pair :: log) := by
  have hcodes : mintedCodes (.minted who source pair :: log) = mintedCodes log ∨
      ∃ doc codeVerifier, source = .code doc codeVerifier ∧
        mintedCodes (.minted who source pair :: log) = doc.id :: mintedCodes log := by
    cases source with
    | code doc codeVerifier => exact .inr ⟨doc, codeVerifier, rfl, rfl⟩
    | _ => exact .inl rfl
  constructor
  · exact h.ids
  · exact h.bound
  · exact h.spent
  · intro id hid
    rcases hcodes with heq | ⟨doc, codeVerifier, hsource, heq⟩
    · exact h.consumed id (heq ▸ hid)
    · rw [show (s, DeviceEntry.minted who source pair :: log).2 = .minted who source pair :: log
        from rfl, heq] at hid
      rcases List.mem_cons.1 hid with rfl | hid
      · exact (hhand doc codeVerifier hsource).2.1
      · exact h.consumed id hid
  · rcases hcodes with heq | ⟨doc, codeVerifier, hsource, heq⟩
    · exact heq.symm ▸ h.once
    · rw [heq]
      exact List.nodup_cons.2 ⟨(hhand doc codeVerifier hsource).2.2, h.once⟩
  · exact fun userId appId hlast => h.revoked userId appId hlast
  · refine h.backed.cons ?_
    rintro who' source' pair' heq
    cases heq
    exact hbacked

theorem DeviceKept.touched (h : DeviceKept lib cfg begun (s, log)) {grants : GrantStore}
    {userId : ObjectId} {appId : String} (hgrants : grants = s.grants ∨
      grants = AppGrantRepository.touchLastUsed s.grants userId appId s.clock) :
    DeviceKept lib cfg begun ({ s with grants }, log) := by
  refine ⟨h.ids, h.bound, h.spent, h.consumed, h.once, fun user app hlast => ?_, h.backed⟩
  have hnone := h.revoked user app hlast
  obtain rfl | rfl := hgrants
  · exact hnone
  · refine List.find?_eq_none.2 fun doc' hdoc' => ?_
    obtain ⟨doc, hdoc, rfl⟩ := mem_updateMany.1 hdoc'
    have hinactive := List.find?_eq_none.1 hnone doc hdoc
    unfold applyWhere
    split <;> exact hinactive

/-- The code that is consumed was live, and no token of the collection has its id and is unused. -/
theorem of_consumeByHash {tokens tokens' : TokenStore} {tokenHash : String} {tokenType : TokenType}
    {now : Int} {doc : VerificationTokenDoc}
    (h : TokenRepository.consumeByHash tokens tokenHash tokenType now = (some doc, tokens')) :
    doc ∈ tokens.docs ∧ TokenRepository.isLiveByHash tokenHash tokenType now doc = true ∧
      ∀ other ∈ tokens'.docs, other.id = doc.id → other.usedAt ≠ none := by
  unfold TokenRepository.consumeByHash at h
  split at h
  · cases h
  · rename_i found hfound
    cases h
    have hmem : doc ∈ tokens.docs := List.mem_of_find?_eq_some hfound
    have hlive := List.find?_some hfound
    refine ⟨hmem, hlive, fun other hother hid => ?_⟩
    obtain ⟨before, hbefore, rfl⟩ := mem_updateMany.1 hother
    have hsame : before = doc :=
      List.inj_on_of_nodup_map tokens.nodup_id hbefore hmem ((id_applyWhere _ _ before).symm.trans hid)
    subst hsame
    have hpasses : (decide (before.id = before.id) &&
        TokenRepository.isLiveByHash tokenHash tokenType now before) = true := by simp [hlive]
    unfold applyWhere
    split
    · exact fun hnone => by cases hnone
    · rename_i hnot
      exact absurd hpasses hnot

theorem DeviceKept.consume (h : DeviceKept lib cfg begun (s, log)) (who : ι) {tokens : TokenStore}
    {tokenHash : String} {doc : VerificationTokenDoc}
    (hconsume : TokenRepository.consumeByHash s.tokens tokenHash .deviceAuth s.clock =
      (some doc, tokens)) :
    DeviceKept lib cfg begun ({ s with tokens }, .consumed who doc :: log) ∧ IsAppCode doc ∧
      doc.id ∉ consumedCodes log := by
  obtain ⟨hmem, hlive, hspent⟩ := of_consumeByHash hconsume
  simp only [TokenRepository.isLiveByHash, TokenRepository.isLive, Bool.and_eq_true,
    decide_eq_true_eq] at hlive
  have hused : TokensUsed s.tokens tokens := by
    have := tokensUsed_consumeByHash s.tokens tokenHash .deviceAuth s.clock
    rwa [hconsume] at this
  have hkept := h.used hused
  refine ⟨⟨hkept.ids, hkept.bound, ?_, ?_, hkept.once, ?_, ?_⟩, h.bound doc hmem hlive.1.2, ?_⟩
  · intro id hid
    rcases List.mem_cons.1 hid with rfl | hid
    · exact ⟨h.ids doc hmem, hspent⟩
    · exact hkept.spent id hid
  · exact fun id hid => List.mem_cons_of_mem _ (h.consumed id hid)
  · exact h.revoked
  · exact h.backed.cons (by rintro who source pair ⟨⟩)
  · exact fun hid => (h.spent doc.id hid).2 doc hmem rfl hlive.2.1

variable {phase phase' : ClientPhase} {s' : DeviceWorld} {log' : DeviceLog ι}

theorem backed_plain {source : MintSource} {user : UserDoc}
    (h : ClientTrail lib cfg begun who (.findingUser source) log) (hnone : source.appId = none)
    (huser : s.users.lookup source.userId = some user) (hactive : user.status = .active) :
    Backed lib cfg begun who source (mint cfg source user none s) (.userIs who (some user) :: log) := by
  obtain ⟨hchecked, hhand, rest, htrail⟩ := h
  have hcode : source.codeId = none := by
    cases source with
    | code doc codeVerifier =>
      obtain ⟨appId, happ, hne⟩ := (hhand doc codeVerifier rfl).1
      simp [MintSource.appId, truthy, happ, hne] at hnone
    | _ => rfl
  refine .withoutApp user rest (s.clock / 1000) hchecked hnone hcode (lookup_eq_some_iff.1 huser).2
    hactive ?_ rfl
  rw [of_cons_self who rfl, htrail]
  rfl

theorem backed_scoped {source : MintSource} {user : UserDoc} {appId : String}
    {scopes : Option (List String)}
    (h : ClientTrail lib cfg begun who (.touching source user appId scopes) log) :
    Backed lib cfg begun who source (mint cfg source user scopes s) log := by
  obtain ⟨hchecked, -, happ, hid, hactive, grant, rest, hgrant, rfl, hnot, htrail⟩ := h
  exact .withApp user appId grant rest (s.clock / 1000) hchecked happ hid hactive hgrant htrail hnot rfl

/-- A move of a client keeps the collections and the log in order. -/
theorem ClientMoved.kept (hm : ClientMoved lib cfg who s log phase phase' s' log')
    (h : DeviceKept lib cfg begun (s, log)) (htrail : ClientTrail lib cfg begun who phase log) :
    DeviceKept lib cfg begun (s', log') := by
  cases hm with
  | rests hused => exact h.used hused
  | exchanges => exact h.cons (.inl ⟨who, rfl⟩)
  | presents => exact h.cons (.inl ⟨who, rfl⟩)
  | consumes code codeVerifier doc tokens hconsume => exact (h.consume who hconsume).1
  | missesUser source => exact h.cons (.inr (.inl ⟨who, _, rfl⟩))
  | mintsPlain source user hnone huser hactive =>
    have hhand : CodeInHand source (.userIs who (some user) :: log) :=
      htrail.2.1.cons (by rintro _ _ _ _ ⟨⟩)
    exact (h.cons (.inr (.inl ⟨who, _, rfl⟩))).mint hhand (backed_plain htrail hnone huser hactive)
  | findsUser => exact h.cons (.inr (.inl ⟨who, _, rfl⟩))
  | missesGrant => exact h.cons (.inr (.inr ⟨who, _, rfl⟩))
  | findsGrant => exact h.cons (.inr (.inr ⟨who, _, rfl⟩))
  | mintsScoped source user appId scopes grants hgrants =>
    exact (h.touched hgrants).mint htrail.2.1 (backed_scoped htrail)

/-- A move of a client adds to what it has seen. -/
theorem ClientMoved.trail (hm : ClientMoved lib cfg who s log phase phase' s' log')
    (h : DeviceKept lib cfg begun (s, log)) (htrail : ClientTrail lib cfg begun who phase log) :
    ClientTrail lib cfg begun who phase' log' := by
  cases hm with
  | rests => trivial
  | exchanges => exact ⟨log.of who, of_cons_self who rfl⟩
  | presents last source hstart hchecked =>
    refine ⟨hchecked, ?_, log.of who, ?_⟩
    · rintro doc codeVerifier rfl
      cases hstart
    · rw [of_cons_self who rfl, hstart]
      rfl
  | consumes code codeVerifier doc tokens hconsume hchecked =>
    obtain ⟨rest, hrest⟩ := htrail
    obtain ⟨-, hbound, hnew⟩ := h.consume who hconsume
    refine ⟨hchecked, ?_, rest, ?_⟩
    · rintro doc' codeVerifier' heq
      cases heq
      exact ⟨hbound, List.mem_cons_self, fun hmem => hnew (h.consumed _ hmem)⟩
    · rw [of_cons_self who rfl, hrest]
      rfl
  | missesUser => trivial
  | mintsPlain => trivial
  | findsUser source user appId happ huser hactive =>
    obtain ⟨hchecked, hhand, rest, hrest⟩ := htrail
    refine ⟨hchecked, hhand.cons (by rintro _ _ _ _ ⟨⟩), happ, (lookup_eq_some_iff.1 huser).2, hactive,
      rest, ?_⟩
    rw [of_cons_self who rfl, hrest]
    rfl
  | missesGrant => trivial
  | findsGrant source user appId grant hgrant =>
    obtain ⟨hchecked, hhand, happ, hid, hactive, rest, hrest⟩ := htrail
    refine ⟨hchecked, hhand.cons (by rintro _ _ _ _ ⟨⟩), happ, hid, hactive, grant, rest,
      List.find?_some hgrant, rfl, ?_, ?_⟩
    · -- An app that is allowed now has not been revoked for good.
      intro hbefore
      have hlast := hbefore.not_isAllowed
      rw [isAllowed_cons_of_client (by simp [DeviceEntry.client])] at hlast
      cases (h.revoked user.id appId hlast).symm.trans hgrant
    · rw [of_cons_self who rfl, hrest]
      rfl
  | mintsScoped => trivial

theorem ClientTrail.cons {other : ι} (h : ClientTrail lib cfg begun other phase log) {entry : DeviceEntry ι}
    (hclient : entry.client ≠ some other)
    (hcode : ∀ who doc codeVerifier pair, entry = .minted who (.code doc codeVerifier) pair →
      phase.source.bind (·.codeId) ≠ some doc.id) :
    ClientTrail lib cfg begun other phase (entry :: log) := by
  refine h.mono (of_cons_of_ne hclient) (fun source hsource hhand => hhand.cons ?_)
    fun userId appId hnot => not_revokedBefore_cons hnot ?_
  · intro who doc codeVerifier pair hentry
    have hne := hcode who doc codeVerifier pair hentry
    rwa [hsource] at hne
  · rintro rfl
    exact hclient rfl

/-- A client leaves what the others know. -/
theorem ClientMoved.others (hm : ClientMoved lib cfg who s log phase phase' s' log') {other : ι}
    (hother : other ≠ who) {otherPhase : ClientPhase}
    (hapart : ∀ id, phase.source.bind (·.codeId) = some id →
      otherPhase.source.bind (·.codeId) ≠ some id)
    (h : ClientTrail lib cfg begun other otherPhase log) :
    ClientTrail lib cfg begun other otherPhase log' := by
  have hcons {entry : DeviceEntry ι} (hclient : entry.client = some who)
      (hcode : ∀ who doc codeVerifier pair, entry = .minted who (.code doc codeVerifier) pair →
        otherPhase.source.bind (·.codeId) ≠ some doc.id) {log : DeviceLog ι}
      (h : ClientTrail lib cfg begun other otherPhase log) :
      ClientTrail lib cfg begun other otherPhase (entry :: log) :=
    h.cons (by rw [hclient]; exact fun heq => hother (Option.some.inj heq).symm) hcode
  cases hm with
  | rests => exact h
  | mintsPlain source user =>
    refine hcons rfl ?_ (hcons rfl (by rintro _ _ _ _ ⟨⟩) h)
    rintro _ doc codeVerifier _ heq
    cases heq
    exact hapart doc.id rfl
  | mintsScoped source user appId scopes grants =>
    refine hcons rfl ?_ h
    rintro _ doc codeVerifier _ heq
    cases heq
    exact hapart doc.id rfl
  | _ => exact hcons rfl (by rintro _ _ _ _ ⟨⟩) h

theorem ClientTrail.consumed (h : ClientTrail lib cfg begun who phase log) {id : ObjectId}
    (hheld : phase.source.bind (·.codeId) = some id) : id ∈ consumedCodes log := by
  have hcode {source : MintSource} (hhand : CodeInHand source log) (hid : source.codeId = some id) :
      id ∈ consumedCodes log := by
    cases source with
    | code doc codeVerifier =>
      cases hid
      exact (hhand doc codeVerifier rfl).2.1
    | _ => cases hid
  cases phase with
  | idle => cases hheld
  | consuming => cases hheld
  | findingUser source => exact hcode h.2.1 hheld
  | findingGrant source user appId => exact hcode h.2.1 hheld
  | touching source user appId scopes => exact hcode h.2.1 hheld

/-- A code in the hands of a client was there before, or had never been consumed. -/
theorem ClientMoved.held (hm : ClientMoved lib cfg who s log phase phase' s' log')
    (h : DeviceKept lib cfg begun (s, log)) {id : ObjectId}
    (hheld : phase'.source.bind (·.codeId) = some id) :
    phase.source.bind (·.codeId) = some id ∨ id ∉ consumedCodes log := by
  cases hm with
  | rests => cases hheld
  | exchanges => cases hheld
  | presents last source hstart =>
    cases source with
    | code => cases hstart
    | _ => cases hheld
  | consumes code codeVerifier doc tokens hconsume =>
    cases hheld
    exact .inr (h.consume who hconsume).2.2
  | missesUser => cases hheld
  | mintsPlain => cases hheld
  | findsUser => exact .inl hheld
  | missesGrant => cases hheld
  | findsGrant => exact .inl hheld
  | mintsScoped => cases hheld

end

section

variable {s s' : DeviceWorld} {log log' : DeviceLog ι} {action action' : OwnerAction}

/-- A consent to one app leaves what is revoked for others. -/
theorem findActiveGrant_createOrReactivate {grants grants' : GrantStore} {userId user newId : ObjectId}
    {appId app : String} {scopes : Option (List String)} {now : Int}
    (h : AppGrantRepository.createOrReactivate grants userId appId newId scopes now = some grants')
    (hne : ¬(userId = user ∧ appId = app))
    (hnone : AppGrantRepository.findActiveGrant grants user app = none) :
    AppGrantRepository.findActiveGrant grants' user app = none := by
  have hold := List.find?_eq_none.1 hnone
  have hother {doc : AppGrantDoc} (huser : doc.userId = userId) (happ : doc.appId = appId) :
      ¬AppGrantRepository.isActive user app doc = true := by
    simp only [AppGrantRepository.isActive, Bool.and_eq_true, decide_eq_true_eq, not_and]
    intro hsame
    exact absurd ⟨huser.symm.trans hsame.1, happ.symm.trans hsame.2⟩ hne
  unfold AppGrantRepository.createOrReactivate at h
  split_ifs at h
  · cases h
    refine List.find?_eq_none.2 fun doc' hdoc' => ?_
    obtain ⟨doc, hdoc, rfl⟩ := mem_updateMany.1 hdoc'
    unfold applyWhere
    split
    · rename_i hpasses
      simp only [Bool.and_eq_true, decide_eq_true_eq] at hpasses
      exact hother hpasses.1 hpasses.2
    · exact hold doc hdoc
  · refine List.find?_eq_none.2 fun doc' hdoc' => ?_
    rw [(insertOne_eq_some h).2.2, List.mem_append, List.mem_singleton] at hdoc'
    obtain hdoc' | rfl := hdoc'
    · exact hold doc' hdoc'
    · exact hother rfl rfl

/-- After a revocation no grant of the user and the app is active. -/
theorem findActiveGrant_revoke (grants : GrantStore) (userId : ObjectId) (appId : String) (now : Int) :
    AppGrantRepository.findActiveGrant (AppGrantRepository.revoke grants userId appId now).2 userId
      appId = none := by
  refine List.find?_eq_none.2 fun doc' hdoc' => ?_
  obtain ⟨doc, -, rfl⟩ := mem_updateMany.1 hdoc'
  unfold applyWhere
  split
  · simp [AppGrantRepository.isActive]
  · rename_i hnot
    exact hnot

theorem findActiveGrant_revoke_of_none {grants : GrantStore} {user : ObjectId} {app : String}
    (hnone : AppGrantRepository.findActiveGrant grants user app = none) (userId : ObjectId)
    (appId : String) (now : Int) :
    AppGrantRepository.findActiveGrant (AppGrantRepository.revoke grants userId appId now).2 user app =
      none := by
  refine List.find?_eq_none.2 fun doc' hdoc' => ?_
  obtain ⟨doc, hdoc, rfl⟩ := mem_updateMany.1 hdoc'
  unfold applyWhere
  split
  · simp [AppGrantRepository.isActive]
  · exact List.find?_eq_none.1 hnone doc hdoc

/-- A move of an owner keeps the collections and the log in order. -/
theorem OwnerMoved.kept (hm : OwnerMoved lib s log action action' s' log')
    (h : DeviceKept lib cfg begun (s, log)) (hasks : AsksForApp action) :
    DeviceKept lib cfg begun (s', log') := by
  have hdeleted (q : VerificationTokenDoc → Bool) :
      DeviceKept lib cfg begun ({ s with tokens := s.tokens.deleteMany q }, log) := by
    refine h.used fun doc hdoc => ⟨doc, (List.mem_filter.1 hdoc).1, rfl, rfl, rfl, id⟩
  cases hm with
  | stays => exact h
  | asks => exact h
  | changes => exact ⟨h.ids, h.bound, h.spent, h.consumed, h.once, h.revoked, h.backed⟩
  | clears userId email appId codeChallenge q => exact hdeleted q
  | deletes _ q => exact hdeleted q
  | consents userId email appId codeChallenge scopes grants happ hgrants =>
    refine ⟨fun doc hdoc => Nat.lt_succ_of_lt (h.ids doc hdoc), h.bound, fun id hid => ?_, h.consumed,
      h.once, fun user app hlast => ?_, h.backed.cons (by rintro _ _ _ ⟨⟩)⟩
    · obtain ⟨hlt, hspent⟩ := h.spent id hid
      exact ⟨Nat.lt_succ_of_lt hlt, hspent⟩
    · rw [isAllowed] at hlast
      by_cases hsame : userId = user ∧ appId = app
      · simp [hsame] at hlast
      · simp only [hsame, if_false] at hlast
        exact findActiveGrant_createOrReactivate hgrants hsame (h.revoked user app hlast)
  | revokes userId appId =>
    refine ⟨h.ids, h.bound, h.spent, h.consumed, h.once, fun user app hlast => ?_,
      h.backed.cons (by rintro _ _ _ ⟨⟩)⟩
    rw [isAllowed] at hlast
    by_cases hsame : userId = user ∧ appId = app
    · obtain ⟨rfl, rfl⟩ := hsame
      exact findActiveGrant_revoke ..
    · simp only [hsame, if_false] at hlast
      exact findActiveGrant_revoke_of_none (h.revoked user app hlast) ..
  | creates userId email appId codeChallenge tokens hcreate =>
    have hdocs := (insertOne_eq_some hcreate).2.2
    have hcases {doc : VerificationTokenDoc} (hdoc : doc ∈ tokens.docs) :
        doc ∈ s.tokens.docs ∨ doc = deviceCode lib userId email appId codeChallenge s := by
      rwa [hdocs, List.mem_append, List.mem_singleton] at hdoc
    refine ⟨fun doc hdoc => ?_, fun doc hdoc htype => ?_, fun id hid => ?_, h.consumed, h.once,
      h.revoked, h.backed⟩
    · rcases hcases hdoc with hdoc | rfl
      · exact Nat.lt_succ_of_lt (h.ids doc hdoc)
      · exact Nat.lt_succ_self _
    · rcases hcases hdoc with hdoc | rfl
      · exact h.bound doc hdoc htype
      · exact ⟨appId, rfl, hasks⟩
    · obtain ⟨hlt, hspent⟩ := h.spent id hid
      refine ⟨Nat.lt_succ_of_lt hlt, fun doc hdoc hid' => ?_⟩
      rcases hcases hdoc with hdoc | rfl
      · exact hspent doc hdoc hid'
      · exact absurd hid' (Nat.ne_of_gt hlt)

omit [DecidableEq ι] in
theorem OwnerMoved.asksForApp (hm : OwnerMoved lib s log action action' s' log')
    (hasks : AsksForApp action) : AsksForApp action' := by
  cases hm with
  | asks _ _ _ _ happ => exact happ
  | consents _ _ _ _ _ _ happ => exact happ
  | clears => exact hasks
  | _ => trivial

theorem OwnerMoved.others (hm : OwnerMoved lib s log action action' s' log') {other : ι}
    {phase : ClientPhase} (h : ClientTrail lib cfg begun other phase log) :
    ClientTrail lib cfg begun other phase log' := by
  cases hm with
  | consents => exact h.cons (by rintro ⟨⟩) (by rintro _ _ _ _ ⟨⟩)
  | revokes => exact h.cons (by rintro ⟨⟩) (by rintro _ _ _ _ ⟨⟩)
  | _ => exact h

end

/-! ## Runs -/

omit [DecidableEq ι] in
/-- A client, or an owner, moves. -/
theorem deviceMoved (lib : DeviceLib) (cfg : DeviceConfig) (who : ι) (answer : DeviceAnswer)
    (agent : DeviceAgent) (s : DeviceWorld) (log : DeviceLog ι) :
    (∃ phase phase' s' log', agent = .client phase ∧
      recorded recordDevice (DeviceAgent.move lib cfg) who answer agent (s, log) =
        (.client phase', s', log') ∧
      ClientMoved lib cfg who (s.wait answer.delay) log phase phase' s' log') ∨
    ∃ action action' s' log', agent = .owner action ∧
      recorded recordDevice (DeviceAgent.move lib cfg) who answer agent (s, log) =
        (.owner action', s', log') ∧
      OwnerMoved lib (s.wait answer.delay) log action action' s' log' := by
  cases agent with
  | client phase =>
    exact .inl ⟨phase, _, _, _, rfl, rfl,
      clientMoved_act who answer.choice phase (s.wait answer.delay) log⟩
  | owner action =>
    exact .inr ⟨action, _, _, _, rfl, rfl,
      ownerMoved_ownerMove answer.choice action (s.wait answer.delay) log⟩

/-- What holds between the moves of all agents. -/
structure DeviceSound (lib : DeviceLib) (cfg : DeviceConfig) (begun : GrantStore)
    (pool : Pool ι DeviceAgent (DeviceWorld × DeviceLog ι)) : Prop where
  sound : pool.Sound (DeviceKept lib cfg begun) (DeviceKnows lib cfg begun)
  apart : pool.Pairwise CodesApart

theorem codesApart_symm (a b : DeviceAgent) (h : CodesApart a b) : CodesApart b a :=
  fun id hb ha => h id ha hb

theorem deviceSound_step (pool : Pool ι DeviceAgent (DeviceWorld × DeviceLog ι))
    (event : ι × DeviceAnswer) (h : DeviceSound lib cfg begun pool) :
    DeviceSound lib cfg begun (pool.step (recorded recordDevice (DeviceAgent.move lib cfg)) event) := by
  obtain ⟨⟨hshared, hagents⟩, hapart⟩ := h
  have hkept := DeviceKept.wait hshared event.2.delay
  have hknows := hagents event.1
  rcases deviceMoved lib cfg event.1 event.2 (pool.agents event.1) pool.shared.1 pool.shared.2 with
    ⟨phase, phase', s', log', hagent, hmove, hm⟩ | ⟨action, action', s', log', hagent, hmove, hm⟩
  · rw [hagent] at hknows
    constructor
    · refine Pool.sound_step ?_ ?_ fun j hj => ?_ <;> rw [hmove]
      · exact hm.kept hkept hknows
      · exact hm.trail hkept hknows
      · have hother := hagents j
        cases hphase : pool.agents j with
        | client otherPhase =>
          rw [hphase] at hother
          refine hm.others hj (fun id hid hid' => ?_) hother
          exact hapart event.1 j (Ne.symm hj) id (by rw [hagent]; exact hid) (by rw [hphase]; exact hid')
        | owner otherAction =>
          rw [hphase] at hother
          exact hother
    · refine hapart.step codesApart_symm fun j hj id hheld hheld' => ?_
      rw [hmove] at hheld
      rcases hm.held hkept hheld with hbefore | hnew
      · exact hapart event.1 j (Ne.symm hj) id (by rw [hagent]; exact hbefore) hheld'
      · -- What another has in its hands has been consumed.
        have hother := hagents j
        cases hphase : pool.agents j with
        | client otherPhase =>
          rw [hphase] at hother hheld'
          exact hnew (ClientTrail.consumed hother hheld')
        | owner otherAction =>
          rw [hphase] at hheld'
          cases hheld'
  · rw [hagent] at hknows
    constructor
    · refine Pool.sound_step ?_ ?_ fun j _ => ?_ <;> rw [hmove]
      · exact hm.kept hkept hknows
      · exact hm.asksForApp hknows
      · have hother := hagents j
        cases hphase : pool.agents j with
        | client otherPhase =>
          rw [hphase] at hother
          exact hm.others hother
        | owner otherAction =>
          rw [hphase] at hother
          exact hother
    · refine hapart.step codesApart_symm fun j _ id hheld _ => ?_
      rw [hmove] at hheld
      cases hheld

/-- No exchange and no consent has begun. -/
def DeviceAgent.IsIdle (agent : DeviceAgent) : Prop :=
  (∃ last, agent = .client (.idle last)) ∨ agent = .owner .idle

/-- A run may begin with a collection whose tokens have been drawn before, and whose device codes are
bound to an app, as all are that the routes ask for. -/
structure CanBegin (s : DeviceWorld) : Prop where
  ids : ∀ doc ∈ s.tokens.docs, doc.id < s.issued
  bound : ∀ doc ∈ s.tokens.docs, doc.tokenType = .deviceAuth → IsAppCode doc

variable {pool : Pool ι DeviceAgent (DeviceWorld × DeviceLog ι)}

theorem deviceSound_start (hidle : ∀ who, (pool.agents who).IsIdle) (hlog : pool.shared.2 = [])
    (hbegin : CanBegin pool.shared.1) : DeviceSound lib cfg pool.shared.1.grants pool where
  sound := {
    shared := {
      ids := hbegin.ids
      bound := hbegin.bound
      spent := by simp [hlog, consumedCodes]
      consumed := by simp [hlog, mintedCodes]
      once := by simp [hlog, mintedCodes]
      revoked := by
        intro userId appId hallowed
        rw [hlog, isAllowed, Option.isSome_eq_false_iff, Option.isNone_iff_eq_none] at hallowed
        exact hallowed
      backed := by
        intro who source pair older hsuffix
        rw [hlog] at hsuffix
        cases List.suffix_nil.1 hsuffix }
    agents := by
      intro who
      rcases hidle who with ⟨last, hagent⟩ | hagent <;> rw [hagent] <;> trivial }
  apart := by
    intro i j _ id hheld
    rcases hidle i with ⟨last, hagent⟩ | hagent <;> rw [hagent] at hheld <;> cases hheld

/-- The log of every state of a run is in order. -/
theorem deviceKept_of_mem_scanl (hidle : ∀ who, (pool.agents who).IsIdle) (hlog : pool.shared.2 = [])
    (hbegin : CanBegin pool.shared.1) {events : List (ι × DeviceAnswer)}
    {t : Pool ι DeviceAgent (DeviceWorld × DeviceLog ι)}
    (ht : t ∈ List.scanl (Pool.step (recorded recordDevice (DeviceAgent.move lib cfg))) pool events) :
    DeviceKept lib cfg pool.shared.1.grants t.shared :=
  (Run.forall_mem_scanl_of_step deviceSound_step (deviceSound_start hidle hlog hbegin) t ht).sound.shared

end

theorem challenge_of_verifierMatches {lib : DeviceLib} {doc : VerificationTokenDoc}
    {codeVerifier : String} (h : verifierMatches lib doc codeVerifier = true) :
    ∃ challenge, doc.codeChallenge = some challenge ∧
      lib.pkceS256Challenge codeVerifier = some challenge := by
  unfold verifierMatches at h
  cases hchallenge : truthy doc.codeChallenge with
  | none => simp [hchallenge] at h
  | some challenge =>
    rw [hchallenge, Option.any_some, decide_eq_true_eq] at h
    exact ⟨challenge, (Option.filter_eq_some_iff.1 hchallenge).1, h⟩

/-- In every run no code is answered with tokens twice, and what it is answered for has passed the
checks: the verifier is the one of the challenge, and after the exchange had consumed the code, the
account was stored as active and an active grant of the app was stored. -/
theorem code_minted_once [DecidableEq ι] (lib : DeviceLib) (cfg : DeviceConfig)
    (pool : Pool ι DeviceAgent (DeviceWorld × DeviceLog ι)) (events : List (ι × DeviceAnswer))
    (hidle : ∀ who, (pool.agents who).IsIdle) (hlog : pool.shared.2 = [])
    (hbegin : CanBegin pool.shared.1) :
    ∀ t ∈ List.scanl (Pool.step (recorded recordDevice (DeviceAgent.move lib cfg))) pool events,
      (mintedCodes t.shared.2).Nodup ∧
      ∀ (who : ι) (doc : VerificationTokenDoc) (codeVerifier : String) (pair : TokenPair)
        (older : DeviceLog ι), .minted who (.code doc codeVerifier) pair :: older <:+ t.shared.2 →
        (∃ challenge, doc.codeChallenge = some challenge ∧
          lib.pkceS256Challenge codeVerifier = some challenge) ∧
        ∃ user appId grant rest, doc.appId = some appId ∧
          user.id = doc.userId ∧ user.status = .active ∧
          AppGrantRepository.isActive user.id appId grant = true ∧
          older.of who = .grantIs who (some grant) :: .userIs who (some user) :: .consumed who doc ::
            .started who :: rest := by
  intro t ht
  have hkept := deviceKept_of_mem_scanl hidle hlog hbegin ht
  refine ⟨hkept.once, fun who doc codeVerifier pair older hsuffix => ?_⟩
  cases hkept.backed who _ pair older hsuffix with
  | withoutApp user rest now hchecked hnone hcode => cases hcode
  | withApp user appId grant rest now hchecked happ hid hactive hgrant htrail =>
    constructor
    · exact challenge_of_verifierMatches hchecked
    · exact ⟨user, appId, grant, rest, (Option.filter_eq_some_iff.1 happ).1, hid, hactive, hgrant, htrail⟩

/-- Codes that grow, a hash and a challenge that are the string itself. -/
def plainDevice : DeviceLib where
  generateSecureToken n := String.ofList (List.replicate n 'c')
  hashToken := id
  pkceS256Challenge := some

/-- One app is registered. -/
def oneApp : DeviceConfig where
  appRegistry appId := if appId = "app" then some { status := .live, scopes := ["links:read"] } else none

/-- A user who has allowed the app, and a code of it. -/
def codeStored : Pool Bool DeviceAgent (DeviceWorld × DeviceLog Bool) where
  agents _ := .client (.idle none)
  shared := ({
    users := .single { id := 1, email := "someone@example.com" }
    tokens := .single {
      id := 0
      userId := 1
      email := "someone@example.com"
      tokenHash := "code"
      tokenType := .deviceAuth
      expiresAt := 300000
      codeChallenge := some "verifier"
      appId := some "app" }
    grants := .single { id := 0, userId := 1, appId := "app", grantedAt := 0 }
    clock := 0
    issued := 1 }, [])

theorem canBegin_codeStored : CanBegin codeStored.shared.1 where
  ids := by decide
  bound := by
    intro doc hdoc _
    cases List.mem_singleton.1 hdoc
    exact ⟨"app", rfl, by decide⟩

/-- Both clients exchange the one code at once. -/
def bothExchange : List (Bool × DeviceAnswer) :=
  [(true, ⟨0, .exchange "code" "verifier"⟩), (false, ⟨0, .exchange "code" "verifier"⟩),
    (true, ⟨0, .go⟩), (false, ⟨0, .go⟩), (true, ⟨0, .go⟩), (true, ⟨0, .go⟩), (true, ⟨0, .go⟩)]

theorem code_minted_once_bothExchange :
    (mintedCodes (bothExchange.foldl
      (Pool.step (recorded recordDevice (DeviceAgent.move plainDevice oneApp))) codeStored).shared.2) = [0] ∧
    ∀ t ∈ List.scanl (Pool.step (recorded recordDevice (DeviceAgent.move plainDevice oneApp))) codeStored
        bothExchange,
      (mintedCodes t.shared.2).Nodup ∧
      ∀ (who : Bool) (doc : VerificationTokenDoc) (codeVerifier : String) (pair : TokenPair)
        (older : DeviceLog Bool), .minted who (.code doc codeVerifier) pair :: older <:+ t.shared.2 →
        (∃ challenge, doc.codeChallenge = some challenge ∧
          plainDevice.pkceS256Challenge codeVerifier = some challenge) ∧
        ∃ user appId grant rest, doc.appId = some appId ∧
          user.id = doc.userId ∧ user.status = .active ∧
          AppGrantRepository.isActive user.id appId grant = true ∧
          older.of who = .grantIs who (some grant) :: .userIs who (some user) :: .consumed who doc ::
            .started who :: rest :=
  ⟨by decide +kernel, code_minted_once _ _ _ _ (fun _ => .inl ⟨none, rfl⟩) rfl
    canBegin_codeStored⟩

end Spoo
