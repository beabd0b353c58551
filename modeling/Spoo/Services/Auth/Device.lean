import Spoo.Dependencies.Auth
import Spoo.Lib.Agents
import Spoo.Repositories.AppGrantRepository
import Spoo.Repositories.TokenRepository

/-!
# The device flow (`services/auth/device.py`, `routes/auth/device.py`, `services/auth/credentials.py`)

An app exchanges a code for tokens and rotates them later, while the owner of the account consents to
apps and revokes them. Each access to a collection is a move of its own. Tokens are made in the same
move as the last access, because nothing is awaited in between.
-/

namespace Spoo

open Agents

/-- What the service is built on. -/
structure DeviceLib where
  /-- The codes that `generate_secure_token` yields. -/
  generateSecureToken : Nat → String
  hashToken : String → String
  /-- `pkce_s256_challenge`, none where it raises. -/
  pkceS256Challenge : String → Option String

/-- How the service is set up. -/
structure DeviceConfig where
  jwt : JwtSettings := {}
  appRegistry : String → Option AppEntry

/-- The three collections, the clock, and how many ids and codes have been drawn. -/
structure DeviceWorld where
  users : UserStore
  tokens : TokenStore
  grants : GrantStore
  clock : Int
  issued : Nat

/-- What an exchange or a refresh raises. -/
inductive DeviceError where
  | invalidCode
  | invalidToken
  | userInactive
  | accessRevoked
  /-- The exception of a repository. -/
  | repository
  deriving DecidableEq, Repr

/-- What an exchange or a refresh is answered. -/
inductive DeviceOutcome where
  | issued (pair : TokenPair)
  | refused (error : DeviceError)
  deriving DecidableEq, Repr

/-- What tokens are asked for with. -/
inductive MintSource where
  /-- `exchange_device_code`: the code as it was before it was consumed, and the verifier. -/
  | code (doc : VerificationTokenDoc) (codeVerifier : String)
  /-- `refresh_device_tokens`. -/
  | refresh (claims : JwtClaims)
  /-- `CredentialService.refresh_token`. -/
  | session (claims : JwtClaims)
  deriving DecidableEq, Repr

/-- Where an exchange or a refresh stands. -/
inductive ClientPhase where
  | idle (last : Option DeviceOutcome)
  | consuming (code codeVerifier : String)
  | findingUser (source : MintSource)
  | findingGrant (source : MintSource) (user : UserDoc) (appId : String)
  | touching (source : MintSource) (user : UserDoc) (appId : String) (scopes : Option (List String))
  deriving DecidableEq, Repr

/-- Where the owner of an account stands. -/
inductive OwnerAction where
  | idle
  | clearingCodes (userId : ObjectId) (email appId codeChallenge : String)
  | creatingCode (userId : ObjectId) (email appId codeChallenge : String)
  | revokingTokens (userId : ObjectId) (appId : String)
  deriving DecidableEq, Repr

/-- A client, or the owner of an account. -/
inductive DeviceAgent where
  | client (phase : ClientPhase)
  | owner (action : OwnerAction)
  deriving DecidableEq, Repr

/-- What comes with a move. -/
inductive DeviceChoice where
  | go
  | exchange (code codeVerifier : String)
  | refresh (claims : JwtClaims)
  | sessionRefresh (claims : JwtClaims)
  /-- `device_login` of a user who has allowed the app. -/
  | login (userId : ObjectId) (email appId codeChallenge : String)
  /-- `device_consent_approve`. -/
  | consent (userId : ObjectId) (email appId codeChallenge : String)
  /-- `revoke_app`. -/
  | revoke (userId : ObjectId) (appId : String)
  /-- Anything that changes the status of an account. -/
  | setStatus (userId : ObjectId) (status : UserStatus)
  /-- The TTL monitor at a token. -/
  | expire (tokenId : ObjectId)
  /-- The call fails and has had no effect. -/
  | failBefore
  /-- The call fails and has had its effect. -/
  | failAfter
  deriving DecidableEq, Repr

/-- The time since the last move of anyone, and what comes with this one. -/
structure DeviceAnswer where
  delay : Nat
  choice : DeviceChoice
  deriving DecidableEq, Repr

/-- The user that tokens are asked for. -/
def MintSource.userId : MintSource → ObjectId
  | .code doc _ => doc.userId
  | .refresh claims => claims.sub
  | .session claims => claims.sub

/-- The app that tokens are asked for. A session refresh has none. -/
def MintSource.appId : MintSource → Option String
  | .code doc _ => truthy doc.appId
  | .refresh claims => truthy claims.appId
  | .session _ => none

/-- The `amr` of the tokens. -/
def MintSource.amr : MintSource → String
  | .code _ _ => "ext"
  | .refresh claims => claims.amr
  | .session claims => claims.amr

/-- `effective_scopes_for`. -/
def effectiveScopesFor (grant : Option AppGrantDoc) (entry : Option AppEntry) : Option (List String) :=
  match grant.bind (·.scopes) with
  | some scopes => some scopes
  | none =>
    match entry with
    | some entry => if entry.scopes = [] then none else some entry.scopes
    | none => none

namespace DeviceAuthService

variable (lib : DeviceLib) (cfg : DeviceConfig)

/-- `DEVICE_AUTH_EXPIRY_SECONDS`. -/
def deviceAuthExpirySeconds : Nat := 300

/-- `APP_ID_MAX_LEN`. -/
def appIdMaxLen : Nat := 64

/-- `resolve_app`. -/
def resolveApp (appId : String) : Option AppEntry :=
  if appId = "" ∨ appIdMaxLen < appId.length then none
  else (cfg.appRegistry appId).filter (·.isLiveDeviceApp)

/-- `resolve_effective_scopes`. -/
def resolveEffectiveScopes (grant : AppGrantDoc) : Option (List String) :=
  effectiveScopesFor (some grant) (cfg.appRegistry grant.appId)

/-- The verifier is the one of the challenge that the code is bound to. -/
def verifierMatches (doc : VerificationTokenDoc) (codeVerifier : String) : Bool :=
  (truthy doc.codeChallenge).any fun challenge =>
    lib.pkceS256Challenge codeVerifier = some challenge

/-- The tokens of a user, as of the time of the world. -/
def mint (source : MintSource) (user : UserDoc) (scopes : Option (List String)) (s : DeviceWorld) :
    TokenPair :=
  TokenFactory.issueTokens cfg.jwt user source.amr source.appId scopes (s.clock / 1000)

/-- One move of an exchange or a refresh (`device.py:160-275`, `credentials.py:195-240`). -/
def move (choice : DeviceChoice) (phase : ClientPhase) (s : DeviceWorld) : ClientPhase × DeviceWorld :=
  match phase with
  | .idle last =>
    match choice with
    | .exchange code codeVerifier => (.consuming code codeVerifier, s)
    | .refresh claims =>
      if TokenFactory.verifiesRefresh cfg.jwt (s.clock / 1000) claims then
        (.findingUser (.refresh claims), s)
      else (.idle (some (.refused .invalidToken)), s)
    | .sessionRefresh claims =>
      if TokenFactory.verifiesRefresh cfg.jwt (s.clock / 1000) claims ∧ truthy claims.appId = none then
        (.findingUser (.session claims), s)
      else (.idle (some (.refused .invalidToken)), s)
    | _ => (.idle last, s)
  | .consuming code codeVerifier =>
    match TokenRepository.consumeByHash s.tokens (lib.hashToken code) .deviceAuth s.clock with
    | (none, _) => (.idle (some (.refused .invalidCode)), s)
    | (some doc, tokens) =>
      if verifierMatches lib doc codeVerifier then
        (.findingUser (.code doc codeVerifier), { s with tokens })
      else (.idle (some (.refused .invalidCode)), { s with tokens })
  | .findingUser source =>
    match s.users.lookup source.userId with
    | none => (.idle (some (.refused .userInactive)), s)
    | some user =>
      if user.status ≠ .active then (.idle (some (.refused .userInactive)), s)
      else match source.appId with
        | none => (.idle (some (.issued (mint cfg source user none s))), s)
        | some appId => (.findingGrant source user appId, s)
  | .findingGrant source user appId =>
    match AppGrantRepository.findActiveGrant s.grants user.id appId with
    | none => (.idle (some (.refused .accessRevoked)), s)
    | some grant => (.touching source user appId (resolveEffectiveScopes cfg grant), s)
  | .touching source user appId scopes =>
    -- `_touch_grant` never fails the flow.
    (.idle (some (.issued (mint cfg source user scopes s))),
      if choice = .failBefore then s
      else { s with grants := AppGrantRepository.touchLastUsed s.grants user.id appId s.clock })

/-- Where a client stands after the call of its move has failed. -/
def afterFailure (phase : ClientPhase) : ClientPhase :=
  match phase with
  | .idle last => .idle last
  | .consuming .. => .idle (some (.refused .repository))
  | .findingUser _ => .idle (some (.refused .repository))
  | .findingGrant .. => .idle (some (.refused .repository))
  | .touching source user appId scopes => .touching source user appId scopes

/-- One move of a client, with the failures of its call. -/
def act (choice : DeviceChoice) (phase : ClientPhase) (s : DeviceWorld) : ClientPhase × DeviceWorld :=
  match phase, choice with
  | .touching .., _ => move lib cfg choice phase s
  | _, .failBefore => (afterFailure phase, s)
  | _, .failAfter => (afterFailure phase, (move lib cfg choice phase s).2)
  | _, _ => move lib cfg choice phase s

/-- A code of an app (`device.py:120-158`). -/
def deviceCode (userId : ObjectId) (email appId codeChallenge : String) (s : DeviceWorld) :
    VerificationTokenDoc where
  id := s.issued
  userId
  email
  tokenHash := lib.hashToken (lib.generateSecureToken s.issued)
  tokenType := .deviceAuth
  expiresAt := s.clock + deviceAuthExpirySeconds * 1000
  createdAt := some s.clock
  codeChallenge := some codeChallenge
  appId := some appId

/-- One move of the owner of an account, or of what goes on beside the flow. -/
def ownerMove (choice : DeviceChoice) (action : OwnerAction) (s : DeviceWorld) :
    OwnerAction × DeviceWorld :=
  match action with
  | .idle =>
    match choice with
    | .login userId email appId codeChallenge =>
      if (resolveApp cfg appId).isSome ∧
          (AppGrantRepository.findActiveGrant s.grants userId appId).isSome then
        (.clearingCodes userId email appId codeChallenge, s)
      else (.idle, s)
    | .consent userId email appId codeChallenge =>
      match resolveApp cfg appId with
      | none => (.idle, s)
      | some app =>
        let scopes := if app.scopes = [] then none else some app.scopes
        match AppGrantRepository.createOrReactivate s.grants userId appId s.issued scopes s.clock with
        | none => (.idle, s)
        | some grants =>
          (.clearingCodes userId email appId codeChallenge, { s with grants, issued := s.issued + 1 })
    | .revoke userId appId =>
      match AppGrantRepository.revoke s.grants userId appId s.clock with
      | (true, grants) => (.revokingTokens userId appId, { s with grants })
      | (false, _) => (.idle, s)
    | .setStatus userId status =>
      (.idle, { s with users := s.users.updateOne userId (fun _ => true) {
        apply := fun doc => { doc with status }
        id_apply := fun _ => rfl
        key_apply := fun _ => rfl } })
    | .expire tokenId =>
      (.idle, { s with tokens := s.tokens.deleteMany fun doc =>
        doc.id = tokenId && TokenRepository.isExpired s.clock doc })
    | _ => (.idle, s)
  | .clearingCodes userId email appId codeChallenge =>
    (.creatingCode userId email appId codeChallenge, { s with
      tokens := TokenRepository.deleteByUser s.tokens userId (some .deviceAuth) (some appId) })
  | .creatingCode userId email appId codeChallenge =>
    match TokenRepository.create s.tokens (deviceCode lib userId email appId codeChallenge s) with
    | none => (.idle, s)
    | some tokens => (.idle, { s with tokens, issued := s.issued + 1 })
  | .revokingTokens userId appId =>
    (.idle, { s with
      tokens := TokenRepository.deleteByUser s.tokens userId (some .deviceAuth) (some appId) })

end DeviceAuthService

/-- The clock goes on. -/
def DeviceWorld.wait (s : DeviceWorld) (delay : Nat) : DeviceWorld := { s with clock := s.clock + delay }

/-- One move of an agent. -/
def DeviceAgent.move {ι : Type} (lib : DeviceLib) (cfg : DeviceConfig) :
    Move ι DeviceAnswer DeviceAgent DeviceWorld :=
  fun _ answer agent s =>
    match agent with
    | .client phase =>
      let moved := DeviceAuthService.act lib cfg answer.choice phase (s.wait answer.delay)
      (.client moved.1, moved.2)
    | .owner action =>
      let moved := DeviceAuthService.ownerMove lib cfg answer.choice action (s.wait answer.delay)
      (.owner moved.1, moved.2)

end Spoo
