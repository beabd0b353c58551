import Spoo.Dependencies.Auth
import Spoo.Lib.Agents
import Spoo.Lib.Redis
import Spoo.Services.ApiKeyService

/-!
# API keys and what they may do (`dependencies/auth.py`, `routes/api_v1/keys.py`)

A request comes with an API key, with a token, or with nothing. A key is looked up by its hash, then its user is read,
and then a guard asks for a session or for a scope. What is written along is which keys were created, retired and
looked up, and which requests a guard has let through.
-/

namespace Spoo

open Agents Mongo Mongo.Collection

/-! ## Guards -/

/-- What a request to the keys is refused with. -/
inductive KeyError where
  | auth (error : AuthError)
  | emailNotVerified
  | insufficientScope
  | pendingDeletion
  /-- The body does not pass the model. -/
  | invalidBody
  | app (error : AppError)
  /-- The exception of a repository. -/
  | repository
  deriving DecidableEq, Repr

/-- The scopes of `ApiKeyScope` (`requests/api_key.py:16-31`). -/
def apiKeyScopes : List String :=
  ["shorten:create", "urls:manage", "urls:read", "stats:read", "domains:manage", "domains:read", "reports:create",
    "webhooks:manage", "webhooks:read", "keys:manage", "admin:all"]

/-- `ALLOWED_SCOPES`. -/
def allowedScopes : List String := apiKeyScopes.filter (· ≠ "keys:manage")

/-- `KEYS_MANAGE_SCOPES`. -/
def keysManageScopes : List String := ["keys:manage"]

/-- `_granted_scopes`: `none` is a session without restrictions. -/
def grantedScopes (user : ResolvedUser) : Option (List String) := user.apiKeyDoc.or user.scopes

/-- `check_credential_scopes` (`dependencies/auth.py:311-327`). -/
def checkCredentialScopes (user : ResolvedUser) (required : List String) : Except KeyError Unit :=
  match grantedScopes user with
  | none => .ok ()
  | some granted => if granted.any (required.contains ·) then .ok () else .error .insufficientScope

/-- `require_auth`, with the errors of the keys. -/
def requireUser (user : Option ResolvedUser) : Except KeyError ResolvedUser :=
  match requireAuth user with
  | .error error => .error (.auth error)
  | .ok user => .ok user

/-- `require_scopes`. -/
def requireScopes (required : List String) (user : Option ResolvedUser) : Except KeyError ResolvedUser := do
  let user ← requireUser user
  checkCredentialScopes user required
  return user

/-- `require_session_or_scopes` (`dependencies/auth.py:389-413`). -/
def requireSessionOrScopes (scopes : List String) (user : Option ResolvedUser) : Except KeyError ResolvedUser := do
  let user ← requireUser user
  if user.apiKeyDoc.isNone && user.appId.isNone then return user
  if ((grantedScopes user).getD []).any (scopes.contains ·) then return user
  else .error .insufficientScope

/-- `require_jwt_verified`. -/
def requireJwtVerified (user : Option ResolvedUser) : Except KeyError ResolvedUser :=
  match requireJwt user with
  | .error error => .error (.auth error)
  | .ok user => if user.emailVerified then .ok user else .error .emailNotVerified

/-! ## The repository and the requests -/

namespace ApiKeyRepository

variable (keys : ApiKeyStore)

/-- `find_by_hash`. -/
def findByHash (tokenHash : String) : Option ApiKeyDoc := keys.findOne fun doc => doc.tokenHash = tokenHash

/-- `revoke`, with whether a document matched (`api_key_repository.py:45-60`). -/
def revoke (userId keyId : ObjectId) (hardDelete : Bool) : Bool × ApiKeyStore :=
  ((keys.lookup keyId).any (·.userId = userId),
    if hardDelete then keys.deleteMany fun doc => doc.id = keyId && doc.userId = userId
    else keys.updateOne keyId (·.userId = userId) {
      apply := fun doc => { doc with revoked := true }
      id_apply := fun _ => rfl
      key_apply := fun _ => rfl })

/-- `touch_last_used`. -/
def touchLastUsed (keyId : ObjectId) (now : Int) : ApiKeyStore :=
  keys.updateOne keyId (fun _ => true) {
    apply := fun doc => { doc with lastUsedAt := some now }
    id_apply := fun _ => rfl
    key_apply := fun _ => rfl }

/-- `delete_by_user`. -/
def deleteByUser (userId : ObjectId) : ApiKeyStore := keys.deleteMany fun doc => doc.userId = userId

/-- The TTL monitor (`indexes.py:166`). -/
def expire (now : Int) : ApiKeyStore := keys.deleteMany fun doc => doc.expiresAt.any (· ≤ now)

end ApiKeyRepository

/-- `CreateApiKeyRequest`, with the expiry as it is parsed: the inner `none` is what does not parse. -/
structure CreateApiKeyRequest where
  name : String
  description : Option String := none
  scopes : List String
  expiresAt : Option (Option Int) := none
  deriving DecidableEq, Repr

/-- What a request is for: a key, the end of one, or anything behind `require_scopes`. -/
inductive KeyCall where
  | create (body : CreateApiKeyRequest)
  | delete (keyId : ObjectId) (revoke : Bool)
  | act (required : List String)
  deriving DecidableEq, Repr

/-- What a request comes with. -/
inductive Credential where
  | apiKey (raw : String)
  | jwt (claims : JwtClaims)
  | anonymous
  deriving DecidableEq, Repr

/-- What has happened to the keys. -/
inductive KeyEntry where
  | created (user : ResolvedUser) (doc : ApiKeyDoc)
  /-- A key was revoked or deleted by a request. -/
  | retired (user : ResolvedUser) (keyId : ObjectId)
  /-- A key was found that is not revoked, and it has not expired. -/
  | resolved (key : ApiKeyDoc) (now : Int)
  /-- A guard has let a request through. -/
  | granted (user : ResolvedUser) (required : List String)
  deriving DecidableEq, Repr

/-- The keys with the clock, the accounts, and the log. -/
structure KeyWorld where
  store : ApiKeyWorld
  users : UserStore
  log : List KeyEntry := []

/-- Where a request stands. -/
inductive KeyPhase where
  | idle (last : Option (Except KeyError Unit))
  | finding (raw : String) (call : KeyCall)
  | findingUser (key : ApiKeyDoc) (now : Int) (call : KeyCall)
  | touching (key : ApiKeyDoc) (user : Option UserDoc) (call : KeyCall)
  | creating (user : ResolvedUser) (phase : ApiKeyPhase)
  | retiring (user : ResolvedUser) (keyId : ObjectId) (revoke : Bool)
  deriving DecidableEq

/-- What comes with a move. -/
inductive KeyChoice where
  | go
  | request (credential : Credential) (call : KeyCall)
  /-- Anything that other services do to the accounts. -/
  | users (users : UserStore)
  /-- The erasure of an account deletes its keys. -/
  | eraseKeys (userId : ObjectId)
  /-- The TTL monitor. -/
  | expire
  /-- The call to the collection fails, and has had its effect or not. -/
  | fail (outcome : Redis.Outcome)

/-- The time since the last move of anyone, and what comes with this one. -/
structure KeyAnswer where
  delay : Nat := 0
  choice : KeyChoice := .go

/-- The settings. -/
structure KeyConfig where
  lib : ApiKeyLib
  /-- `str.strip`. -/
  strip : String → String
  lower : String → String
  maxActiveKeys : Nat := 20
  jwt : JwtSettings := {}

namespace KeyRoutes

variable (cfg : KeyConfig)

/-- `_LAST_USED_DEBOUNCE`. -/
def lastUsedDebounce : Int := 3600000

/-- The user that a key stands for (`dependencies/auth.py:195-205`). -/
def apiKeyUser (key : ApiKeyDoc) (user : Option UserDoc) : ResolvedUser where
  userId := key.userId
  emailVerified := (user.map (·.emailVerified)).getD false
  apiKeyDoc := some key.scopes
  email := (user.bind fun user => truthy (some user.email)).map cfg.lower

/-- The checks of the model (`requests/api_key.py:37-80`). -/
def validBody (body : CreateApiKeyRequest) : Bool :=
  decide (1 ≤ body.name.length ∧ body.name.length ≤ 255 ∧ (body.description.getD "").length ≤ 1000) &&
    cfg.strip body.name ≠ "" && body.scopes ≠ [] && body.scopes.all (allowedScopes.contains ·)

/-- The checks of the route (`routes/api_v1/keys.py:78-100`). -/
def createRequest (body : CreateApiKeyRequest) (user : ResolvedUser) (now : Int) : Except KeyError CreateApiKey :=
  let request (expiry : Option Int) : CreateApiKey :=
    ⟨user.userId, cfg.strip body.name, body.scopes, user.emailVerified, body.description, expiry⟩
  match body.expiresAt with
  | none => .ok (request none)
  | some none =>
    .error (.app ⟨.validation, "expires_at must be ISO 8601 or Unix epoch seconds", some "expires_at"⟩)
  | some (some expiry) =>
    if expiry ≤ now then .error (.app ⟨.validation, "expires_at must be in the future", some "expires_at"⟩)
    else .ok (request (some expiry))

/-- A request whose user is resolved is guarded, and begins. -/
def begin (user : Option ResolvedUser) (call : KeyCall) (s : KeyWorld) : KeyPhase × KeyWorld :=
  match call with
  | .create body =>
    match requireJwtVerified user with
    | .error error => (.idle (some (.error error)), s)
    | .ok user =>
      if validBody cfg body = false then (.idle (some (.error .invalidBody)), s)
      else match createRequest cfg body user s.store.clock with
        | .error error => (.idle (some (.error error)), s)
        | .ok request => (.creating user (.counting request), s)
  | .delete keyId revoke =>
    match requireSessionOrScopes keysManageScopes user with
    | .error error => (.idle (some (.error error)), s)
    | .ok user => (.retiring user keyId revoke, s)
  | .act required =>
    match requireScopes required user with
    | .error error => (.idle (some (.error error)), s)
    | .ok user => (.idle (some (.ok ())), { s with log := .granted user required :: s.log })

/-- A key is looked up. -/
def finding (raw : String) (call : KeyCall) (s : KeyWorld) : KeyPhase × KeyWorld :=
  match ApiKeyRepository.findByHash s.store.keys (cfg.lib.hashToken raw) with
  | none => begin cfg none call s
  | some key =>
    if key.revoked then begin cfg none call s
    else if key.expiresAt.any (· ≤ s.store.clock) then begin cfg none call s
    else (.findingUser key s.store.clock call, { s with log := .resolved key s.store.clock :: s.log })

/-- The user of a key is read. -/
def findingUser (key : ApiKeyDoc) (now : Int) (call : KeyCall) (s : KeyWorld) : KeyPhase × KeyWorld :=
  let user := s.users.lookup key.userId
  if user.any fun user => user.status = .pendingDeletion || user.status = .erasing then
    (.idle (some (.error .pendingDeletion)), s)
  else if key.lastUsedAt.all (lastUsedDebounce < now - ·) then (.touching key user call, s)
  else begin cfg (some (apiKeyUser cfg key user)) call s

/-- A key is inserted, or counted first. -/
def creating (user : ResolvedUser) (phase : ApiKeyPhase) (s : KeyWorld) : KeyPhase × KeyWorld :=
  let (moved, store) := ApiKeyService.move cfg.lib cfg.maxActiveKeys phase s.store
  match moved with
  | .created doc _ => (.idle (some (.ok ())), { s with store, log := .created user doc :: s.log })
  | .refused error => (.idle (some (.error (.app error))), { s with store })
  | .raised => (.idle (some (.error .repository)), { s with store })
  | phase => (.creating user phase, { s with store })

def keyNotFound : AppError := ⟨.notFound, "key not found or access denied", none⟩

/-- A key is revoked or deleted. -/
def retiring (user : ResolvedUser) (keyId : ObjectId) (revoke : Bool) (s : KeyWorld) : KeyPhase × KeyWorld :=
  let (matched, keys) := ApiKeyRepository.revoke s.store.keys user.userId keyId (!revoke)
  let s' := { s with store := { s.store with keys } }
  if matched then (.idle (some (.ok ())), { s' with log := .retired user keyId :: s.log })
  else (.idle (some (.error (.app keyNotFound))), s')

/-- What else happens to the keys and the accounts. -/
def beside (choice : KeyChoice) (s : KeyWorld) : KeyWorld :=
  match choice with
  | .users users => { s with users }
  | .eraseKeys userId =>
    { s with store := { s.store with keys := ApiKeyRepository.deleteByUser s.store.keys userId } }
  | .expire => { s with store := { s.store with keys := ApiKeyRepository.expire s.store.keys s.store.clock } }
  | _ => s

/-- The last use of a key is stamped. -/
def touch (key : ApiKeyDoc) (s : KeyWorld) : KeyWorld :=
  let keys := ApiKeyRepository.touchLastUsed s.store.keys key.id s.store.clock
  { s with store := { s.store with keys } }

/-- A move whose call fails: a lookup makes the request anonymous, and nothing else goes on. -/
def failed (outcome : Redis.Outcome) (phase : KeyPhase) (s : KeyWorld) : KeyPhase × KeyWorld :=
  match phase with
  | .idle last => (.idle last, s)
  | .finding _ call => begin cfg none call s
  | .findingUser _ _ call => begin cfg none call s
  | .touching key user call =>
    begin cfg (some (apiKeyUser cfg key user)) call (if outcome = .failedAfter then touch key s else s)
  | .creating user phase =>
    (.idle (some (.error .repository)), if outcome = .failedAfter then (creating cfg user phase s).2 else s)
  | .retiring user keyId revoke =>
    (.idle (some (.error .repository)), if outcome = .failedAfter then (retiring user keyId revoke s).2 else s)

/-- One move of a request, or of what goes on beside it. -/
def move (choice : KeyChoice) (phase : KeyPhase) (s : KeyWorld) : KeyPhase × KeyWorld :=
  match choice with
  | .fail outcome => failed cfg outcome phase s
  | _ =>
    match phase with
    | .idle last =>
      match choice with
      | .request (.apiKey raw) call => (.finding raw call, s)
      | .request (.jwt claims) call =>
        begin cfg (getCurrentUser cfg.jwt (s.store.clock / 1000) claims) call s
      | .request .anonymous call => begin cfg none call s
      | _ => (.idle last, beside choice s)
    | .finding raw call => finding cfg raw call s
    | .findingUser key now call => findingUser cfg key now call s
    | .touching key user call => begin cfg (some (apiKeyUser cfg key user)) call (touch key s)
    | .creating user phase => creating cfg user phase s
    | .retiring user keyId revoke => retiring user keyId revoke s

end KeyRoutes

/-- The clock goes on. -/
def KeyWorld.wait (s : KeyWorld) (delay : Nat) : KeyWorld :=
  { s with store := { s.store with clock := s.store.clock + delay } }

/-- One move of anyone. -/
def KeyPhase.step {ι : Type} (cfg : KeyConfig) : Move ι KeyAnswer KeyPhase KeyWorld :=
  fun _ answer phase s => KeyRoutes.move cfg answer.choice phase (s.wait answer.delay)

end Spoo
