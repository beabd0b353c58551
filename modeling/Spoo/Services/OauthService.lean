import Spoo.Dependencies.Auth
import Spoo.Infrastructure.OauthClients
import Spoo.Lib.Agents
import Spoo.Services.UrlService.Handlers

/-!
# Linked providers and signing in with one (`services/oauth_service.py:245-492`, `routes/oauth_routes.py`)

A provider is unlinked in two moves: the account is read and the guard is asked, and then the provider is pulled from
what the account has by that time. A callback goes through the accounts in moves, and anything may happen to an account
between two of them. What is written along for the proofs is who was linked how, and for whom tokens were issued.
-/

namespace Spoo

open Agents Mongo

/-! ## Unlinking -/

/-- What `unlink_provider` raises, with the message of the details. -/
inductive UnlinkError where
  | app (error : AppError) (details : Option String := none)
  /-- The exception of the repository. -/
  | repository
  deriving DecidableEq, Repr

/-- Where a call stands. -/
inductive UnlinkPhase where
  | idle (last : Option (Except UnlinkError Unit))
  | finding (userId : ObjectId) (providerName : String)
  | updating (userId : ObjectId) (providerName : String)
  deriving DecidableEq

/-- What comes with a move. -/
inductive UnlinkChoice where
  | go
  | unlink (userId : ObjectId) (providerName : String)
  /-- The call to the collection fails and has had no effect. -/
  | failBefore
  /-- The call to the collection fails and has had its effect. -/
  | failAfter
  deriving DecidableEq, Repr

/-- The time since the last move of anyone, and what comes with this one. -/
structure UnlinkAnswer where
  delay : Nat
  choice : UnlinkChoice
  deriving DecidableEq, Repr

/-- The accounts and the clock. -/
structure AccountWorld where
  users : UserStore
  clock : Int

/-- The clock goes on. -/
def AccountWorld.wait (s : AccountWorld) (delay : Nat) : AccountWorld :=
  { s with clock := s.clock + delay }

namespace OAuthService

/-- The entries that are not of the provider. -/
def remaining (user : UserDoc) (providerName : String) : List AuthProviderEntry :=
  user.authProviders.filter (·.provider.value ≠ providerName)

/-- `{"$pull": {"auth_providers": {"provider": providerName}}, "$set": {"updated_at": now}}`. -/
def unlinkOps (providerName : String) (now : Int) : KeyedUpdate UserDoc where
  apply user := { user with authProviders := remaining user providerName, updatedAt := some now }
  id_apply _ := rfl
  key_apply _ := rfl

def userNotFound : UnlinkError := .app { kind := .notFound, message := "user not found" }

def lastMethod : UnlinkError :=
  .app { kind := .validation, message := "cannot unlink last authentication method" }
    (some "Set a password first before unlinking your last OAuth provider")

def notLinked : UnlinkError :=
  .app { kind := .notFound, message := "provider not found or already unlinked" }

/-- One move of `unlink_provider`. -/
def unlinkProvider (choice : UnlinkChoice) (phase : UnlinkPhase) (s : AccountWorld) :
    UnlinkPhase × AccountWorld :=
  match phase with
  | .idle last =>
    match choice with
    | .unlink userId providerName => (.finding userId providerName, s)
    | _ => (.idle last, s)
  | .finding userId providerName =>
    if choice = .failBefore ∨ choice = .failAfter then (.idle (some (.error .repository)), s)
    else match s.users.lookup userId with
      | none => (.idle (some (.error userNotFound)), s)
      | some user =>
        if user.passwordSet = false ∧ (remaining user providerName).length = 0 then
          (.idle (some (.error lastMethod)), s)
        else (.updating userId providerName, s)
  | .updating userId providerName =>
    let (updated, users) := UserRepository.update s.users userId (unlinkOps providerName s.clock)
    if choice = .failBefore then (.idle (some (.error .repository)), s)
    else if choice = .failAfter then (.idle (some (.error .repository)), { s with users })
    else if updated then (.idle (some (.ok ())), { s with users })
    else (.idle (some (.error notLinked)), { s with users })

end OAuthService

/-- One move of a call. -/
def UnlinkPhase.move {ι : Type} : Move ι UnlinkAnswer UnlinkPhase AccountWorld :=
  fun _ answer phase s => OAuthService.unlinkProvider answer.choice phase (s.wait answer.delay)

/-! ## Signing in -/

/-- `ProviderInfo`, with what the flows read of it. -/
structure ProviderInfo where
  providerUserId : String
  email : String
  emailVerified : Bool := false
  deriving DecidableEq, Repr

/-- What the provider answers: an error in the query, a failure of the exchange, or who has consented. -/
inductive ProviderReply where
  | error (description : String)
  | failed
  | info (info : ProviderInfo)
  deriving DecidableEq, Repr

/-- A callback whose state is valid. -/
structure CallbackRequest where
  provider : OAuthProvider
  info : ProviderInfo
  state : List Char
  deriving DecidableEq, Repr

def CallbackRequest.data (req : CallbackRequest) : PyDict String String := stateData req.state

/-- The entry that is pushed to an account. -/
def CallbackRequest.entry (req : CallbackRequest) : AuthProviderEntry := ⟨req.provider, req.info.providerUserId⟩

/-- What a callback raises. -/
inductive OauthError where
  | app (error : AppError)
  | pendingDeletion
  /-- An exception that is not an `AppError`: of the repository, of `ObjectId(...)` or of a missing account. -/
  | exception
  deriving DecidableEq, Repr

/-- `AuthResult`. -/
structure OauthResult where
  user : UserDoc
  tokens : TokenPair
  isNew : Bool := false
  deriving DecidableEq, Repr

/-- How an account came to have a provider. -/
inductive LinkPath where
  | created
  | sameEmail
  | asked (state : List Char)
  deriving DecidableEq, Repr

/-- A provider that was linked to an account. -/
structure OauthLink where
  userId : ObjectId
  provider : OAuthProvider
  info : ProviderInfo
  path : LinkPath
  deriving DecidableEq, Repr

def OauthLink.entry (link : OauthLink) : AuthProviderEntry := ⟨link.provider, link.info.providerUserId⟩

/-- Tokens that a callback returned. -/
structure OauthIssue where
  entry : AuthProviderEntry
  result : OauthResult
  deriving DecidableEq, Repr

/-- The accounts and the clock, with all accounts that ever were, the flows that were begun, the links and the
tokens. -/
structure OauthWorld where
  users : UserStore
  clock : Int
  accounts : List (ObjectId × String) := []
  flows : List (OauthBegin × List Char) := []
  links : List OauthLink := []
  issued : List OauthIssue := []

/-- Where a callback stands. -/
inductive CallbackPhase where
  | idle (last : Option (Except OauthError OauthResult))
  | linkFinding (req : CallbackRequest) (text : String) (userId : ObjectId)
  | linkOwner (req : CallbackRequest) (text : String) (user : UserDoc)
  | linking (req : CallbackRequest) (userId : ObjectId)
  | finding (req : CallbackRequest)
  | touching (req : CallbackRequest) (user : UserDoc)
  | findingEmail (req : CallbackRequest)
  | autoLinking (req : CallbackRequest) (userId : ObjectId)
  | creating (req : CallbackRequest)
  | reloading (req : CallbackRequest) (userId : ObjectId) (isNew : Bool)

/-- What else is written to the accounts. -/
inductive AccountWrite where
  /-- `register`. -/
  | register (email passwordHash : String)
  | verifyEmail (userId : ObjectId)
  | setPassword (userId : ObjectId) (passwordHash : String)
  /-- The `$pull` of `unlink_provider`. -/
  | unlink (userId : ObjectId) (providerName : String)
  | markPendingDeletion (userId : ObjectId)
  | claimForErasure (userId : ObjectId)
  | restore (userId : ObjectId)
  | deleteHard (userId : ObjectId)
  deriving DecidableEq, Repr

/-- What comes with a move. -/
inductive OauthChoice where
  | go
  /-- `oauth_login`: `next` is what the browser asks for. -/
  | login (provider : OAuthProvider) (next : Option String)
  /-- `oauth_link`, by the account that `require_auth` has found: nothing here authenticates it. -/
  | link (provider : OAuthProvider) (userId : ObjectId)
  | callback (provider : OAuthProvider) (state : List Char) (reply : ProviderReply)
  | write (write : AccountWrite)
  /-- The call to the collection fails and has had no effect. -/
  | failBefore
  /-- The call to the collection fails and has had its effect. -/
  | failAfter
  deriving DecidableEq, Repr

def OauthChoice.fails : OauthChoice → Bool
  | .failBefore => true
  | .failAfter => true
  | _ => false

/-- The time since the last move of anyone, the random part of a state, and what comes with this move. -/
structure OauthAnswer where
  delay : Nat := 0
  nonce : Nat := 0
  choice : OauthChoice := .go
  deriving DecidableEq, Repr

/-- The settings. -/
structure OauthConfig where
  jwt : JwtSettings := {}
  graceDays : Nat := 30
  leaseSeconds : Nat := 3600
  deriving DecidableEq, Repr

/-- `provider_key.title()`. -/
def OAuthProvider.display : OAuthProvider → String
  | .google => "Google"
  | .github => "Github"
  | .discord => "Discord"

namespace UserRepository

variable (users : UserStore)

/-- `find_by_email`. -/
def findByEmail (email : String) : Option UserDoc := users.findOne fun doc => doc.email = email

/-- `find_by_oauth_provider` (`user_repository.py:52-73`). -/
def findByOauthProvider (entry : AuthProviderEntry) : Option UserDoc :=
  users.findOne fun doc => doc.authProviders.any (· = entry)

/-- No document but the user's is in the way of the unique index over the providers. -/
def entryFree (userId : ObjectId) (entry : AuthProviderEntry) : Bool :=
  users.docs.all fun doc => doc.id = userId || doc.authProviders.all (· ≠ entry)

end UserRepository

namespace OAuthService

/-- `{"$push": {"auth_providers": entry}, "$set": {...}}` (`oauth_service.py:83-129`). -/
def linkOps (req : CallbackRequest) (now : Int) : KeyedUpdate UserDoc where
  apply user := { user with
    authProviders := user.authProviders ++ [req.entry]
    emailVerified := user.emailVerified || req.info.emailVerified
    updatedAt := some now }
  id_apply _ := rfl
  key_apply _ := rfl

/-- `_link_provider`: `none` is a duplicate key. -/
def linkProvider (userId : ObjectId) (req : CallbackRequest) (path : LinkPath) (s : OauthWorld) :
    Option (Bool × OauthWorld) :=
  if UserRepository.entryFree s.users userId req.entry then
    let (matched, users) := UserRepository.update s.users userId (linkOps req s.clock)
    some (matched, if matched then
      { s with users, links := ⟨userId, req.provider, req.info, path⟩ :: s.links } else s)
  else none

/-- An account is inserted, with an id that no account ever had. -/
def insertUser (user : UserDoc) (s : OauthWorld) : Option OauthWorld :=
  if user.authProviders.all (UserRepository.entryFree s.users user.id ·) then
    (s.users.insertOne user).map fun users =>
      { s with users, accounts := (user.id, user.email) :: s.accounts }
  else none

/-- The document of `_create_oauth_user` (`oauth_service.py:131-198`). -/
def oauthUser (req : CallbackRequest) (s : OauthWorld) : UserDoc where
  id := s.accounts.length
  email := req.info.email
  emailVerified := req.info.emailVerified
  authProviders := [req.entry]
  updatedAt := some s.clock

/-- `_create_oauth_user`. -/
def createOauthUser (req : CallbackRequest) (s : OauthWorld) : Option OauthWorld :=
  (insertUser (oauthUser req s) s).map fun s' =>
    { s' with links := ⟨s.accounts.length, req.provider, req.info, .created⟩ :: s'.links }

/-- `_can_auto_link`. -/
def canAutoLink (lib : OauthLib) (existing : UserDoc) (req : CallbackRequest) : Bool :=
  req.info.emailVerified && lib.lower existing.email = lib.lower req.info.email &&
    existing.authProviders.all (·.provider ≠ req.provider)

/-- `_ensure_not_pending_deletion`, with whether it raises. -/
def pendingDeletion (user : UserDoc) : Bool := user.status = .pendingDeletion || user.status = .erasing

def raise {α : Type} (kind : ErrorKind) (message : String) (s : α) : CallbackPhase × α :=
  (.idle (some (.error (.app ⟨kind, message, none⟩))), s)

def crash {α : Type} (s : α) : CallbackPhase × α := (.idle (some (.error .exception)), s)

/-- `_make_tokens`, and what the callback returns. -/
def issue (cfg : OauthConfig) (req : CallbackRequest) (user : UserDoc) (isNew : Bool) (s : OauthWorld) :
    CallbackPhase × OauthWorld :=
  let result : OauthResult :=
    ⟨user, TokenFactory.issueTokens cfg.jwt user req.provider.value none none (s.clock / 1000), isNew⟩
  (.idle (some (.ok result)), { s with issued := ⟨req.entry, result⟩ :: s.issued })

variable (lib : OauthLib) (cfg : OauthConfig)

/-- `handle_callback`, up to its first call. -/
def handleCallback (req : CallbackRequest) (s : OauthWorld) : CallbackPhase × OauthWorld :=
  if (req.data.get? "action").getD OAuthAction.login.value = OAuthAction.link.value then
    if req.info.email = "" then raise .validation "email not provided by OAuth provider" s
    else match (req.data.get? "user_id").filter (· ≠ "") with
      | none => raise .validation "invalid linking request" s
      | some text =>
        match lib.objectId text with
        | none => crash s
        | some userId => (.linkFinding req text userId, s)
  else (.finding req, s)

/-- The account to link is read. -/
def linkFinding (req : CallbackRequest) (text : String) (userId : ObjectId) (s : OauthWorld) :
    CallbackPhase × OauthWorld :=
  match s.users.lookup userId with
  | none => raise .notFound "user not found" s
  | some user =>
    if pendingDeletion user then (.idle (some (.error .pendingDeletion)), s)
    else if user.authProviders.any (·.provider = req.provider) then
      raise .conflict (req.provider.display ++ " account already linked") s
    else (.linkOwner req text user, s)

/-- Whoever has the provider's user is read, and the e-mails are compared. -/
def linkOwner (req : CallbackRequest) (text : String) (user : UserDoc) (s : OauthWorld) :
    CallbackPhase × OauthWorld :=
  if (UserRepository.findByOauthProvider s.users req.entry).any (lib.objectIdText ·.id ≠ text) then
    raise .conflict ("This " ++ req.provider.display ++ " account is already linked to another user") s
  else if lib.lower user.email ≠ lib.lower req.info.email then raise .validation "email mismatch" s
  else (.linking req user.id, s)

/-- The provider is pushed to the account. -/
def linking (choice : OauthChoice) (req : CallbackRequest) (userId : ObjectId) (path : LinkPath)
    (failure : String) (s : OauthWorld) : CallbackPhase × OauthWorld :=
  if choice = .failBefore then crash s
  else match linkProvider userId req path s with
    | none => crash s
    | some (matched, s') =>
      if choice = .failAfter then crash s'
      else if matched then (.reloading req userId false, s')
      else raise .internal failure s'

/-- The account of the provider's user is read. -/
def finding (req : CallbackRequest) (s : OauthWorld) : CallbackPhase × OauthWorld :=
  match UserRepository.findByOauthProvider s.users req.entry with
  | some user =>
    if pendingDeletion user then (.idle (some (.error .pendingDeletion)), s) else (.touching req user, s)
  | none =>
    if req.info.email = "" then raise .validation "email not provided by OAuth provider" s
    else (.findingEmail req, s)

/-- The account of the e-mail is read. -/
def findingEmail (req : CallbackRequest) (s : OauthWorld) : CallbackPhase × OauthWorld :=
  match UserRepository.findByEmail s.users req.info.email with
  | none => (.creating req, s)
  | some user =>
    if canAutoLink lib user req then
      if pendingDeletion user then (.idle (some (.error .pendingDeletion)), s) else (.autoLinking req user.id, s)
    else raise .conflict "email already exists" s

/-- A new account is created. -/
def creating (choice : OauthChoice) (req : CallbackRequest) (s : OauthWorld) : CallbackPhase × OauthWorld :=
  if choice = .failBefore then raise .internal "failed to create user" s
  else match createOauthUser req s with
    | none => raise .internal "failed to create user" s
    | some s' =>
      if choice = .failAfter then raise .internal "failed to create user" s'
      else (.reloading req s.accounts.length true, s')

/-- The account is read again, and tokens are issued for it. -/
def reloading (req : CallbackRequest) (userId : ObjectId) (isNew : Bool) (s : OauthWorld) :
    CallbackPhase × OauthWorld :=
  match s.users.lookup userId with
  | none => crash s
  | some user => issue cfg req user isNew s

/-- A flow is begun. -/
def initiate (begun : OauthBegin) (nonce : Nat) (s : OauthWorld) : OauthWorld :=
  { s with flows := (begun, generateOauthState lib begun nonce s.clock) :: s.flows }

/-- `oauth_callback`, up to `handle_callback`. The exchange is for a flow that the browser has begun. -/
def oauthCallback (provider : OAuthProvider) (state : List Char) (reply : ProviderReply) (s : OauthWorld) :
    CallbackPhase × OauthWorld :=
  if state = [] then raise .validation "missing state parameter" s
  else match verifyOauthState lib state provider s.clock with
    | none => raise .validation "invalid state parameter" s
    | some _ =>
      match reply with
      | .error description => raise .validation ("OAuth error: " ++ description) s
      | .failed => raise .internal "OAuth authentication failed" s
      | .info info =>
        if s.flows.any (·.2 = state) then handleCallback lib ⟨provider, info, state⟩ s
        else raise .internal "OAuth authentication failed" s

end OAuthService

/-- A write to the accounts that is none of a callback's. -/
def AccountWrite.run (cfg : OauthConfig) (s : OauthWorld) : AccountWrite → OauthWorld
  | .register email passwordHash =>
    (OAuthService.insertUser
      { id := s.accounts.length, email, passwordHash := some passwordHash, passwordSet := true } s).getD s
  | .verifyEmail userId => { s with users := s.users.updateOne userId (fun _ => true) {
      apply := fun user => { user with emailVerified := true }
      id_apply := fun _ => rfl
      key_apply := fun _ => rfl } }
  | .setPassword userId passwordHash => { s with users := s.users.updateOne userId (fun _ => true) {
      apply := fun user => { user with passwordHash := some passwordHash, passwordSet := true }
      id_apply := fun _ => rfl
      key_apply := fun _ => rfl } }
  | .unlink userId providerName => { s with
      users := (UserRepository.update s.users userId (OAuthService.unlinkOps providerName s.clock)).2 }
  | .markPendingDeletion userId => { s with
      users := (UserRepository.markPendingDeletion s.users userId cfg.graceDays s.clock).2 }
  | .claimForErasure userId => { s with
      users := (UserRepository.claimForErasure s.users userId s.clock cfg.leaseSeconds).2 }
  | .restore userId => { s with users := (UserRepository.restore s.users userId).2 }
  | .deleteHard userId => { s with users := (UserRepository.deleteHard s.users userId).2 }

/-- The clock goes on. -/
def OauthWorld.wait (s : OauthWorld) (delay : Nat) : OauthWorld := { s with clock := s.clock + delay }

namespace OAuthService

variable (lib : OauthLib) (cfg : OauthConfig)

/-- One move of a callback, or of what goes on beside it. `_update_last_login` never fails the flow, and its time
is not among what is modelled. -/
def move (answer : OauthAnswer) (phase : CallbackPhase) (s : OauthWorld) : CallbackPhase × OauthWorld :=
  match phase with
  | .idle last =>
    match answer.choice with
    | .login provider next => (.idle last, initiate lib ⟨provider, .login, none, next⟩ answer.nonce s)
    | .link provider userId => (.idle last, initiate lib ⟨provider, .link, some userId, none⟩ answer.nonce s)
    | .callback provider state reply => oauthCallback lib provider state reply s
    | .write write => (.idle last, write.run cfg s)
    | _ => (.idle last, s)
  | .linkFinding req text userId => if answer.choice.fails then crash s else linkFinding req text userId s
  | .linkOwner req text user => if answer.choice.fails then crash s else linkOwner lib req text user s
  | .linking req userId =>
    linking answer.choice req userId (.asked req.state)
      ("failed to link " ++ req.provider.display ++ " account") s
  | .finding req => if answer.choice.fails then crash s else finding req s
  | .touching req user => issue cfg req user false s
  | .findingEmail req => if answer.choice.fails then crash s else findingEmail lib req s
  | .autoLinking req userId => linking answer.choice req userId .sameEmail "failed to link accounts" s
  | .creating req => creating answer.choice req s
  | .reloading req userId isNew => if answer.choice.fails then crash s else reloading cfg req userId isNew s

end OAuthService

/-- One move of anyone. -/
def OauthPhase.step {ι : Type} (lib : OauthLib) (cfg : OauthConfig) :
    Move ι OauthAnswer CallbackPhase OauthWorld :=
  fun _ answer phase s => OAuthService.move lib cfg answer phase (s.wait answer.delay)

end Spoo
