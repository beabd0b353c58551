import Spoo.Repositories.UserRepository

/-!
# Session tokens (`services/token_factory.py`) and who makes a request (`dependencies/auth.py`)

A token is what it claims: it is signed, and no one but the factory can make one that verifies. Times in a token
are in seconds. A bearer token stands for an identity, and one guard is for the surfaces that are for interactive
sessions alone.
-/

namespace Spoo

/-- `JWTSettings`: what the factory reads of it. -/
structure JwtSettings where
  jwtIssuer : String := "spoo.me"
  jwtAudience : String := "spoo.me.api"
  accessTokenTtlSeconds : Nat := 900
  refreshTokenTtlSeconds : Nat := 2592000
  deriving DecidableEq, Repr

/-- The payload of a token. -/
structure JwtClaims where
  iss : String
  aud : String
  /-- As the ObjectId that it spells. -/
  sub : ObjectId
  iat : Int
  exp : Int
  /-- The one entry of the list. -/
  amr : String
  email : Option String := none
  emailVerified : Bool
  appId : Option String := none
  scp : Option (List String) := none
  type : Option String := none
  deriving DecidableEq, Repr

/-- An access and a refresh token. -/
structure TokenPair where
  access : JwtClaims
  refresh : JwtClaims
  deriving DecidableEq, Repr

/-- A string that is neither missing nor empty. -/
def truthy (value : Option String) : Option String := value.filter (· ≠ "")

namespace TokenFactory

variable (settings : JwtSettings)

/-- `generate_access_token` (`token_factory.py:51-94`). -/
def generateAccessToken (user : UserDoc) (amr : String) (appId : Option String)
    (scopes : Option (List String)) (now : Int) : JwtClaims where
  iss := settings.jwtIssuer
  aud := settings.jwtAudience
  sub := user.id
  iat := now
  exp := now + settings.accessTokenTtlSeconds
  amr
  email := some user.email.toLower
  emailVerified := user.emailVerified
  appId := truthy appId
  scp := scopes

/-- `generate_refresh_token` (`token_factory.py:96-121`). -/
def generateRefreshToken (user : UserDoc) (amr : String) (appId : Option String) (now : Int) :
    JwtClaims where
  iss := settings.jwtIssuer
  aud := settings.jwtAudience
  sub := user.id
  iat := now
  exp := now + settings.refreshTokenTtlSeconds
  amr
  emailVerified := user.emailVerified
  type := some "refresh"
  appId := truthy appId

/-- `issue_tokens`. -/
def issueTokens (user : UserDoc) (amr : String) (appId : Option String)
    (scopes : Option (List String)) (now : Int) : TokenPair where
  access := generateAccessToken settings user amr appId scopes now
  refresh := generateRefreshToken settings user amr appId now

/-- `pyjwt.decode` of a token that is signed: it is current, and from and for the right party. -/
def decodes (now : Int) (token : JwtClaims) : Bool :=
  now < token.exp && token.iat ≤ now && token.iss = settings.jwtIssuer && token.aud = settings.jwtAudience

/-- `verify_token` with `token_type="refresh"`, with whether it passes. -/
def verifiesRefresh (now : Int) (token : JwtClaims) : Bool :=
  decodes settings now token && token.type = some "refresh"

end TokenFactory

/-! ## Who makes a request -/

/-- `CurrentUser`. -/
structure CurrentUser where
  userId : ObjectId
  deriving DecidableEq, Repr

/-- `CurrentUser`, with what the guards and the scope checks read of it. -/
structure ResolvedUser extends CurrentUser where
  emailVerified : Bool
  /-- The scopes of the API key, where one was presented. -/
  apiKeyDoc : Option (List String) := none
  amr : String := "pwd"
  scopes : Option (List String) := none
  appId : Option String := none
  email : Option String := none
  deriving DecidableEq, Repr

/-- What the guards raise. -/
inductive AuthError where
  | authenticationRequired
  | apiKeyUsed
  | interactiveSessionRequired
  deriving DecidableEq, Repr

/-- The JWT path of `get_current_user` (`dependencies/auth.py:204-263`). -/
def getCurrentUser (settings : JwtSettings) (now : Int) (token : JwtClaims) : Option ResolvedUser :=
  if TokenFactory.decodes settings now token = false then none
  else if token.type = some "refresh" then none
  else some {
    userId := token.sub
    emailVerified := token.emailVerified
    amr := token.amr
    email := token.email
    scopes := token.scp
    appId := token.appId }

/-- `require_auth`. -/
def requireAuth (user : Option ResolvedUser) : Except AuthError ResolvedUser :=
  match user with
  | none => .error .authenticationRequired
  | some user => .ok user

/-- `require_jwt` (`dependencies/auth.py:284-301`). -/
def requireJwt (user : Option ResolvedUser) : Except AuthError ResolvedUser := do
  let user ← requireAuth user
  if user.apiKeyDoc.isSome then .error .apiKeyUsed
  else if user.appId.isSome then .error .interactiveSessionRequired
  else .ok user

end Spoo
