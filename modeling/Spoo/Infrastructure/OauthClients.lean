import Spoo.Repositories.UserRepository

/-!
# The state of an OAuth flow (`infrastructure/oauth_clients.py`)

What a flow was begun for goes through the provider in a string of `key=value` parts, and is read back from it by
the callback. The parts are joined as they are, and the last one is what the browser asked to be sent to
afterwards: where that has an ampersand in it, it reads as more parts, and a part overrides the earlier ones of
its key.
-/

namespace Spoo

/-- `OAuthAction`. -/
inductive OAuthAction where
  | login
  | link
  deriving DecidableEq, Repr

def OAuthAction.value : OAuthAction → String
  | .login => "login"
  | .link => "link"

/-- What the strings are made with. -/
structure OauthLib where
  /-- `str(ObjectId)`. -/
  objectIdText : ObjectId → String
  /-- `ObjectId(text)`: `none` is an `InvalidId`. -/
  objectId : String → Option ObjectId
  /-- The strings that `secrets.token_urlsafe(32)` yields. -/
  tokenUrlsafe : Nat → String
  /-- `str.lower`. -/
  lower : String → String
  /-- `datetime.isoformat`, in UTC. -/
  isoformat : Int → String
  /-- `datetime.fromisoformat`, after `Z` was replaced. -/
  fromisoformat : String → Option Int

/-- What the documentation of these says of the strings: an id reads back, and there is no ampersand. -/
structure OauthLib.Lawful (lib : OauthLib) : Prop where
  objectId_text : ∀ id, lib.objectId (lib.objectIdText id) = some id
  text_plain : ∀ id, '&' ∉ (lib.objectIdText id).toList
  token_plain : ∀ n, '&' ∉ (lib.tokenUrlsafe n).toList
  isoformat_plain : ∀ t, '&' ∉ (lib.isoformat t).toList

/-- What a flow is begun for. -/
structure OauthBegin where
  provider : OAuthProvider
  action : OAuthAction := .login
  userId : Option ObjectId := none
  nextUrl : Option String := none
  deriving DecidableEq, Repr

/-- `OAUTH_STATE_TTL_SECONDS`. -/
def oauthStateTtlSeconds : Nat := 600

/-- The first parts of a state, as keys and values. -/
def stateItems (lib : OauthLib) (begun : OauthBegin) (nonce : Nat) (now : Int) : List (String × String) :=
  [("provider", begun.provider.value), ("action", begun.action.value), ("nonce", lib.tokenUrlsafe nonce),
    ("timestamp", lib.isoformat now)] ++ (begun.userId.map fun id => ("user_id", lib.objectIdText id)).toList

/-- A part of a state. -/
def statePart (item : String × String) : List Char := item.1.toList ++ '=' :: item.2.toList

/-- `generate_oauth_state` (`oauth_clients.py:158-176`), as the characters of the string. -/
def generateOauthState (lib : OauthLib) (begun : OauthBegin) (nonce : Nat) (now : Int) : List Char :=
  List.intercalate ['&'] ((stateItems lib begun nonce now ++
    ((begun.nextUrl.filter (· ≠ "")).map fun next => ("next", next)).toList).map statePart)

/-- A part that has a `=` in it, split at the first one. -/
def stateItem (part : List Char) : Option (String × String) :=
  if '=' ∈ part then
    some (String.ofList (part.takeWhile (· ≠ '=')), String.ofList ((part.dropWhile (· ≠ '=')).drop 1))
  else none

/-- The dictionary that a state is read into. -/
def stateData (state : List Char) : PyDict String String :=
  PyDict.ofList ((state.splitOn '&').filterMap stateItem)

/-- `verify_oauth_state`, without the reason of a failure (`oauth_clients.py:179-209`). Times are in milliseconds,
and an age is compared in full. -/
def verifyOauthState (lib : OauthLib) (state : List Char) (expectedProvider : OAuthProvider) (now : Int) :
    Option (PyDict String String) :=
  let data := stateData state
  if data.get? "provider" ≠ some expectedProvider.value then none
  else match (data.get? "timestamp").filter (· ≠ "") with
    | none => none
    | some text =>
      match lib.fromisoformat text with
      | none => none
      | some timestamp => if oauthStateTtlSeconds * 1000 < now - timestamp then none else some data

end Spoo
