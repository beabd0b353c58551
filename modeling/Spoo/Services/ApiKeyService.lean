import Spoo.Services.UrlService.Handlers

/-!
# API keys (`schemas/models/api_key.py`, `repositories/api_key_repository.py`, `services/api_key_service.py`)

A key is stored by the hash of its token, and is created when few enough active ones are counted. A key that was
revoked stays, and is not counted.
-/

namespace Spoo

open Mongo Mongo.Collection

/-- `ApiKeyDoc`. -/
structure ApiKeyDoc where
  id : ObjectId
  userId : ObjectId
  tokenPrefix : String
  tokenHash : String
  name : String
  description : Option String := none
  scopes : List String := []
  expiresAt : Option Int := none
  createdAt : Option Int := none
  revoked : Bool := false
  lastUsedAt : Option Int := none
  deriving DecidableEq, Repr

/-- The unique index of `api-keys` (`indexes.py:165`). -/
instance : Document ApiKeyDoc ObjectId String := ⟨ApiKeyDoc.id, ApiKeyDoc.tokenHash⟩

/-- The `api-keys` collection. -/
abbrev ApiKeyStore := Collection ApiKeyDoc

namespace ApiKeyRepository

/-- `insert`: `none` is a `DuplicateKeyError`. -/
protected def insert (keys : ApiKeyStore) (doc : ApiKeyDoc) : Option ApiKeyStore := keys.insertOne doc

/-- `count_by_user`: the keys that are not revoked. -/
def countByUser (keys : ApiKeyStore) (userId : ObjectId) : Nat :=
  (keys.find fun doc => doc.userId = userId && !doc.revoked).length

end ApiKeyRepository

/-! ## The service -/

/-- What the service is built on. -/
structure ApiKeyLib where
  /-- The tokens that `generate_secure_token` yields. -/
  generateSecureToken : Nat → String
  hashToken : String → String

/-- A request for a key. -/
structure CreateApiKey where
  userId : ObjectId
  name : String
  scopes : List String
  emailVerified : Bool
  description : Option String := none
  expiresAt : Option Int := none
  deriving DecidableEq, Repr

/-- The keys, the clock, and how many ids and tokens have been drawn. -/
structure ApiKeyWorld where
  keys : ApiKeyStore
  clock : Int
  issued : Nat

/-- A call of `create`; `raised` is the error of a refused insert. -/
inductive ApiKeyPhase where
  | counting (request : CreateApiKey)
  | inserting (request : CreateApiKey)
  | created (doc : ApiKeyDoc) (raw : String)
  | refused (error : AppError)
  | raised
  deriving DecidableEq, Repr

namespace ApiKeyService

variable (lib : ApiKeyLib) (maxActiveKeys : Nat)

/-- The document that a request stores. -/
def apiKeyDoc (request : CreateApiKey) (s : ApiKeyWorld) : ApiKeyDoc where
  id := s.issued
  userId := request.userId
  tokenPrefix := String.ofList ((lib.generateSecureToken s.issued).toList.take 8)
  tokenHash := lib.hashToken (lib.generateSecureToken s.issued)
  name := request.name
  description := request.description
  scopes := request.scopes
  expiresAt := request.expiresAt
  createdAt := some s.clock

/-- One move of a call (`api_key_service.py:34-102`). -/
def move (phase : ApiKeyPhase) (s : ApiKeyWorld) : ApiKeyPhase × ApiKeyWorld :=
  match phase with
  | .counting request =>
    if request.emailVerified = false then
      (.refused ⟨.forbidden, "Email verification required", none⟩, s)
    else if maxActiveKeys ≤ ApiKeyRepository.countByUser s.keys request.userId then
      (.refused ⟨.validation, "maximum " ++ toString maxActiveKeys ++ " active keys allowed", none⟩, s)
    else (.inserting request, s)
  | .inserting request =>
    match ApiKeyRepository.insert s.keys (apiKeyDoc lib request s) with
    | none => (.raised, s)
    | some keys =>
      (.created (apiKeyDoc lib request s) (lib.generateSecureToken s.issued),
        { s with keys, issued := s.issued + 1 })
  | .created doc raw => (.created doc raw, s)
  | .refused error => (.refused error, s)
  | .raised => (.raised, s)

end ApiKeyService

end Spoo
