import Mathlib.Data.Prod.Lex
import Spoo.Schemas.Url

/-!
# Verification tokens (`schemas/models/token.py`, `repositories/token_repository.py`)

One document a code that was sent out, of which only the hash is kept. A token is consumed by a write that is
guarded by its being unused. The reads are not, and a count is one of the documents that are still there. Times
are in milliseconds.
-/

namespace Spoo

open Mongo Mongo.Collection

/-- `TokenType`. -/
inductive TokenType where
  | emailVerify
  | passwordReset
  | deviceAuth
  | deletionRestore
  deriving DecidableEq, Repr

/-- `VerificationTokenDoc`. -/
structure VerificationTokenDoc where
  id : ObjectId
  userId : ObjectId
  email : String
  tokenHash : String
  tokenType : TokenType
  expiresAt : Int
  createdAt : Option Int := none
  usedAt : Option Int := none
  attempts : Nat := 0
  appId : Option String := none
  codeChallenge : Option String := none
  deriving DecidableEq, Repr

/-- No field of a token but its id is unique. -/
instance : Document VerificationTokenDoc ObjectId ObjectId := ⟨(·.id), (·.id)⟩

/-- The `verification-tokens` collection. -/
abbrev TokenStore := Collection VerificationTokenDoc

/-! ## The repository -/

namespace TokenRepository

variable (tokens : TokenStore)

/-- `create`: `none` is a failed insert. -/
def create (doc : VerificationTokenDoc) : Option TokenStore := tokens.insertOne doc

/-- Unused, and not expired. -/
def isLive (now : Int) (doc : VerificationTokenDoc) : Bool :=
  doc.usedAt = none && now < doc.expiresAt

/-- The filter of `consume_by_hash`. -/
def isLiveByHash (tokenHash : String) (tokenType : TokenType) (now : Int)
    (doc : VerificationTokenDoc) : Bool :=
  doc.tokenHash = tokenHash && doc.tokenType = tokenType && isLive now doc

/-- Set `used_at`. -/
def withUse (now : Int) (doc : VerificationTokenDoc) : VerificationTokenDoc :=
  { doc with usedAt := some now }

/-- `consume_by_hash`, with the document before the write (`token_repository.py:61-88`). -/
def consumeByHash (tokenHash : String) (tokenType : TokenType) (now : Int) :
    Option VerificationTokenDoc × TokenStore :=
  match tokens.findOne (isLiveByHash tokenHash tokenType now) with
  | none => (none, tokens)
  | some doc =>
    (some doc, tokens.updateOne doc.id (isLiveByHash tokenHash tokenType now) {
      apply := withUse now
      id_apply := fun _ => rfl
      key_apply := fun _ => rfl })

/-- `consume_if_unused`, with whether a document matched (`token_repository.py:100-113`). -/
def consumeIfUnused (tokenId : ObjectId) (now : Int) : Bool × TokenStore :=
  ((tokens.lookup tokenId).any (isLive now), tokens.updateOne tokenId (isLive now) {
    apply := withUse now
    id_apply := fun _ => rfl
    key_apply := fun _ => rfl })

/-- The order of `sort=[("created_at", -1)]`: a missing time comes last. -/
def newestFirst (doc : VerificationTokenDoc) : Nat ×ₗ Int :=
  match doc.createdAt with
  | some createdAt => toLex (0, -createdAt)
  | none => toLex (1, 0)

/-- `find_latest_by_user`. -/
def findLatestByUser (userId : ObjectId) (tokenType : TokenType) : Option VerificationTokenDoc :=
  tokens.findLeast
    (fun doc => doc.userId = userId && doc.tokenType = tokenType && doc.usedAt = none) newestFirst

/-- `increment_attempts`. -/
def incrementAttempts (tokenId : ObjectId) : TokenStore :=
  tokens.updateOne tokenId (fun _ => true) {
    apply := fun doc => { doc with attempts := doc.attempts + 1 }
    id_apply := fun _ => rfl
    key_apply := fun _ => rfl }

/-- `delete_by_user`. -/
def deleteByUser (userId : ObjectId) (tokenType : Option TokenType := none)
    (appId : Option String := none) : TokenStore :=
  tokens.deleteMany fun doc =>
    doc.userId = userId && tokenType.all (doc.tokenType = ·) && appId.all (doc.appId = some ·)

/-- `delete_by_hash`. -/
def deleteByHash (tokenHash : String) (tokenType : TokenType) : TokenStore :=
  tokens.deleteMany fun doc => doc.tokenHash = tokenHash && doc.tokenType = tokenType

/-- `count_recent`. -/
def countRecent (userId : ObjectId) (tokenType : TokenType) (minutes : Nat) (now : Int) : Nat :=
  (tokens.find fun doc =>
    doc.userId = userId && doc.tokenType = tokenType &&
      doc.createdAt.any (now - minutes * 60000 ≤ ·)).length

/-- What the TTL index on `expires_at` may remove at a time. -/
def isExpired (now : Int) (doc : VerificationTokenDoc) : Bool := doc.expiresAt ≤ now

end TokenRepository

end Spoo
