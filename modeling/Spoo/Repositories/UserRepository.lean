import Spoo.Schemas.Url

/-!
# The user repository (`repositories/user_repository.py`)

The guarded writes of an account's status. Times are in milliseconds, which is what BSON keeps of
them.
-/

namespace Spoo

open Mongo Mongo.Collection

/-- `UserStatus`. -/
inductive UserStatus where
  | active
  | inactive
  | pendingDeletion
  | erasing
  deriving DecidableEq, Repr

/-- `OAuthProvider`. -/
inductive OAuthProvider where
  | google
  | github
  | discord
  deriving DecidableEq, Repr

/-- The text that stands for a provider. -/
def OAuthProvider.value : OAuthProvider → String
  | .google => "google"
  | .github => "github"
  | .discord => "discord"

/-- `AuthProviderEntry`. -/
structure AuthProviderEntry where
  provider : OAuthProvider
  providerUserId : String
  deriving DecidableEq, Repr

/-- `UserDoc`: what the account services read of it. -/
structure UserDoc where
  id : ObjectId
  email : String
  status : UserStatus := .active
  deletionRequestedAt : Option Int := none
  purgeAfter : Option Int := none
  erasureClaimedAt : Option Int := none
  storagePrefix : Option String := none
  emailVerified : Bool := false
  passwordHash : Option String := none
  passwordSet : Bool := false
  authProviders : List AuthProviderEntry := []
  updatedAt : Option Int := none
  deriving DecidableEq, Repr

instance : Document UserDoc ObjectId String := ⟨(·.id), (·.email)⟩

/-- The `users` collection. -/
abbrev UserStore := Collection UserDoc

namespace UserRepository

variable (users : UserStore) (user : ObjectId)

/-- `update`, with whether a document matched. -/
def update (ops : KeyedUpdate UserDoc) : Bool × UserStore :=
  ((users.lookup user).isSome, users.updateOne user (fun _ => true) ops)

/-- `_purge_due_clauses` (`user_repository.py:22-39`). -/
def purgeDue (now : Int) (leaseSeconds : Nat) (doc : UserDoc) : Bool :=
  doc.status = .pendingDeletion && doc.purgeAfter.any (· ≤ now) ||
    doc.status = .erasing && doc.erasureClaimedAt.any (· ≤ now - leaseSeconds * 1000)

/-- `mark_pending_deletion`, with whether it changed anything. -/
def markPendingDeletion (graceDays : Nat) (now : Int) : Bool × UserStore :=
  ((users.lookup user).any (·.status = .active), users.updateOne user (·.status = .active) {
    apply := fun doc => { doc with
      status := .pendingDeletion
      deletionRequestedAt := some now
      purgeAfter := some (now + graceDays * 86400000) }
    id_apply := fun _ => rfl
    key_apply := fun _ => rfl })

/-- `claim_for_erasure`, with whether the claim holds (`user_repository.py:139-166`). -/
def claimForErasure (now : Int) (leaseSeconds : Nat) : Bool × UserStore :=
  ((users.lookup user).any (purgeDue now leaseSeconds),
    users.updateOne user (purgeDue now leaseSeconds) {
      apply := fun doc => { doc with status := .erasing, erasureClaimedAt := some now }
      id_apply := fun _ => rfl
      key_apply := fun _ => rfl })

/-- `restore`, with whether it changed anything (`user_repository.py:168-189`). -/
def restore : Bool × UserStore :=
  ((users.lookup user).any (·.status = .pendingDeletion),
    users.updateOne user (·.status = .pendingDeletion) {
      apply := fun doc => { doc with
        status := .active
        deletionRequestedAt := none
        purgeAfter := none
        erasureClaimedAt := none }
      id_apply := fun _ => rfl
      key_apply := fun _ => rfl })

/-- The order of `sort("purge_after", 1)`: a missing deadline comes first. -/
def purgeOrder (a b : UserDoc) : Bool :=
  match a.purgeAfter, b.purgeAfter with
  | none, _ => true
  | some _, none => false
  | some x, some y => x ≤ y

/-- `find_purge_due`. -/
def findPurgeDue (now : Int) (limit leaseSeconds : Nat) : List UserDoc :=
  ((users.find (purgeDue now leaseSeconds)).mergeSort purgeOrder).take limit

/-- `delete_hard`, with whether the document was removed. -/
def deleteHard : Bool × UserStore :=
  ((users.lookup user).any (·.status = .erasing),
    users.deleteMany fun doc => doc.id = user && doc.status = .erasing)

end UserRepository

end Spoo
