import Spoo.Schemas.Url

/-!
# Apps and their grants (`schemas/models/app.py`, `schemas/models/app_grant.py`,
`repositories/app_grant_repository.py`)

What the registry says of an app, and what a user has allowed it. A grant is revoked by a mark, and a later
consent takes the mark off again.
-/

namespace Spoo

open Mongo Mongo.Collection

/-- `AppStatus`. -/
inductive AppStatus where
  | live
  | comingSoon
  deriving DecidableEq, Repr

/-- `AppType`. -/
inductive AppType where
  | deviceAuth
  deriving DecidableEq, Repr

/-- `AppEntry`: what the device flow reads of it. -/
structure AppEntry where
  status : AppStatus := .comingSoon
  type : AppType := .deviceAuth
  scopes : List String := []
  deriving DecidableEq, Repr

/-- `is_live_device_app`. -/
def AppEntry.isLiveDeviceApp (entry : AppEntry) : Bool :=
  entry.status = .live && entry.type = .deviceAuth

/-- `AppGrantDoc`. -/
structure AppGrantDoc where
  id : ObjectId
  userId : ObjectId
  appId : String
  grantedAt : Int
  lastUsedAt : Option Int := none
  revokedAt : Option Int := none
  scopes : Option (List String) := none
  deriving DecidableEq, Repr

/-- One grant a user and app. -/
instance : Document AppGrantDoc ObjectId (ObjectId × String) := ⟨(·.id), fun doc => (doc.userId, doc.appId)⟩

/-- The `app-grants` collection. -/
abbrev GrantStore := Collection AppGrantDoc

/-! ## The repository -/

namespace AppGrantRepository

variable (grants : GrantStore) (userId : ObjectId) (appId : String)

/-- The filter of an active grant. -/
def isActive (doc : AppGrantDoc) : Bool :=
  doc.userId = userId && doc.appId = appId && doc.revokedAt = none

/-- `find_active_grant`. -/
def findActiveGrant : Option AppGrantDoc := grants.findOne (isActive userId appId)

/-- `create_or_reactivate`: `none` is a failed insert (`app_grant_repository.py:71-123`). -/
def createOrReactivate (newId : ObjectId) (scopes : Option (List String)) (now : Int) :
    Option GrantStore :=
  if (grants.findOne fun doc => doc.userId = userId && doc.appId = appId).isSome then
    some (grants.updateMany (fun doc => doc.userId = userId && doc.appId = appId) {
      apply := fun doc => { doc with grantedAt := now, revokedAt := none, scopes }
      id_apply := fun _ => rfl
      key_apply := fun _ => rfl })
  else grants.insertOne { id := newId, userId, appId, grantedAt := now, scopes }

/-- `revoke`, with whether a grant was revoked. -/
def revoke (now : Int) : Bool × GrantStore :=
  ((findActiveGrant grants userId appId).isSome, grants.updateMany (isActive userId appId) {
    apply := fun doc => { doc with revokedAt := some now }
    id_apply := fun _ => rfl
    key_apply := fun _ => rfl })

/-- `touch_last_used`. -/
def touchLastUsed (now : Int) : GrantStore :=
  grants.updateMany (isActive userId appId) {
    apply := fun doc => { doc with lastUsedAt := some now }
    id_apply := fun _ => rfl
    key_apply := fun _ => rfl }

end AppGrantRepository

end Spoo
