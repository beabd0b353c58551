import Spoo.Schemas.Url

/-!
# Tags (`schemas/models/tag.py`, `repositories/tag_repository.py`)

One document a tag of an owner. Links point at tags by id. The order of what a read finds is left open: nothing
here depends on it.
-/

namespace Spoo

open Mongo Mongo.Collection

/-- `TagColor`. -/
inductive TagColor where
  | gray
  | red
  | orange
  | amber
  | green
  | teal
  | blue
  | violet
  | pink
  deriving DecidableEq, Repr

/-- `AUTO_COLORS`. -/
def autoColors : List TagColor := [.red, .orange, .amber, .green, .teal, .blue, .violet, .pink]

/-- `TAGS_MAX_PER_OWNER`. -/
def tagsMaxPerOwner : Nat := 500

/-- `TagDoc`. -/
structure TagDoc where
  id : ObjectId
  ownerId : ObjectId
  name : String
  color : TagColor := .gray
  icon : String := "tag"
  createdAt : Int
  updatedAt : Option Int := none
  deriving DecidableEq, Repr

/-- The unique index of `tags` (`indexes.py:96`). -/
instance : Document TagDoc ObjectId (ObjectId × String) := ⟨TagDoc.id, fun doc => (doc.ownerId, doc.name)⟩

/-- The `tags` collection. -/
abbrev TagStore := Collection TagDoc

/-! ## The repository -/

namespace TagRepository

variable (tags : TagStore) (ownerId : ObjectId)

/-- `find_by_id_and_owner`. -/
def findByIdAndOwner (tagId : ObjectId) : Option TagDoc :=
  tags.findOne fun doc => doc.id = tagId && doc.ownerId = ownerId

/-- `find_by_ids_and_owner`. -/
def findByIdsAndOwner (tagIds : List ObjectId) : List TagDoc :=
  tags.find fun doc => doc.id ∈ tagIds && doc.ownerId = ownerId

/-- `list_by_owner`. -/
def listByOwner : List TagDoc := tags.find fun doc => doc.ownerId = ownerId

/-- `count_by_owner`. -/
def countByOwner : Nat := (tags.find fun doc => doc.ownerId = ownerId).length

/-- `insert`: `none` is a `DuplicateKeyError`. -/
protected def insert (doc : TagDoc) : Option TagStore := tags.insertOne doc

/-- `delete_by_id_and_owner`, with whether a document was removed. -/
def deleteByIdAndOwner (tagId : ObjectId) : Bool × TagStore :=
  ((findByIdAndOwner tags ownerId tagId).isSome,
    tags.deleteMany fun doc => doc.id = tagId && doc.ownerId = ownerId)

end TagRepository

end Spoo
