import Spoo.Lib.Agents
import Spoo.Repositories.TagRepository
import Spoo.Repositories.UrlRepository
import Spoo.Services.UrlService.Handlers

/-!
# TagService (`services/tag_service.py`)

A tag is created when few enough are counted. A tag that is deleted is first taken off the links of its
owner, and then out of the registry.
-/

namespace Spoo

open Agents Mongo

/-- What the service is built on. -/
structure TagLib where
  /-- `normalise_tag`, on names it accepts. -/
  normaliseTag : String → String

/-- A request for a tag. -/
structure CreateTag where
  ownerId : ObjectId
  name : String
  color : Option TagColor := none
  icon : String := "tag"
  deriving DecidableEq, Repr

/-- The registry, the links, the clock, and how many ids have been drawn. -/
structure TagWorld where
  tags : TagStore
  urls : UrlStore
  clock : Int
  issued : Nat

/-- What a call answers. -/
inductive TagOutcome where
  | created (doc : TagDoc)
  | deleted (linksUpdated : Nat)
  | refused (error : AppError)
  deriving DecidableEq, Repr

/-- A call of `create` or of `delete`. -/
inductive TagPhase where
  | counting (request : CreateTag)
  | listing (request : CreateTag)
  | inserting (request : CreateTag) (color : TagColor)
  | finding (ownerId tagId : ObjectId)
  | pulling (ownerId tagId : ObjectId)
  | removing (ownerId tagId : ObjectId) (linksUpdated : Nat)
  | done (outcome : TagOutcome)
  deriving DecidableEq, Repr

/-- The filter of `pull_tag_id_by_owner`. -/
def UrlRepository.ownerTagFilter (ownerId tagId : ObjectId) : UrlQuery :=
  PyDict.ofList [ownerIs ownerId, Query.field .tagIds fun row => tagId ∈ row.tagIds]

@[simp] theorem UrlRepository.matches_ownerTagFilter (ownerId tagId : ObjectId) {row : UrlRow} :
    (ownerTagFilter ownerId tagId).Matches row =
      (decide (row.ownerId = ownerId) && decide (tagId ∈ row.tagIds)) := by
  simp [ownerTagFilter, Query.Matches, PyDict.ofList, PyDict.assignEntry, ownerIs, Query.field]

/-- `{"$pull": {"tag_ids": tag_id}}`. -/
def UrlRepository.pullTagId (tagId : ObjectId) : KeyedUpdate UrlRow where
  apply row := { row with tagIds := row.tagIds.filter (· ≠ tagId) }
  id_apply _ := rfl
  key_apply _ := rfl

/-- `pull_tag_id_by_owner`, with how many links it has modified (`url_repository.py:519-535`). -/
def UrlRepository.pullTagIdByOwner (store : UrlStore) (ownerId tagId : ObjectId) : Nat × UrlStore :=
  ((store.find (ownerTagFilter ownerId tagId).Matches).length,
    store.updateMany (ownerTagFilter ownerId tagId).Matches (pullTagId tagId))

namespace TagService

variable (lib : TagLib)

/-- `_least_used_color`: the first of the colours that are used least. -/
def leastUsedColor (existing : List TagDoc) : TagColor :=
  (autoColors.argmin fun color => existing.countP (·.color = color)).getD .red

/-- `assert_owned` (`tag_service.py:149-163`). -/
def assertOwned (tags : TagStore) (ownerId : ObjectId) (tagIds : List ObjectId)
    (field : String := "tag_ids") : Except AppError Unit :=
  let found := (TagRepository.findByIdsAndOwner tags ownerId tagIds).map (·.id)
  let missing := tagIds.filter (· ∉ found)
  if missing = [] then .ok ()
  else validationError ("unknown tag ids: " ++ ", ".intercalate (missing.map toString)) field

/-- The document that a request stores. -/
def tagDoc (request : CreateTag) (color : TagColor) (s : TagWorld) : TagDoc where
  id := s.issued
  ownerId := request.ownerId
  name := lib.normaliseTag request.name
  color
  icon := request.icon
  createdAt := s.clock

/-- One move of a call (`tag_service.py:30-54` and `90-104`). -/
def move (phase : TagPhase) (s : TagWorld) : TagPhase × TagWorld :=
  match phase with
  | .counting request =>
    if tagsMaxPerOwner ≤ TagRepository.countByOwner s.tags request.ownerId then
      (.done (.refused ⟨.validation, "an account can have at most " ++ toString tagsMaxPerOwner ++ " tags",
        some "name"⟩), s)
    else match request.color with
      | none => (.listing request, s)
      | some color => (.inserting request color, s)
  | .listing request =>
    (.inserting request (leastUsedColor (TagRepository.listByOwner s.tags request.ownerId)), s)
  | .inserting request color =>
    match TagRepository.insert s.tags (tagDoc lib request color s) with
    | none =>
      (.done (.refused ⟨.conflict, "you already have a tag named '" ++ request.name ++ "'", none⟩), s)
    | some tags => (.done (.created (tagDoc lib request color s)), { s with tags, issued := s.issued + 1 })
  | .finding ownerId tagId =>
    if (TagRepository.findByIdAndOwner s.tags ownerId tagId).isSome then (.pulling ownerId tagId, s)
    else (.done (.refused ⟨.notFound, "Tag not found", none⟩), s)
  | .pulling ownerId tagId =>
    let pulled := UrlRepository.pullTagIdByOwner s.urls ownerId tagId
    (.removing ownerId tagId pulled.1, { s with urls := pulled.2 })
  | .removing ownerId tagId linksUpdated =>
    (.done (.deleted linksUpdated),
      { s with tags := (TagRepository.deleteByIdAndOwner s.tags ownerId tagId).2 })
  | .done outcome => (.done outcome, s)

end TagService

end Spoo
