import Spoo.Lib.Aggregation
import Spoo.Schemas.Webhook
import Spoo.Services.BulkUrlService
import Spoo.Services.TagService
import Spoo.Services.UrlService.Alias
import Spoo.Shared.Validators

/-!
# The calls that write tags

`TagService` keeps the registry and takes a deleted tag off the links. `UrlService.create`,
`UrlService.update` and `bulk_tag` put tags onto links, after `assert_owned` has found them in the
registry. Each access to a collection is a move of its own.

`bulk_tag` computes the tags of a link in Python, for its verdict and for the event, and has the
database compute them once more in its write (`services/bulk_url_service.py`).
-/

namespace Spoo

open Aggregation Agents

/-! ## The pipeline of `bulk_tag` -/

/-- `BulkTagUrlsRequest`, as its validators leave it (`dto/requests/bulk.py:134-178`). -/
structure BulkTagUrlsRequest where
  add : List String := []
  remove : List String := []
  add_normalised : ∃ raw, normaliseObjectIds none raw = some add
  remove_normalised : ∃ raw, normaliseObjectIds none raw = some remove
  some_tag : add ≠ [] ∨ remove ≠ []
  add_le : add.length ≤ BulkUrlService.tagsMaxPerLink
  disjoint : ∀ tagId ∈ add, tagId ∉ remove

namespace BulkTagUrlsRequest

/-- `add_ids`. The text of an id always parses. -/
def addIds (request : BulkTagUrlsRequest) : List ObjectId := request.add.filterMap parseObjectId

/-- `remove_ids`. -/
def removeIds (request : BulkTagUrlsRequest) : List ObjectId := request.remove.filterMap parseObjectId

end BulkTagUrlsRequest

namespace BulkUrlService

/-- `kept`: the tags of the link that are not removed. -/
def keptExpr (remove : List ObjectId) : Expr ObjectId :=
  .filter (.ifNull (.field "tag_ids") (.literal (.array [])))
    (.not (.isIn (.var "this") (.literal (.array remove))))

/-- What the pipeline sets `tag_ids` to (`bulk_url_service.py:634-664`). -/
def tagIdsExpr (add remove : List ObjectId) : Expr ObjectId :=
  .letIn "kept" (keptExpr remove)
    (.concatArrays (.var "kept")
      (.filter (.literal (.array add)) (.not (.isIn (.var "this") (.var "kept")))))

/-- The fields of a stored link that the pipeline reads. Links from before there were tags have no
`tag_ids`. -/
def tagFields (stored : Option (List ObjectId)) : String → Value ObjectId := fun name =>
  if name = "tag_ids" then stored.elim .missing .array else .missing

theorem eval_keptExpr (remove : List ObjectId) (stored : Option (List ObjectId)) (env : Env ObjectId) :
    eval (tagFields stored) env (keptExpr remove) =
      some (.array ((stored.getD []).filter (· ∉ remove))) := by
  refine eval_filter ?_ fun x _ => eval_not_isIn_this rfl
  cases stored <;> simp [eval, tagFields]

/-- The database computes the list that Python computes. -/
theorem eval_tagIdsExpr (add remove : List ObjectId) (stored : Option (List ObjectId)) :
    eval (tagFields stored) .empty (tagIdsExpr add remove) =
      some (.array (nextTags add remove (stored.getD []))) := by
  have hkept : eval (tagFields stored) .empty (keptExpr remove) =
      some (.array ((stored.getD []).filter (· ∉ remove))) := eval_keptExpr remove stored .empty
  unfold tagIdsExpr
  rw [eval_letIn hkept]
  refine eval_concatArrays ?_ (eval_filter rfl fun x _ => eval_not_isIn_this ?_)
  · rw [eval, Env.bind_same]
  · rw [eval, Env.bind_of_ne (by decide), Env.bind_same]

end BulkUrlService

/-! ## The calls -/

/-- The stores of the links with the registry, the clock, and how many ids have been drawn. -/
structure TaggedWorld where
  stores : Stores
  tags : TagStore
  clock : Int
  issued : Nat

namespace TaggedWorld

/-- What `TagService` sees. -/
def registry (s : TaggedWorld) : TagWorld := ⟨s.tags, s.stores.urls, s.clock, s.issued⟩

/-- What `TagService` has left. -/
def withRegistry (s : TaggedWorld) (registry : TagWorld) : TaggedWorld :=
  { s with
    stores := { s.stores with urls := registry.urls }
    tags := registry.tags
    issued := registry.issued }

/-- The links as a write has left them. -/
def withUrls (s : TaggedWorld) (urls : UrlStore) : TaggedWorld :=
  { s with stores := { s.stores with urls } }

/-- The clock goes on. -/
def wait (s : TaggedWorld) (delay : Nat) : TaggedWorld := { s with clock := s.clock + delay }

end TaggedWorld

/-- What a call answers. -/
inductive TagCallOutcome where
  | created (result : Except Raised UrlRow)
  | updated (result : Except Raised UrlV2Doc)
  | retagged (result : Except AppError BulkBatch)

/-- Where a call stands, with what it has read. -/
inductive TagCallPhase where
  | tag (phase : TagPhase)
  | creating (request : CreateUrlRequest) (ownerId : Option ObjectId) (clientIp : String)
      (domain : Option String)
  | resolving (request : CreateUrlRequest) (ownerId : Option ObjectId)
      (clientIp linkAlias domain : String) (metaTags : Option (MetaTagsRequest × Option MetaImageMeta))
  | inserting (row : UrlRow)
  | finding (urlId : ObjectId) (request : UpdateUrlRequest) (ownerId : ObjectId)
      (clientIp : Option String)
  | deciding (urlId : ObjectId) (request : UpdateUrlRequest) (clientIp : Option String)
      (existing : UrlV2Doc)
  | writing (urlId : ObjectId) (existing : UrlV2Doc) (ops : UrlOps)
  | vouching (ids add remove : List ObjectId) (ownerId : ObjectId)
  | loading (ids add remove : List ObjectId) (ownerId : ObjectId)
  | retagging (batch : BulkBatch) (changed : List UrlV2Doc) (add remove : List ObjectId)
      (ownerId : ObjectId) (now : Int)
  | done (outcome : TagCallOutcome)

/-- The time since the last move of anyone, and the service that a call runs in. -/
structure TagCallAnswer where
  delay : Nat
  env : CreateEnv

namespace UrlService

/-- `_resolve_tag_ids` (`url_service.py:1660-1670`). -/
def resolveTagIds (tags : TagStore) (raw : Option (List String)) (ownerId : Option ObjectId) :
    Except AppError (List ObjectId) :=
  let raw := raw.getD []
  if raw = [] then .ok []
  else match ownerId.filter (· ≠ anonymousOwnerId) with
    | none => validationError "tags require an account" "tag_ids"
    | some ownerId =>
      match raw.mapM parseObjectId with
      -- `InvalidId`: the request has been validated, so it has no such id.
      | none => .error ⟨.internal, "not a valid ObjectId", none⟩
      | some tagIds => do
        TagService.assertOwned tags ownerId tagIds
        .ok tagIds

end UrlService

/-- The environment of an update on the registry as it is. -/
def UpdateEnv.onTags (env : UpdateEnv) (tags : TagStore) : UpdateEnv :=
  { env with resolveTagIds := fun raw ownerId => UrlService.resolveTagIds tags raw (some ownerId) }

namespace BulkUrlService

/-- The ownership check of `bulk_tag`. -/
def vouchTags (tags : TagStore) (add : List ObjectId) (ownerId : ObjectId) : Except AppError Unit :=
  if add = [] then .ok () else TagService.assertOwned tags ownerId add "add"

/-- The verdicts of `bulk_tag` before its write, with the documents left to it. -/
def judgeTags (add remove : List ObjectId) (loaded : BulkBatch) : BulkBatch × List UrlV2Doc :=
  loaded.pending.foldl (fun acc doc =>
    match tagVerdict add remove acc.1 doc with
    | some batch => (batch, acc.2)
    | none => (acc.1, acc.2 ++ [doc])) (loaded, [])

end BulkUrlService

namespace TagCallPhase

variable (lib : TagLib) (cfg : AliasConfig)

/-- One move of a call. -/
def go (env : CreateEnv) (phase : TagCallPhase) (s : TaggedWorld) : TagCallPhase × TaggedWorld :=
  match phase with
  | .tag phase =>
    let moved := TagService.move lib phase s.registry
    (.tag moved.1, s.withRegistry moved.2)
  -- `create` (`url_service.py:951-1131`).
  | .creating request ownerId clientIp domain =>
    let env := env.onStores cfg s.stores
    let target := targetDomain env.toUpdateEnv domain
    let checked := do
      let metaTags ← UrlService.checkRequest env.toUpdateEnv request (ownerId.getD anonymousOwnerId) s.clock
      let linkAlias ← UrlService.chooseAlias env request target s.stores
      .ok (linkAlias, metaTags)
    match checked with
    | .error e => (.done (.created (.error (.app e))), s)
    | .ok (linkAlias, metaTags) => (.resolving request ownerId clientIp linkAlias target metaTags, s)
  | .resolving request ownerId clientIp linkAlias domain metaTags =>
    match UrlService.resolveTagIds s.tags request.tagIds ownerId with
    | .error e => (.done (.created (.error (.app e))), s)
    | .ok tagIds =>
      (.inserting (UrlService.newRow env request ownerId clientIp linkAlias domain tagIds metaTags), s)
  | .inserting row =>
    match UrlRepository.insert s.stores.urls row with
    | none => (.done (.created (.error .duplicateKey)), s)
    | some urls => (.done (.created (.ok row)), s.withUrls urls)
  -- `update` (`url_service.py:1296-1371`).
  | .finding urlId request ownerId clientIp =>
    match loadOwned (UrlRepository.findById s.stores.urls urlId) ownerId "Cannot modify a blocked URL" with
    | .error e => (.done (.updated (.error (.app e))), s)
    | .ok existing => (.deciding urlId request clientIp existing, s)
  | .deciding urlId request clientIp existing =>
    let env := (env.toUpdateEnv.onStores cfg s.stores).onTags s.tags
    match buildOps env s.clock request clientIp existing with
    | .error e => (.done (.updated (.error (.app e))), s)
    | .ok ops =>
      if ops = {} then (.done (.updated (.ok existing)), s)
      else (.writing urlId existing { ops with updatedAt := some s.clock }, s)
  | .writing urlId existing ops =>
    match UrlRepository.update s.stores.urls urlId ops.toUpdate with
    | none => (.done (.updated (.error .duplicateKey)), s)
    | some urls => (.done (.updated (.ok (ops.merge existing))), s.withUrls urls)
  -- `bulk_tag` (`bulk_url_service.py:589-684`).
  | .vouching ids add remove ownerId =>
    match BulkUrlService.vouchTags s.tags add ownerId with
    | .error e => (.done (.retagged (.error e)), s)
    | .ok () => (.loading ids add remove ownerId, s)
  | .loading ids add remove ownerId =>
    let loaded := BulkUrlService.load s.stores.urls ids ownerId "Cannot modify a blocked URL"
    let judged := BulkUrlService.judgeTags add remove loaded
    if judged.2 = [] then (.done (.retagged (.ok judged.1)), s)
    else (.retagging judged.1 judged.2 add remove ownerId s.clock, s)
  | .retagging batch changed add remove ownerId now =>
    match UrlRepository.updateByIdsAndOwner s.stores.urls (changed.map (·.id)) ownerId
        (BulkUrlService.retag add remove now).toUpdate with
    | none => (.done (.retagged (.ok (batch.rejectAll changed))), s)
    | some urls => (.done (.retagged (.ok (batch.okAll changed))), s.withUrls urls)
  | .done outcome => (.done outcome, s)

/-- One move of a call, some time after the last move of anyone. -/
def move {ι : Type} : Move ι TagCallAnswer TagCallPhase TaggedWorld :=
  fun _ answer phase s => go lib cfg answer.env phase (s.wait answer.delay)

end TagCallPhase

end Spoo
