import Spoo.Services.UrlService.Service

/-!
# MetaImageValidator (`services/meta_tags/validator.py`)

The consumer of the events that ask for a validation of an external preview image. Its writes find
the link by its id and the image; what it refreshes afterwards is the key that the event names.
-/

namespace Spoo

open Interleave

/-- `MetaImageValidateEvent` (`meta_tags/events.py:27-43`). -/
structure MetaImageValidateEvent where
  urlId : ObjectId
  linkAlias : String
  domain : String
  imageUrl : String

/-- `(alias, domain)`. -/
def MetaImageValidateEvent.key (event : MetaImageValidateEvent) : String × String :=
  (event.linkAlias, event.domain)

/-- How `fetch_public_image` ends: `FetchDeniedError`, `FetchHardError`, `FetchTransientError`, or
with an image of which the size is known or not. -/
inductive ImageFetch where
  | denied
  | hardError
  | transientError
  | fetched (imageMeta : MetaImageMeta)
  deriving DecidableEq

/-- The local variables of `consume` and `_invalidate`. -/
structure ValidatorVars where
  fetch : Option ImageFetch := none
  /-- A `FetchTransientError` leaves the event to be delivered again. -/
  raised : Bool := false
  changed : Bool := false
  doc : Option UrlV2Doc := none

namespace MetaImageValidator

abbrev Call := Action ValidatorVars Stores

variable (edge : EdgeConfig) (event : MetaImageValidateEvent)

/-- `fetch_public_image`. -/
def fetchCall (fetchPublicImage : String → ImageFetch) : Call := fun v s =>
  let fetch := fetchPublicImage event.imageUrl
  ({ v with fetch := some fetch, raised := decide (fetch = .transientError) }, s)

/-- `clear_meta_image` after a `FetchHardError`, and `record_meta_image_validation` after a
fetch. -/
def writeCall : Call := fun v s =>
  match v.fetch with
  | some .hardError =>
    let r := UrlRepository.clearMetaImage s.urls event.urlId event.imageUrl
    ({ v with changed := r.2 }, { s with urls := r.1 })
  | some (.fetched imageMeta) =>
    let r := UrlRepository.recordMetaImageValidation s.urls event.urlId event.imageUrl imageMeta
    ({ v with changed := r.2 }, { s with urls := r.1 })
  | _ => (v, s)

/-- `url_cache.invalidate`. -/
def invalidateCall : Call := fun v s =>
  if v.changed then (v, { s with cache := s.cache.invalidate event.linkAlias event.domain })
  else (v, s)

/-- `find_by_alias`, where there is an edge. -/
def findCall : Call := fun v s =>
  if v.changed && edge.enabled then
    ({ v with doc := UrlRepository.findByAlias s.urls event.linkAlias event.domain }, s)
  else (v, s)

/-- `og_writethrough.sync`. -/
def syncCall (now : Int) : Call := fun v s =>
  match v.doc with
  | some doc =>
    (v, { s with
      kv := ogSync edge.render s.kv edge.systemDefaultDomain edge.ogTtlSeconds (.fromV2Doc doc)
        now })
  | none => (v, s)

/-- The calls of `consume` and `_invalidate` (`validator.py:65-134`). A payload that is no event
is dropped. -/
def consumeCalls (fetchPublicImage : String → ImageFetch) (now : Int) :
    Option MetaImageValidateEvent → List Call
  | none => []
  | some event => [
    fetchCall event fetchPublicImage,
    writeCall event,
    invalidateCall event,
    findCall edge event,
    syncCall edge now]

/-- `consume`. -/
def consume (fetchPublicImage : String → ImageFetch) (payload : Option MetaImageValidateEvent)
    (now : Int) (s : Stores) : Stores :=
  (runActions (consumeCalls edge fetchPublicImage now payload) {} s).2

end MetaImageValidator

end Spoo
