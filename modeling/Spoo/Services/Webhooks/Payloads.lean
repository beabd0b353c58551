import Spoo.Services.Click.Events
import Spoo.Services.UrlService.Service

/-!
# Public payloads (`services/webhooks/payloads.py`)

The snapshot of a link and the changes of an update, as its owner's webhooks are told of them. `isoformat` is
the one of `datetime`; the time a link was made at is no part of the stored documents here and is given.
-/

namespace Spoo

open Interleave
open ClickStream (dumpOption dumpRules dumpVariant)

/-- A value of a document or of `update_ops`, as Python holds it. -/
inductive FieldValue where
  | none
  | bool (value : Bool)
  | int (value : Nat)
  | str (value : String)
  | status (value : UrlStatus)
  | datetime (value : Datetime)
  | objectIds (values : List ObjectId)
  | rules (rules : PyDict String String)
  | variants (variants : List AbVariant)
  | metaTags (tags : LinkMetaTags)
  /-- A `UrlDestination`. -/
  | dest (dest : UrlDestination)
  /-- `dest.to_doc()`. -/
  | destDoc (dest : UrlDestination)

namespace FieldValue

def ofOption {α : Type} (wrap : α → FieldValue) : Option α → FieldValue
  | some value => wrap value
  | Option.none => none

/-- `value is not None`. -/
def isSome : FieldValue → Bool
  | none => false
  | _ => true

end FieldValue

/-- `status.value`. -/
def UrlStatus.value : UrlStatus → String
  | .active => "ACTIVE"
  | .inactive => "INACTIVE"
  | .expired => "EXPIRED"
  | .blocked => "BLOCKED"
  | .scheduled => "SCHEDULED"

/-- `_public_meta_tags`. -/
def publicMetaTags (tags : LinkMetaTags) : Json :=
  .obj [("title", .str tags.title), ("description", dumpOption .str tags.description),
    ("image", dumpOption .str tags.image), ("color", dumpOption .str tags.color)]

/-- `UrlDestination.model_dump`. -/
def destFields (dest : UrlDestination) : List (String × Json) :=
  [("scheme", .str dest.scheme), ("host", .str dest.host), ("subdomain", .str dest.subdomain),
    ("registrable_domain", .str dest.registrableDomain),
    ("secondary_hosts", .arr (dest.secondaryHosts.map .str)),
    ("secondary_registrable", .arr (dest.secondaryRegistrable.map .str))]

/-- `UrlDestination.to_doc`: without the lists that are empty. -/
def destDocFields (dest : UrlDestination) : List (String × Json) :=
  (destFields dest).take 4 ++
    (if dest.secondaryHosts = [] then [] else [("secondary_hosts", .arr (dest.secondaryHosts.map .str))]) ++
    if dest.secondaryRegistrable = [] then []
    else [("secondary_registrable", .arr (dest.secondaryRegistrable.map .str))]

def variantsJson (variants : List AbVariant) : Json := .arr (variants.map dumpVariant)

section

variable (isoformat : Datetime → String)

/-- The items of a snapshot. -/
def snapshotItems (createdAt : Datetime) (doc : UrlV2Doc) : List (String × Json) :=
  [("link_id", .str (toString doc.id)),
    ("alias", .str doc.linkAlias),
    ("domain", .str doc.domain),
    ("short_url", .str ("https://" ++ doc.domain ++ "/" ++ doc.linkAlias)),
    ("long_url", .str doc.longUrl),
    ("status", .str doc.status.value),
    ("password_protected", .bool doc.password.isSome),
    ("block_bots", .bool (doc.blockBots.getD false)),
    ("max_clicks", dumpOption (fun n : Nat => .num n) doc.maxClicks),
    ("expires_at", dumpOption (fun t => .str (isoformat t)) doc.expireAfter),
    ("starts_at", dumpOption (fun t => .str (isoformat t)) doc.startsAt),
    ("pre_start_url", dumpOption .str doc.preStartUrl),
    ("geo_rules", dumpOption dumpRules (doc.geoRules.filter (·.entries ≠ []))),
    ("tag_ids", .arr (doc.tagIds.map fun i => .str (toString i))),
    ("ab_variants", dumpOption variantsJson (doc.abVariants.filter (· ≠ []))),
    ("meta_tags", dumpOption publicMetaTags doc.metaTags),
    ("total_clicks", .num doc.totalClicks),
    ("created_at", .str (isoformat createdAt))]

/-- `link_snapshot`. -/
def linkSnapshot (createdAt : Datetime) (doc : UrlV2Doc) : PyDict String Json :=
  PyDict.ofList (snapshotItems isoformat createdAt doc)

/-- `_event_change_value`. -/
def eventChangeValue : FieldValue → Json
  | .none => .null
  | .bool value => .bool value
  | .int value => .num value
  | .str value => .str value
  | .status value => .str value.value
  | .datetime value => .str (isoformat value)
  | .objectIds values => .arr (values.map fun i => .str (toString i))
  | .rules rules => dumpRules rules
  | .variants variants => variantsJson variants
  | .metaTags tags => publicMetaTags tags
  | .dest dest => .obj (destFields dest)
  | .destDoc dest => .obj (destDocFields dest)

/-- `getattr(existing, name, None)`. -/
def UrlV2Doc.getattr (existing : UrlV2Doc) (dest : Option UrlDestination) (name : String) : FieldValue :=
  if name = "long_url" then .str existing.longUrl
  else if name = "alias" then .str existing.linkAlias
  else if name = "domain" then .str existing.domain
  else if name = "password" then .ofOption .str existing.password
  else if name = "max_clicks" then .ofOption .int existing.maxClicks
  else if name = "expire_after" then .ofOption .datetime existing.expireAfter
  else if name = "starts_at" then .ofOption .datetime existing.startsAt
  else if name = "pre_start_url" then .ofOption .str existing.preStartUrl
  else if name = "block_bots" then .ofOption .bool existing.blockBots
  else if name = "private_stats" then .ofOption .bool existing.privateStats
  else if name = "status" then .status existing.status
  else if name = "geo_rules" then .ofOption .rules existing.geoRules
  else if name = "tag_ids" then .objectIds existing.tagIds
  else if name = "ab_variants" then .ofOption .variants existing.abVariants
  else if name = "expired_redirect_url" then .ofOption .str existing.expiredRedirectUrl
  else if name = "meta_tags" then .ofOption .metaTags existing.metaTags
  else if name = "dest" then .ofOption .dest dest
  else .none

/-- The fields of `update_ops`, none where the key is absent. -/
def UrlOps.fields (ops : UrlOps) : List (String × Option FieldValue) :=
  [("long_url", ops.longUrl.map .str),
    ("alias", ops.linkAlias.map .str),
    ("domain", ops.domain.map .str),
    ("password", ops.password.map (.ofOption .str)),
    ("max_clicks", ops.maxClicks.map (.ofOption .int)),
    ("expire_after", ops.expireAfter.map (.ofOption fun t => .datetime (.aware t))),
    ("starts_at", ops.startsAt.map (.ofOption fun t => .datetime (.aware t))),
    ("pre_start_url", ops.preStartUrl.map (.ofOption .str)),
    ("block_bots", ops.blockBots.map (.ofOption .bool)),
    ("private_stats", ops.privateStats.map (.ofOption .bool)),
    ("status", ops.status.map .status),
    ("geo_rules", ops.geoRules.map (.ofOption .rules)),
    ("tag_ids", ops.tagIds.map .objectIds),
    ("ab_variants", ops.abVariants.map (.ofOption .variants)),
    ("expired_redirect_url", ops.expiredRedirectUrl.map (.ofOption .str)),
    ("meta_tags", ops.metaTags.map (.ofOption .metaTags)),
    ("dest", ops.dest.map (.ofOption .destDoc)),
    ("updated_at", ops.updatedAt.map fun t => .datetime (.aware t))]

/-- `update_ops.items()`. A status that the reactivation sets comes behind the other fields there. -/
def UrlOps.items (ops : UrlOps) : List (String × FieldValue) :=
  ops.fields.filterMap fun field => field.2.map (field.1, ·)

/-- `{"old": …, "new": …}`. -/
structure Change where
  old : Json
  new : Json

/-- `_CHANGE_KEY_PUBLIC.get(name, name)`. -/
def changeKeyPublic (name : String) : String := if name = "expire_after" then "expires_at" else name

/-- What one item of `update_ops` puts into the changes. -/
def changeOf (existing : UrlV2Doc) (dest : Option UrlDestination) (item : String × FieldValue) :
    Option (String × Change) :=
  if item.1 = "updated_at" then none
  else if item.1 = "password" then
    some ("password_protected",
      ⟨.bool (existing.getattr dest item.1).isSome, .bool item.2.isSome⟩)
  else
    some (changeKeyPublic item.1,
      ⟨eventChangeValue isoformat (existing.getattr dest item.1), eventChangeValue isoformat item.2⟩)

/-- `event_changes`. -/
def eventChanges (existing : UrlV2Doc) (dest : Option UrlDestination) (ops : UrlOps) : PyDict String Change :=
  PyDict.ofList (ops.items.filterMap (changeOf isoformat existing dest))

/-- The data of a `link.updated` event. -/
structure LinkUpdated where
  link : PyDict String Json
  changes : PyDict String Change

/-- `{"link": …, "changes": …}`. -/
def LinkUpdated.data (event : LinkUpdated) : PyDict String Json :=
  PyDict.ofList [("link", .obj event.link.entries),
    ("changes", .obj (event.changes.entries.map fun e => (e.1, .obj [("old", e.2.old), ("new", e.2.new)])))]

/-- `link_owner_id(doc) is not None`. -/
def hasSubscriber (doc : UrlV2Doc) : Bool := doc.ownerId ≠ anonymousOwnerId

/-- `_emit_link_event("link.updated", …)` at the end of an update (`url_service.py:1421-1454`). -/
def emitUpdated (createdAt : Datetime) (dest : Option UrlDestination) (vars : OwnerVars) : Option LinkUpdated :=
  match vars.outcome, vars.pending with
  | some (.ok merged), some (existing, ops) =>
    if hasSubscriber merged then
      some ⟨linkSnapshot isoformat createdAt merged, eventChanges isoformat existing dest ops⟩
    else none
  | _, _ => none

/-- The event of an update of a link that was made at `createdAt`. -/
def UrlService.updatedEvent (env : UpdateEnv) (edge : EdgeConfig) (urlId : ObjectId) (request : UpdateUrlRequest)
    (ownerId : ObjectId) (clientIp : Option String) (now : Int) (createdAt : Datetime) (s : Stores) :
    Option LinkUpdated :=
  emitUpdated isoformat createdAt ((s.urls.lookup urlId).bind UrlRow.dest)
    (runActions (updateCalls env edge urlId request ownerId clientIp now) {} s).1

end

end Spoo
