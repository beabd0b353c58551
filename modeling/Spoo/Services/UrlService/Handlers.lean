import Spoo.Schemas.Url

/-!
# Field handlers (`services/url_service.py:108-526`)

An owner's update runs one handler per field of the request. A handler may refuse the request,
leave the collected operations alone, or write its field into them. What the handlers ask of
other components, and the settings they read, is the `UpdateEnv`.
-/

namespace Spoo

/-- The subclass of `AppError` that is raised (`errors.py`). -/
inductive ErrorKind where
  | validation
  | forbidden
  | notFound
  | conflict
  | internal
  deriving DecidableEq, Repr

/-- An `AppError`. -/
structure AppError where
  kind : ErrorKind
  message : String
  field : Option String := none
  deriving DecidableEq, Repr

/-- `raise ValidationError(message, field=field)`. -/
def validationError {α : Type} (message field : String) : Except AppError α :=
  .error ⟨.validation, message, some field⟩

/-- `PolicyRejection` (`services/safety/policy.py:41-49`). -/
structure PolicyRejection where
  code : String
  publicMessage : String
  deriving DecidableEq, Repr

/-- `MetaTagsRequest` (`schemas/dto/requests/url.py:204-236`). -/
structure MetaTagsRequest where
  title : String
  description : Option String := none
  image : Option String := none
  color : Option String := none
  deriving DecidableEq, Repr

/-- The statuses an owner may ask for. -/
inductive OwnerStatus where
  | active
  | inactive
  deriving DecidableEq, Repr

def OwnerStatus.toUrlStatus : OwnerStatus → UrlStatus
  | .active => .active
  | .inactive => .inactive

/-- `UpdateUrlRequest` (`schemas/dto/requests/url.py:428-551`). Where the handlers read
`model_fields_set`, the outer `none` is a field the client left out. -/
structure UpdateUrlRequest where
  longUrl : Option String := none
  linkAlias : Option String := none
  password : Option (Option String) := none
  blockBots : Option (Option Bool) := none
  maxClicks : Option (Option Nat) := none
  expireAfter : Option (Option Int) := none
  startsAt : Option (Option Int) := none
  preStartUrl : Option (Option String) := none
  privateStats : Option (Option Bool) := none
  status : Option OwnerStatus := none
  domain : Option (Option String) := none
  geoRules : Option (Option (PyDict String String)) := none
  expiredRedirectUrl : Option (Option String) := none
  tagIds : Option (Option (List String)) := none
  abVariants : Option (Option (List AbVariant)) := none
  metaTags : Option (Option MetaTagsRequest) := none

/-- The dictionary `update_ops`: a field is `none` where its key is absent. -/
structure UrlOps where
  longUrl : Option String := none
  linkAlias : Option String := none
  domain : Option String := none
  password : Option (Option String) := none
  maxClicks : Option (Option Nat) := none
  expireAfter : Option (Option Int) := none
  startsAt : Option (Option Int) := none
  preStartUrl : Option (Option String) := none
  blockBots : Option (Option Bool) := none
  privateStats : Option (Option Bool) := none
  status : Option UrlStatus := none
  geoRules : Option (Option (PyDict String String)) := none
  tagIds : Option (List ObjectId) := none
  abVariants : Option (Option (List AbVariant)) := none
  expiredRedirectUrl : Option (Option String) := none
  metaTags : Option (Option LinkMetaTags) := none
  dest : Option (Option UrlDestination) := none
  updatedAt : Option Int := none
  deriving DecidableEq

/-- What the handlers ask of the `UrlService` they run in. -/
structure UpdateEnv where
  lib : UrlLib
  systemDefaultDomain : String
  /-- `service._url_policy.check`. -/
  checkPolicy : String → Option PolicyRejection
  /-- `service._validate_and_canonicalize_custom_alias`. -/
  canonicalAlias : String → Except AppError String
  /-- `is_reserved_alias`. -/
  isReservedAlias : String → Bool
  /-- `service.check_alias_available(alias, domain=domain)`. -/
  aliasAvailable : String → String → Bool
  /-- `hash_password`. -/
  hashPassword : String → String
  geoRulesMaxCountries : Nat
  geoRulesEnabled : Bool
  /-- `pycountry.countries.get(alpha_2=code) is not None`. -/
  isCountryCode : String → Bool
  abVariantsMax : Nat
  abVariantsEnabled : Bool
  /-- `service._resolve_tag_ids`. -/
  resolveTagIds : Option (List String) → ObjectId → Except AppError (List ObjectId)
  /-- `service.resolve_meta_image`. -/
  resolveMetaImage : MetaTagsRequest → ObjectId →
    Except AppError (MetaTagsRequest × Option MetaImageMeta)
  /-- `service.validate_meta_tags(meta, long_url=longUrl)`. -/
  validateMetaTags : MetaTagsRequest → String → Except AppError Unit

/-- A handler, with the clock it may read. -/
abbrev Handler := UpdateEnv → Int → UpdateUrlRequest → UrlV2Doc → UrlOps → Except AppError UrlOps

/-- Run a destination through the gate; a rejection names `field`. -/
def checkDestination (env : UpdateEnv) (url field : String) : Except AppError Unit :=
  match env.checkPolicy url with
  | some rejection => validationError rejection.publicMessage field
  | none => .ok ()

/-- Run several destinations through the gate in order, each under its own field. -/
def checkDestinations (env : UpdateEnv) (destinations : List (String × String)) :
    Except AppError Unit :=
  destinations.forM fun destination => checkDestination env destination.2 destination.1

/-- `_handle_long_url`. -/
def handleLongUrl : Handler := fun env _ request existing ops =>
  match request.longUrl with
  | some longUrl =>
    if longUrl ≠ existing.longUrl then do
      checkDestination env longUrl "long_url"
      .ok { ops with longUrl := some longUrl }
    else .ok ops
  | none => .ok ops

/-- `request.domain or service._system_default_domain`. -/
def targetDomain (env : UpdateEnv) (domain : Option String) : String :=
  match domain with
  | some domain => if domain = "" then env.systemDefaultDomain else domain
  | none => env.systemDefaultDomain

/-- `_handle_alias`: the collision check looks where the link will land. -/
def handleAlias : Handler := fun env _ request existing ops =>
  match request.linkAlias with
  | none => .ok ops
  | some requested => do
    let newAlias ← env.canonicalAlias requested
    if newAlias ≠ existing.linkAlias then
      let scope := match request.domain with
        | some domain => targetDomain env domain
        | none => existing.domain
      if scope = env.systemDefaultDomain ∧ env.isReservedAlias newAlias then
        validationError "Alias is reserved" "alias"
      else if !env.aliasAvailable newAlias scope then
        .error ⟨.conflict, "Alias is already in use", none⟩
      else .ok { ops with linkAlias := some newAlias }
    else .ok ops

/-- `_handle_domain`. -/
def handleDomain : Handler := fun env _ request existing ops =>
  match request.domain with
  | none => .ok ops
  | some domain =>
    let target := targetDomain env domain
    if target = existing.domain then .ok ops
    else
      let effectiveAlias := ops.linkAlias.getD existing.linkAlias
      if target = env.systemDefaultDomain ∧ env.isReservedAlias effectiveAlias then
        validationError ("Alias '" ++ effectiveAlias ++ "' is reserved on " ++ target) "domain"
      else if ops.linkAlias = none ∧ !env.aliasAvailable existing.linkAlias target then
        .error ⟨.conflict,
          "Alias '" ++ existing.linkAlias ++ "' is already in use on " ++ target, none⟩
      else .ok { ops with domain := some target }

/-- `_handle_password`: an empty password clears the stored one. -/
def handlePassword : Handler := fun env _ request existing ops =>
  match request.password with
  | none => .ok ops
  | some password =>
    if password.getD "" = "" then
      if existing.password.getD "" ≠ "" then .ok { ops with password := some none } else .ok ops
    else .ok { ops with password := some (some (env.hashPassword (password.getD ""))) }

/-- `_handle_max_clicks`: null and 0 remove the limit. -/
def handleMaxClicks : Handler := fun _ _ request existing ops =>
  match request.maxClicks with
  | none => .ok ops
  | some maxClicks =>
    if maxClicks.getD 0 = 0 ∧ existing.maxClicks.getD 0 ≠ 0 then
      .ok { ops with maxClicks := some none }
    else if maxClicks.getD 0 ≠ 0 ∧ maxClicks ≠ existing.maxClicks then
      .ok { ops with maxClicks := some maxClicks }
    else .ok ops

/-- `_handle_expire_after`. The stored value is naive, so an instant never equals it. -/
def handleExpireAfter : Handler := fun _ now request existing ops =>
  match request.expireAfter with
  | none => .ok ops
  | some none =>
    if existing.expireAfter.isSome then .ok { ops with expireAfter := some none } else .ok ops
  | some (some expireAfter) =>
    if expireAfter ≤ now then
      validationError "expire_after must be in the future" "expire_after"
    else if existing.expireAfter ≠ some (.aware expireAfter) then
      .ok { ops with expireAfter := some (some expireAfter) }
    else .ok ops

/-- `_handle_starts_at`. -/
def handleStartsAt : Handler := fun _ now request existing ops =>
  match request.startsAt with
  | none => .ok ops
  | some none =>
    if existing.startsAt.isSome then .ok { ops with startsAt := some none } else .ok ops
  | some (some startsAt) =>
    if startsAt ≤ now then validationError "starts_at must be in the future" "starts_at"
    else if existing.startsAt ≠ some (.aware startsAt) then
      .ok { ops with startsAt := some (some startsAt) }
    else .ok ops

/-- `_handle_pre_start_url` and `_handle_expired_redirect_url`: an optional destination
`requested` over a `current` one, gated under the name of its field. The answer is the value
to write, if any. -/
def optionalDestination (env : UpdateEnv) (field : String) (requested current : Option String) :
    Except AppError (Option (Option String)) :=
  if requested.getD "" = "" then
    if current.getD "" ≠ "" then .ok (some none) else .ok none
  else if requested = current then .ok none
  else do
    checkDestination env (requested.getD "") field
    .ok (some requested)

/-- `_handle_pre_start_url`. -/
def handlePreStartUrl : Handler := fun env _ request existing ops =>
  match request.preStartUrl with
  | none => .ok ops
  | some requested => do
    match ← optionalDestination env "pre_start_url" requested existing.preStartUrl with
    | some value => .ok { ops with preStartUrl := some value }
    | none => .ok ops

/-- `_handle_expired_redirect_url`. -/
def handleExpiredRedirectUrl : Handler := fun env _ request existing ops =>
  match request.expiredRedirectUrl with
  | none => .ok ops
  | some requested => do
    match ← optionalDestination env "expired_redirect_url" requested
        existing.expiredRedirectUrl with
    | some value => .ok { ops with expiredRedirectUrl := some value }
    | none => .ok ops

/-- `_simple_field_handler`: a nullable flag that just needs a changed-check. -/
def simpleField (value current : Option Bool) : Option (Option Bool) :=
  if value = none ∧ current = some true then some none
  else if value ≠ current then some value
  else none

/-- `_simple_field_handler("block_bots")`. -/
def handleBlockBots : Handler := fun _ _ request existing ops =>
  match request.blockBots.bind (simpleField · existing.blockBots) with
  | some value => .ok { ops with blockBots := some value }
  | none => .ok ops

/-- `_simple_field_handler("private_stats")`. -/
def handlePrivateStats : Handler := fun _ _ request existing ops =>
  match request.privateStats.bind (simpleField · existing.privateStats) with
  | some value => .ok { ops with privateStats := some value }
  | none => .ok ops

/-- `_handle_status`. -/
def handleStatus : Handler := fun _ _ request existing ops =>
  match request.status with
  | some status =>
    if status.toUrlStatus ≠ existing.status then
      .ok { ops with status := some status.toUrlStatus }
    else .ok ops
  | none => .ok ops

/-- `_validate_geo_rules_shape` (`url_service.py:108-134`). -/
def validateGeoRulesShape (env : UpdateEnv) (rules : PyDict String String) :
    Except AppError Unit :=
  if !env.geoRulesEnabled then
    validationError "geo targeting is not available yet" "geo_rules"
  else if env.geoRulesMaxCountries < rules.keys.length then
    validationError ("geo_rules cannot exceed " ++ toString env.geoRulesMaxCountries ++
      " country entries") "geo_rules"
  else match rules.keys.find? fun code => !env.isCountryCode code with
    | some code =>
      validationError ("'" ++ code ++ "' is not a valid ISO 3166-1 alpha-2 country code")
        ("geo_rules." ++ code)
    | none => .ok ()

/-- `_handle_geo_rules`: unchanged rules are not validated again. -/
def handleGeoRules : Handler := fun env _ request existing ops =>
  match request.geoRules with
  | none => .ok ops
  | some requested =>
    let rules := requested.getD PyDict.empty
    if rules.entries = [] then
      if (existing.geoRules.getD PyDict.empty).entries ≠ [] then
        .ok { ops with geoRules := some none }
      else .ok ops
    else if existing.geoRules.any rules.sameItems then .ok ops
    else do
      validateGeoRulesShape env rules
      checkDestinations env (rules.entries.map fun rule => ("geo_rules." ++ rule.1, rule.2))
      .ok { ops with geoRules := some (some rules) }

/-- `_handle_tag_ids`. -/
def handleTagIds : Handler := fun env _ request existing ops =>
  match request.tagIds with
  | none => .ok ops
  | some requested => do
    let tagIds ← env.resolveTagIds requested existing.ownerId
    if tagIds ≠ existing.tagIds then .ok { ops with tagIds := some tagIds } else .ok ops

/-- `_validate_ab_variants_shape` (`url_service.py:137-151`). -/
def validateAbVariantsShape (env : UpdateEnv) (variants : List AbVariant) :
    Except AppError Unit :=
  if !env.abVariantsEnabled then
    validationError "A/B variants are not available yet" "ab_variants"
  else if env.abVariantsMax < variants.length then
    validationError ("ab_variants cannot exceed " ++ toString env.abVariantsMax ++ " entries")
      "ab_variants"
  else .ok ()

/-- `_handle_ab_variants`. -/
def handleAbVariants : Handler := fun env _ request existing ops =>
  match request.abVariants with
  | none => .ok ops
  | some requested =>
    let variants := requested.getD []
    if variants = [] then
      if existing.abVariants.getD [] ≠ [] then .ok { ops with abVariants := some none }
      else .ok ops
    else if existing.abVariants = some variants then .ok ops
    else do
      validateAbVariantsShape env variants
      checkDestinations env (variants.zipIdx.map fun variant =>
        ("ab_variants." ++ toString variant.2 ++ ".url", variant.1.url))
      .ok { ops with abVariants := some (some variants) }

/-- `_handle_meta_tags`: the tags are validated against the new destination. -/
def handleMetaTags : Handler := fun env _ request existing ops =>
  match request.metaTags with
  | none => .ok ops
  | some none =>
    if existing.metaTags.isSome then .ok { ops with metaTags := some none } else .ok ops
  | some (some requested) => do
    let (metaReq, imageMeta) ← env.resolveMetaImage requested existing.ownerId
    env.validateMetaTags metaReq (ops.longUrl.getD existing.longUrl)
    .ok { ops with metaTags := some (some {
      title := metaReq.title
      description := metaReq.description
      image := metaReq.image
      color := metaReq.color
      imageMeta }) }

/-- `FIELD_HANDLERS`, in the order they run. -/
def fieldHandlers : List Handler := [
  handleLongUrl,
  -- `domain` follows `alias`: each peeks at what the other does.
  handleAlias,
  handleDomain,
  handlePassword,
  handleMaxClicks,
  handleExpireAfter,
  handleStartsAt,
  handlePreStartUrl,
  handleBlockBots,
  handlePrivateStats,
  handleStatus,
  handleGeoRules,
  handleTagIds,
  handleAbVariants,
  handleExpiredRedirectUrl,
  -- Follows `long_url`, whose new value it validates against.
  handleMetaTags]

end Spoo
