import Spoo.Services.UrlService.Service

/-!
# UrlService.create (`services/url_service.py`)

A new link is checked, given an alias and stamped before it is inserted. Random draws, tokens and
the id the driver assigns are fields of the `CreateEnv`.
-/

namespace Spoo

/-- `CreateUrlRequest.alias_type`. -/
inductive AliasType where
  | alphanumeric
  | emoji
  deriving DecidableEq, Repr

/-- `CreateUrlRequest` (`schemas/dto/requests/url.py:253-420`). The domain is an argument of its
own. -/
structure CreateUrlRequest where
  longUrl : String
  linkAlias : Option String := none
  aliasType : AliasType := .alphanumeric
  password : Option String := none
  blockBots : Option Bool := none
  maxClicks : Option Nat := none
  expireAfter : Option Int := none
  startsAt : Option Int := none
  preStartUrl : Option String := none
  privateStats : Option Bool := none
  geoRules : Option (PyDict String String) := none
  expiredRedirectUrl : Option String := none
  tagIds : Option (List String) := none
  abVariants : Option (List AbVariant) := none
  metaTags : Option MetaTagsRequest := none

/-- What `generate_short_code` and `generate_short_code_v2` draw: letters and digits
(`shared/generators.py:17-33`). -/
structure ShortCode (length : Nat) where
  code : String
  length_code : code.length = length
  alphanumeric : code.toList.all Char.isAlphanum = true

/-- What `create` asks of the `UrlService` it runs in. -/
structure CreateEnv extends UpdateEnv where
  /-- The draws of `generate_short_code_v2(7)`. -/
  shortCode : Nat → ShortCode 7
  /-- The draws of `generate_emoji_alias_v2`. -/
  emojiAlias : Nat → String
  /-- `service._resolve_tag_ids`, for an owner or for nobody. -/
  resolveNewTagIds : Option (List String) → Option ObjectId → Except AppError (List ObjectId)
  /-- `generate_secure_token()`. -/
  claimToken : String
  /-- `hash_token`. -/
  hashToken : String → String
  /-- The `_id` the driver assigns. -/
  newId : ObjectId

/-- `value or None`. -/
def orNone (value : Option String) : Option String := value.filter (· ≠ "")

/-- Empty rules are stored as no rules, and route to the same URLs. -/
@[simp] theorem values_filter_entries (rules : Option (PyDict String String)) :
    ((rules.filter (·.entries ≠ [])).map PyDict.values).getD [] =
      (rules.map PyDict.values).getD [] := by
  cases rules with
  | none => rfl
  | some rules =>
    by_cases hempty : rules.entries = []
    · simp [Option.filter_some, PyDict.values, hempty]
    · simp [Option.filter_some, hempty]

@[simp] theorem variantUrls_filter (variants : Option (List AbVariant)) :
    variantUrls (variants.filter (· ≠ [])) = variantUrls variants := by
  cases variants with
  | none => rfl
  | some variants =>
    by_cases hempty : variants = []
    · simp [Option.filter_some, variantUrls, hempty]
    · simp [Option.filter_some, variantUrls, hempty]

namespace UrlService

/-- The geo rules of a new link, if it has any. -/
def checkGeoRules (env : UpdateEnv) (rules : PyDict String String) : Except AppError Unit :=
  if rules.entries = [] then .ok ()
  else do
    validateGeoRulesShape env rules
    checkDestinations env (rules.entries.map fun rule => ("geo_rules." ++ rule.1, rule.2))

/-- The variants of a new link, if it has any. -/
def checkAbVariants (env : UpdateEnv) (variants : List AbVariant) : Except AppError Unit :=
  if variants = [] then .ok ()
  else do
    validateAbVariantsShape env variants
    checkDestinations env (variants.zipIdx.map fun variant =>
      ("ab_variants." ++ toString variant.2 ++ ".url", variant.1.url))

/-- An optional destination of a new link. -/
def checkOptional (env : UpdateEnv) (field : String) (url : Option String) :
    Except AppError Unit :=
  match orNone url with
  | some url => checkDestination env url field
  | none => .ok ()

/-- The meta-tags a new link is given. -/
def resolveMeta (env : UpdateEnv) (request : CreateUrlRequest) (ownerId : ObjectId) :
    Except AppError (Option (MetaTagsRequest × Option MetaImageMeta)) :=
  match request.metaTags with
  | none => .ok none
  | some metaTags => do
    let resolved ← env.resolveMetaImage metaTags ownerId
    env.validateMetaTags resolved.1 request.longUrl
    .ok (some resolved)

/-- `field must be in the future`. -/
def checkFuture (instant : Option Int) (now : Int) (field : String) : Except AppError Unit :=
  match instant with
  | some us =>
    if us ≤ now then validationError (field ++ " must be in the future") field else .ok ()
  | none => .ok ()

/-- The first of ten draws that is free. -/
def firstFree (draw : Nat → String) (free : String → Bool) : Except AppError String :=
  match ((List.range 10).map draw).find? free with
  | some candidate => .ok candidate
  | none => .error ⟨.internal, "Could not generate a unique alias; please try again", none⟩

/-- `_generate_unique_alias`: only `urlsV2` is asked (`url_service.py:1901-1909`). -/
def generateUniqueAlias (env : CreateEnv) (domain : String) (s : Stores) :
    Except AppError String :=
  firstFree (fun n => (env.shortCode n).code) fun candidate =>
    !UrlRepository.checkAliasExists s.urls candidate domain

/-- `_generate_unique_emoji_alias` (`url_service.py:1911-1927`). -/
def generateUniqueEmojiAlias (env : CreateEnv) (domain : String) : Except AppError String :=
  firstFree env.emojiAlias fun candidate => env.aliasAvailable candidate domain

/-- The alias of a new link: custom or generated (`url_service.py:1049-1065`). -/
def chooseAlias (env : CreateEnv) (request : CreateUrlRequest) (domain : String) (s : Stores) :
    Except AppError String :=
  match orNone request.linkAlias with
  | some requested => do
    let linkAlias ← env.canonicalAlias requested
    if domain = env.systemDefaultDomain ∧ env.isReservedAlias linkAlias then
      validationError "Alias is reserved" "alias"
    else if !env.aliasAvailable linkAlias domain then
      .error ⟨.conflict, "Alias is already in use", none⟩
    else .ok linkAlias
  | none =>
    if request.aliasType = .emoji then generateUniqueEmojiAlias env domain
    else generateUniqueAlias env domain s

/-- The checks that come before the alias (`url_service.py:974-1046`). -/
def checkRequest (env : UpdateEnv) (request : CreateUrlRequest) (ownerId : ObjectId) (now : Int) :
    Except AppError (Option (MetaTagsRequest × Option MetaImageMeta)) := do
  checkDestination env request.longUrl "long_url"
  checkGeoRules env (request.geoRules.getD PyDict.empty)
  checkAbVariants env (request.abVariants.getD [])
  checkOptional env "expired_redirect_url" request.expiredRedirectUrl
  let metaTags ← resolveMeta env request ownerId
  checkFuture request.expireAfter now "expire_after"
  checkFuture request.startsAt now "starts_at"
  checkStartBeforeExpiry (request.startsAt.map .aware) (request.expireAfter.map .aware)
  checkOptional env "pre_start_url" request.preStartUrl
  .ok metaTags

/-- The document `create` inserts (`url_service.py:1067-1131`). -/
def newRow (env : CreateEnv) (request : CreateUrlRequest) (ownerId : Option ObjectId)
    (clientIp linkAlias domain : String) (tagIds : List ObjectId)
    (metaTags : Option (MetaTagsRequest × Option MetaImageMeta)) : UrlRow where
  id := env.newId
  linkAlias
  ownerId := ownerId.getD anonymousOwnerId
  domain
  creationIp := some clientIp
  longUrl := request.longUrl
  dest := UrlDestination.forLink env.lib request.longUrl request.geoRules
    (variantUrls request.abVariants) (orNone request.preStartUrl)
    (orNone request.expiredRedirectUrl)
  password := (orNone request.password).map env.hashPassword
  blockBots := request.blockBots
  maxClicks := request.maxClicks
  expireAfter := request.expireAfter.map BsonDate.encode
  startsAt := request.startsAt.map BsonDate.encode
  preStartUrl := orNone request.preStartUrl
  geoRules := request.geoRules.filter (·.entries ≠ [])
  tagIds
  abVariants := request.abVariants.filter (· ≠ [])
  expiredRedirectUrl := orNone request.expiredRedirectUrl
  status := .active
  privateStats := request.privateStats.or (if ownerId.isSome then some true else none)
  metaTags := metaTags.map fun resolved => {
    title := resolved.1.title
    description := resolved.1.description
    image := resolved.1.image
    color := resolved.1.color
    imageMeta := resolved.2
    updatedIp := some clientIp }
  totalClicks := 0
  claimTokenHash :=
    if ownerId.getD anonymousOwnerId = anonymousOwnerId then some (env.hashToken env.claimToken)
    else none

/-- Everything `create` decides before it inserts. -/
def buildRow (env : CreateEnv) (request : CreateUrlRequest) (ownerId : Option ObjectId)
    (clientIp : String) (domain : Option String) (now : Int) (s : Stores) :
    Except AppError UrlRow := do
  let target := targetDomain env.toUpdateEnv domain
  let metaTags ← checkRequest env.toUpdateEnv request (ownerId.getD anonymousOwnerId) now
  let linkAlias ← chooseAlias env request target s
  let tagIds ← env.resolveNewTagIds request.tagIds ownerId
  .ok (newRow env request ownerId clientIp linkAlias target tagIds metaTags)

/-- The document `create` returns: its instants are still those of the request. -/
def newDoc (request : CreateUrlRequest) (row : UrlRow) : UrlV2Doc :=
  { UrlV2Doc.fromMongo row with
    expireAfter := request.expireAfter.map .aware
    startsAt := request.startsAt.map .aware }

/-- A link with meta-tags is pushed to the edge at once. -/
def pushEdge (edge : EdgeConfig) (doc : UrlV2Doc) (now : Int) (kv : EdgeKv) : EdgeKv :=
  if doc.metaTags.isSome && edge.enabled then
    ogSync edge.render kv edge.systemDefaultDomain edge.ogTtlSeconds (.fromV2Doc doc) now
  else kv

/-- `create` (`url_service.py:951-1197`). -/
def create (env : CreateEnv) (edge : EdgeConfig) (request : CreateUrlRequest)
    (ownerId : Option ObjectId) (clientIp : String) (domain : Option String) (now : Int)
    (s : Stores) : Except Raised (UrlV2Doc × Option String) × Stores :=
  match buildRow env request ownerId clientIp domain now s with
  | .error e => (.error (.app e), s)
  | .ok row =>
    match UrlRepository.insert s.urls row with
    | none => (.error .duplicateKey, s)
    | some urls =>
      let doc := newDoc request row
      let claimToken := row.claimTokenHash.map fun _ => env.claimToken
      (.ok (doc, claimToken), { s with urls, kv := pushEdge edge doc now s.kv })

end UrlService

end Spoo
