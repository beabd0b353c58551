import Spoo.Dependencies.Auth
import Spoo.Services.UrlService.Alias

/-!
# Creation and alias checks (`routes/api_v1/shorten.py`)

`POST /shorten` creates a link, and `GET /shorten/check-alias` tells a caller beforehand whether it
would take an alias. The request models of the two (`schemas/dto/requests/url.py`) read an alias and
a domain on their own.
-/

namespace Spoo

/-- What the API answers instead of a result. -/
inductive ApiError where
  /-- A request model turns a field down: 422. -/
  | unprocessable (field message : String)
  /-- A domain is no host name: 422. -/
  | invalidDomain (e : FqdnError)
  /-- `AuthenticationError`. -/
  | authentication (message : String)
  | raised (e : Raised)

/-- Raise what another component raises. -/
def ApiError.ofExcept {α : Type} : Except AppError α → Except ApiError α
  | .ok a => .ok a
  | .error e => .error (.raised (.app e))

/-! ## The request models -/

/-- `Field(min_length=1, max_length=64)`. -/
def checkAliasLength (linkAlias : String) : Except ApiError Unit :=
  if linkAlias.length < 1 then
    .error (.unprocessable "alias" "String should have at least 1 character")
  else if 64 < linkAlias.length then
    .error (.unprocessable "alias" "String should have at most 64 characters")
  else .ok ()

/-- `_validate_alias_shape` (`requests/url.py:59-79`). -/
def validateAliasShape (lib : EmojiLib) (linkAlias : Option String) : Except ApiError Unit :=
  match linkAlias with
  | none => .ok ()
  | some linkAlias =>
    if linkAlias ≠ "" ∧ linkAlias.toList.all isAliasChar then
      if 3 ≤ linkAlias.length ∧ linkAlias.length ≤ 16 then .ok ()
      else .error (.unprocessable "alias" "alphanumeric alias must be 3-16 characters")
    else if isEmojiOnlyShape lib linkAlias then .ok ()
    else .error (.unprocessable "alias"
      "alias must be alphanumeric (a-z, A-Z, 0-9, _, -) or emoji-only")

/-- `_norm_domain`. -/
def normDomain (lib : UrlLib) (domain : Option String) : Except ApiError (Option String) :=
  match orNone domain with
  | none => .ok none
  | some domain =>
    match normaliseFqdn lib domain with
    | .ok fqdn => .ok (some fqdn)
    | .error e => .error (.invalidDomain e)

/-- The body of `POST /shorten`. The fields of `request` other than the alias are as the request
model has read them. -/
structure ShortenBody where
  request : CreateUrlRequest
  domain : Option String := none

/-- `CreateUrlRequest` of a body: the alias has its shape, and the domain is normalised. -/
def ShortenBody.validate (emoji : EmojiLib) (lib : UrlLib) (body : ShortenBody) :
    Except ApiError ShortenBody := do
  body.request.linkAlias.forM checkAliasLength
  validateAliasShape emoji body.request.linkAlias
  let domain ← normDomain lib body.domain
  .ok { body with domain }

/-- The query of `GET /shorten/check-alias`. -/
structure AliasCheckQuery where
  linkAlias : String
  domain : Option String := none
  deriving DecidableEq, Repr

/-- `AliasCheckQuery` of a query: out-of-range aliases are left to the service. -/
def AliasCheckQuery.validate (lib : UrlLib) (query : AliasCheckQuery) :
    Except ApiError AliasCheckQuery := do
  checkAliasLength query.linkAlias
  let domain ← normDomain lib query.domain
  .ok { query with domain }

/-- `AliasCheckResponse`. -/
structure AliasCheckResponse where
  available : Bool
  reason : Option AliasCheckResult
  deriving DecidableEq, Repr

/-! ## The routes -/

/-- The components the routes ask. -/
structure ShortenApi (cfg : AliasConfig) where
  env : CreateEnv
  edge : EdgeConfig
  /-- `flag_svc.require`. -/
  requireFlag : String → CurrentUser → Except AppError Unit
  /-- `custom_domain_service.assert_owned_and_active`. -/
  assertOwnedAndActive : CurrentUser → String → Except AppError Unit

namespace ShortenApi

variable {cfg : AliasConfig} (api : ShortenApi cfg)

/-- The service a request runs in, on the stores `s`. -/
def service (s : Stores) : CreateEnv := CreateEnv.onStores { api.env with isReservedAlias } cfg s

/-- A field that is gated: it takes a user who has the flag. -/
def requireFeature (user : Option CurrentUser) (isSet : Bool) (message flag : String) :
    Except ApiError Unit :=
  if isSet then
    match user with
    | none => .error (.authentication message)
    | some user => ApiError.ofExcept (api.requireFlag flag user)
  else .ok ()

/-- The gated fields of a body (`shorten.py:106-133`). -/
def requireFeatures (user : Option CurrentUser) (request : CreateUrlRequest) :
    Except ApiError Unit := do
  api.requireFeature user (request.geoRules.any (·.entries ≠ []))
    "Authentication required to set geo_rules" "geo_targeting"
  api.requireFeature user (request.abVariants.any (· ≠ []))
    "Authentication required to set ab_variants" "ab_testing"
  api.requireFeature user (orNone request.expiredRedirectUrl).isSome
    "Authentication required to set expired_redirect_url" "expired_fallback"
  api.requireFeature user request.metaTags.isSome
    "Authentication required to set meta_tags" "custom_meta_tags"
  api.requireFeature user (request.startsAt.isSome || (orNone request.preStartUrl).isSome)
    "Authentication required to schedule a link" "link_scheduling"

/-- The domain a request is for: a custom one takes its owner. -/
def scopedDomain (message : String) (user : Option CurrentUser) (domain : Option String) :
    Except ApiError (Option String) :=
  match (orNone domain).filter (· ≠ cfg.systemDefaultDomain) with
  | none => .ok none
  | some domain =>
    match user with
    | none => .error (.authentication message)
    | some user => do
      ApiError.ofExcept (api.assertOwnedAndActive user domain)
      .ok (some domain)

/-- `shorten_v1` (`shorten.py:58-156`). -/
def shorten (user : Option CurrentUser) (clientIp : String) (now : Int) (body : ShortenBody)
    (s : Stores) : Except ApiError (UrlV2Doc × Option String) × Stores :=
  let checked : Except ApiError (CreateUrlRequest × Option String) := do
    let body ← body.validate cfg.lib api.env.lib
    api.requireFeatures user body.request
    let scope ← api.scopedDomain "Authentication required to shorten on a custom domain" user
      body.domain
    .ok (body.request, scope)
  match checked with
  | .error e => (.error e, s)
  | .ok (request, scope) =>
    match UrlService.create (api.service s) api.edge request (user.map (·.userId)) clientIp scope
      now s with
    | (.error e, after) => (.error (.raised e), after)
    | (.ok created, after) => (.ok created, after)

/-- `check_alias` (`shorten.py:167-203`). -/
def checkAlias (user : Option CurrentUser) (query : AliasCheckQuery) (s : Stores) :
    Except ApiError AliasCheckResponse := do
  let query ← query.validate api.env.lib
  let scope ← api.scopedDomain "Authentication required to check aliases on a custom domain" user
    query.domain
  let result := UrlService.checkAlias cfg s query.linkAlias scope
  .ok ⟨result = .available, if result = .available then none else some result⟩

end ShortenApi

end Spoo
