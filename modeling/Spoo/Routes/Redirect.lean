import Spoo.Lib.Quote
import Spoo.Services.Click.Handlers
import Spoo.Services.UrlService.Alias
import Spoo.Services.UrlService.Resolve

/-!
# The redirect route (`routes/redirect_routes.py`)

`GET /<short_code>` sends a visitor on, shows a preview crawler the link's own card, asks for a
password or shows an error page. The clicks it emits are handled elsewhere.
-/

namespace Spoo

/-- A request, as far as the route and the edge Worker read it. The path is as it arrives,
percent-encoded; the query is decoded; a missing user agent is empty. -/
structure HttpRequest where
  method : String := "GET"
  hostname : String := ""
  path : String := ""
  query : List (String × String) := []
  userAgent : String := ""
  /-- The visitor's country, if Cloudflare names it. -/
  country : Option String := none
  clientIp : String := ""
  deriving DecidableEq, Repr

/-- `key in request.query_params`. -/
def HttpRequest.hasParam (request : HttpRequest) (key : String) : Bool :=
  request.query.any (·.1 = key)

/-- `request.query_params.get(key)`: the last value given. -/
def HttpRequest.param (request : HttpRequest) (key : String) : Option String :=
  (request.query.reverse.find? (·.1 = key)).map Prod.snd

/-- `TenantInfo`. -/
structure TenantInfo where
  fqdn : String
  isSystemDefault : Bool
  /-- `status == DomainStatus.ACTIVE`. -/
  active : Bool
  notFoundRedirect : Option String := none
  deriving DecidableEq, Repr

/-- What `meta_preview.html` is rendered from (`services/meta_preview.py:19-44`). -/
structure PreviewContext where
  title : Option String
  description : Option String
  image : Option String
  imageWidth : Option Int
  imageHeight : Option Int
  color : Option String
  shortUrl : String
  siteName : String
  longUrl : Option String
  destHost : Option String
  autoRedirect : Bool
  deriving DecidableEq, Repr

/-- The body of a response. -/
inductive Page where
  | empty
  | html (text : String)
  /-- `password.html`. -/
  | password (shortCode : String)
  /-- `error.html`; the page of a block offers an appeal. -/
  | error (code message : String) (appeal : Bool)
  /-- `tenant_error.html`. -/
  | tenantError (code title message : String)
  deriving DecidableEq, Repr

/-- A response. The location is the URL before `RedirectResponse` quotes it. -/
structure HttpResponse where
  status : Nat
  location : Option String := none
  body : Page := .empty
  noStore : Bool := false
  errorCode : Option String := none
  deriving DecidableEq, Repr

/-- The components the route asks. -/
structure RedirectEnv where
  cfg : DispatchConfig
  readers : LegacyReaders
  agents : UserAgentLib
  /-- `crypto.verify_password`. -/
  verifyPasswordHash : String → String → Bool
  /-- `geoip.get_country_code`. -/
  countryOfIp : String → Option String
  /-- `str.upper`. -/
  upper : String → String
  /-- `extract_hostname`. -/
  hostnameOf : String → Option String
  /-- `meta_preview.html`, rendered. -/
  renderPreview : PreviewContext → String
  /-- `settings.edge_composed_errors`. -/
  edgeComposedErrors : Bool

/-- `UrlCacheData.verify_password` (`url_cache.py:116-128`). -/
def UrlCacheData.verifyPassword (verifyHash : String → String → Bool) (data : UrlCacheData)
    (password : Option String) : Bool :=
  match orNone data.passwordHash, password with
  | none, _ => true
  | some _, none => false
  | some hash, some password =>
    if data.schemaVersion = "v2" then verifyHash password hash else password = hash

/-- `build_preview_context`: a destination that crawlers or strangers may not see is left out. -/
def buildPreviewContext (hostnameOf : String → Option String) (data : UrlCacheData)
    (autoRedirect : Bool) : PreviewContext :=
  let reveal := !data.blockBots && (orNone data.passwordHash).isNone
  { title := data.metaTitle
    description := data.metaDescription
    image := data.metaImage
    imageWidth := data.metaImageWidth
    imageHeight := data.metaImageHeight
    color := data.metaColor
    shortUrl := "https://" ++ data.domain ++ "/" ++ data.linkAlias
    siteName := data.domain
    longUrl := if reveal then some data.longUrl else none
    destHost := if reveal then hostnameOf data.longUrl else none
    autoRedirect }

/-- The loop of `pick_variant`. -/
def pickVariantFrom (roll ceiling index : Nat) : List AbVariant → Option Nat
  | [] => none
  | variant :: variants =>
    if roll < ceiling + variant.weight then some index
    else pickVariantFrom roll (ceiling + variant.weight) (index + 1) variants

/-- `pick_variant` (`shared/ab_variants.py:11-23`). -/
def pickVariant (variants : List AbVariant) (roll : Nat) : Option Nat :=
  pickVariantFrom roll 0 0 variants

namespace RedirectEnv

variable (env : RedirectEnv)

/-- `_TENANT_ERROR_COPY`, filled in. -/
def tenantErrorCopy (fqdn : String) : String → String × String
  | "404" => ("Not found", "This URL doesn't exist on " ++ fqdn ++ ".")
  | "410" => ("Expired", "This URL has expired and no longer redirects.")
  | "451" => ("Blocked", "This URL has been blocked for abuse. Blocks are reversible: contact " ++
      "the operator of " ++ fqdn ++ " if you think this is a mistake.")
  | "403" => ("Access denied", "You don't have permission to view this URL.")
  | "not_yet_live" => ("Not live yet", "This URL on " ++ fqdn ++ " isn't live yet.")
  | _ => ("Error", "Something went wrong.")

/-- `_ERROR_SLUGS`. -/
def errorSlugs : String → Option String
  | "404" => some "not_found"
  | "410" => some "gone"
  | "451" => some "blocked"
  | "403" => some "forbidden"
  | _ => none

/-- `_error_page` (`redirect_routes.py:77-158`). -/
def errorPage (tenant : Option TenantInfo) (method code message : String) (status : Nat)
    (slug : Option String := none) : HttpResponse :=
  let isRead := method = "GET" ∨ method = "HEAD"
  match tenant.filter fun tenant => !tenant.isSystemDefault with
  | some tenant =>
    match orNone tenant.notFoundRedirect with
    | some url =>
      if status = 404 ∧ slug = none ∧ tenant.active ∧ isRead then
        { status := 302, location := some url }
      else tenantPage tenant
    | none => tenantPage tenant
  | none =>
    let slug := slug.or (errorSlugs code)
    if slug.isSome ∧ env.edgeComposedErrors ∧ status ∈ [404, 410, 451] ∧ isRead then
      { status, errorCode := slug }
    else { status, body := .error code message (status = 451), errorCode := slug }
where
  tenantPage (tenant : TenantInfo) : HttpResponse :=
    let copy := tenantErrorCopy tenant.fqdn (slug.getD code)
    { status, body := .tenantError code copy.1 copy.2 }

/-- What a visitor that `resolve` refuses is answered. -/
def refuse (tenant : Option TenantInfo) (method : String) : UrlService.Refusal → HttpResponse
  | .notFound => env.errorPage tenant method "404" "URL NOT FOUND" 404
  | .blocked => env.errorPage tenant method "451" "THIS URL HAS BEEN BLOCKED" 451
  | .expired (.expiredRedirect url) => { status := 302, location := some url, noStore := true }
  | .expired (.gone _) => env.errorPage tenant method "410" "SHORT URL EXPIRED" 410
  | .notYetLive fallback =>
    match orNone fallback with
    | some url => { status := 302, location := some url, noStore := true }
    | none =>
      { env.errorPage tenant method "404" "NOT LIVE YET" 404 (some "not_yet_live") with
        noStore := true }
  | .unreadable => { status := 500 }

/-- The country that geo rules are asked for. -/
def visitorCountry (request : HttpRequest) : Option String :=
  (orNone (some (env.upper (pyStrip (request.country.getD ""))))).or
    (env.countryOfIp request.clientIp)

/-- The geo rule that matches. -/
def geoDestination (request : HttpRequest) (data : UrlCacheData) : Option String := do
  let rules ← data.geoRules
  let country ← orNone (env.visitorCountry request)
  rules.get? country

/-- The variant that the roll falls to. -/
def variantDestination (roll : Nat) (data : UrlCacheData) : Option String := do
  let variants ← data.abVariants
  let index ← pickVariant variants roll
  variants[index]?.map (·.url)

/-- Where a visitor is sent: a geo rule decides before the split. -/
def destination (request : HttpRequest) (roll : Nat) (data : UrlCacheData) : String :=
  ((env.geoDestination request data).or (variantDestination roll data)).getD data.longUrl

/-- What a visitor that `resolve` lets through is answered (`redirect_routes.py:218-362`). -/
def serve (tenant : Option TenantInfo) (shortCode : String) (request : HttpRequest) (roll : Nat)
    (data : UrlCacheData) : HttpResponse :=
  let botParam := request.hasParam "bot"
  if data.metaTitle.isSome ∧ data.schemaVersion = "v2" ∧
      wantsPreview request.method request.userAgent botParam then
    { status := 200
      body := .html (env.renderPreview (buildPreviewContext env.hostnameOf data !botParam)) }
  else if !data.verifyPassword env.verifyPasswordHash (request.param "password") then
    { status := 401, body := .password shortCode }
  else if shouldBlockBot env.agents request.method request.userAgent data then
    env.errorPage tenant request.method "403" "ACCESS DENIED" 403
  else if !(request.method = "HEAD" || request.method = "OPTIONS") &&
      clickForbidden env.agents request.userAgent data then
    env.errorPage tenant request.method "403" "ACCESS DENIED" 403
  else
    { status := 302
      location := some (env.destination request roll data)
      noStore := data.geoRules.any (·.entries ≠ []) || data.abVariants.any (· ≠ []) }

/-- `redirect_url` for a code as the router hands it over (`redirect_routes.py:163-362`). `roll` is
the value of `randrange(100)`. -/
def redirectUrl (tenant : Option TenantInfo) (shortCode : String) (request : HttpRequest)
    (roll : Nat) (now : Int) (s : Stores) : HttpResponse × Stores :=
  let shortCode := env.cfg.lib.unquote shortCode
  let scope := UrlService.scopeOf env.cfg (tenant.map (·.fqdn))
  match UrlService.resolve env.cfg env.readers shortCode scope now s with
  | (.error refusal, s) => (env.refuse tenant request.method refusal, s)
  | (.ok data, s) => (env.serve tenant shortCode request roll data, s)

/-! ## The password form -/

/-- What `RedirectResponse` leaves as it is. -/
def redirectSafe : List Char := ":/%#?=@[]!$&'()*+,;".toList

/-- The `Location` header of a `RedirectResponse`. -/
def locationHeader (url : String) : String :=
  String.ofList (PercentEncoding.quote redirectSafe url.toList)

/-- What the form is answered. -/
inductive PasswordAnswer where
  | page (response : HttpResponse)
  /-- `password.html` again. -/
  | retry (shortCode error : String)
  /-- A 302 with its `Location`. -/
  | redirect (location : String)
  deriving DecidableEq

/-- `_error_page(request, "400", …)`. -/
def invalidForm (tenant : Option TenantInfo) : PasswordAnswer :=
  .page (env.errorPage tenant "POST" "400" "Invalid short code or URL not password-protected" 400)

/-- `check_password` (`redirect_routes.py:365-412`). -/
def checkPassword (tenant : Option TenantInfo) (shortCode : String) (password : Option String) (now : Int)
    (s : Stores) : PasswordAnswer × Stores :=
  let shortCode := env.cfg.lib.unquote shortCode
  let scope := UrlService.scopeOf env.cfg (tenant.map (·.fqdn))
  match UrlService.resolve env.cfg env.readers shortCode scope now s with
  | (.error .unreadable, s) => (.page { status := 500 }, s)
  | (.error _, s) => (env.invalidForm tenant, s)
  | (.ok data, s) =>
    if (orNone data.passwordHash).isNone then (env.invalidForm tenant, s)
    else if data.verifyPassword env.verifyPasswordHash password then
      (.redirect (locationHeader ("/" ++ shortCode ++ "?password=" ++ password.getD "None")), s)
    else (.retry shortCode "Incorrect password", s)

end RedirectEnv

end Spoo
