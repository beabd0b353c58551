import Spoo.Routes.Redirect

/-!
# The edge Worker (`edge/spoo-edge-cache/src/`)

The Worker answers from the KV namespace what it can, and passes everything else on to the origin. A
failure on the way passes the request on as well.
-/

namespace Spoo

/-- The runtime the Worker is written for. -/
structure WorkerRuntime where
  /-- `decodeURIComponent`: `none` for a `URIError`. -/
  decodeURIComponent : String → Option String
  /-- `String.prototype.toUpperCase`. -/
  toUpperCase : String → String
  /-- `request.cf.verifiedBotCategory`. -/
  verifiedBotCategory : HttpRequest → Option String

/-- What the Worker does with a request. -/
inductive EdgeAnswer where
  | passthrough
  | preview (html : String)
  | redirect (location : String) (status : Nat) (noStore : Bool)
  deriving DecidableEq, Repr

namespace EdgeWorker

/-- `EXCLUDED_PREFIXES`. -/
def excludedPrefixes : List String :=
  ["/api/", "/dashboard/", "/auth/", "/oauth/", "/static/", "/stats/", "/relay/", "/onboarding/"]

/-- `EXCLUDED_EXACT`. -/
def excludedExact : List String := [
  "about", "api", "apps", "auth", "billing", "blog", "brand", "callback", "changelog", "contact",
  "dashboard", "discord", "docs", "domains", "emoji", "error", "export", "favicon", "features",
  "forgot-password", "geo", "github", "health", "help", "home", "humans", "icon", "icons-3d",
  "images", "keys", "legal", "links", "login", "logout", "metric", "oauth", "onboarding",
  "pricing", "privacy", "privacy-policy", "profile", "profile-pictures", "public", "register",
  "relay", "report", "reset", "result", "robots", "security", "settings", "signin", "signup",
  "sitemap", "statistics", "stats", "static", "terms", "terms-of-service", "testimonials", "tos",
  "twitter", "verify"]

/-- `hostname.toLowerCase().replace(/^www\./, "")`. -/
def canonicalHost (hostname : String) : String :=
  let host := hostname.toLower.toList
  if "www.".toList.isPrefixOf host then String.ofList (host.drop 4) else String.ofList host

/-- The code in a path that may be that of a short link: one segment, no file name, no page of the
site and no preview of a link (`index.ts:125-133`). -/
def pathCode (path : String) : Option String :=
  if path = "/" ∨ containsText path "." then none
  else if excludedPrefixes.any fun start => start.toList.isPrefixOf path.toList then none
  else
    let code := path.toList.drop 1
    if code = [] ∨ '/' ∈ code then none
    else if "+".toList.isSuffixOf code ∨ "%2B".toList.isSuffixOf code then none
    else if String.ofList code ∈ excludedExact then none
    else some (String.ofList code)

variable (runtime : WorkerRuntime)

/-- `lookupKey` (`index.ts:115-139`). -/
def lookupKey (request : HttpRequest) : Option String :=
  if request.method ≠ "GET" ∧ request.method ≠ "HEAD" then none
  else if request.hasParam "password" ∨ request.hasParam "bot" then none
  else do
    let code ← pathCode request.path
    let decoded ← runtime.decodeURIComponent code
    some (cacheKey (canonicalHost request.hostname) decoded)

/-- `wantsPreview` (`bots.ts:30-41`). -/
def wantsPreview (request : HttpRequest) : Bool :=
  request.method = "HEAD" ||
    (orNone (runtime.verifiedBotCategory request)).any (previewBots.cfCategories.contains ·) ||
    (request.userAgent ≠ "" && matchesPreviewBot previewBots request.userAgent)

/-- `og_html` of an entry. -/
def ogHtml : EdgeCacheEntry → Option String
  | .redirect _ _ ogHtml => ogHtml
  | .geoRedirect _ _ _ ogHtml => ogHtml
  | .ogOnly ogHtml => some ogHtml

/-- `entry.status === 301 ? 301 : 302`. -/
def redirectStatus (status : Nat) : Nat := if status = 301 then 301 else 302

/-- What an entry is served as (`index.ts:150-219`). -/
def answerEntry (entry : EdgeCacheEntry) (request : HttpRequest) : EdgeAnswer :=
  match (ogHtml entry).filter fun _ => wantsPreview runtime request with
  | some html => .preview html
  | none =>
    match entry with
    | .ogOnly _ => .passthrough
    | .redirect url status _ => .redirect url (redirectStatus status) false
    | .geoRedirect url status rules _ =>
      let country := runtime.toUpperCase (request.country.getD "")
      .redirect ((rules.get? country).getD url) (redirectStatus status) true

/-- `fetch` (`index.ts:141-229`). -/
def fetch (kv : EdgeKv) (request : HttpRequest) (now : Int) : EdgeAnswer :=
  match lookupKey runtime request with
  | none => .passthrough
  | some key =>
    match kv.get key now with
    | none => .passthrough
    | some entry => answerEntry runtime entry request

end EdgeWorker

end Spoo
