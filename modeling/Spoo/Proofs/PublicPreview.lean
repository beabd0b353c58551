import Spoo.Proofs.LegacyLiveness
import Spoo.Proofs.RedirectStatus
import Spoo.Routes.Redirect

/-!
# What the public preview reveals

The preview names a destination on the grounds of the effective status; the redirect goes there on
the grounds of the projection.
-/

namespace Spoo

open UrlService

/-! ## The redirect of a link -/

section

variable {env : RedirectEnv} {tenant : Option TenantInfo} {request : HttpRequest}
  {data : UrlCacheData} {url : String}

end

/-! ## What resolve makes of a projection -/

/-- What `resolve` makes of a projection, from the database and from the cache. -/
def outcome (data : UrlCacheData) (now : Int) : Except Refusal UrlCacheData :=
  if statusRefuses data then .error (raiseForStatus data)
  else if v1CapRefuses data then .error (.expired (.gone "URL has expired (max clicks reached)"))
  else if data.isTimeExpired now then .error (.expired (timeError data))
  else if data.isNotYetLive now then .error (.notYetLive data.preStartUrl)
  else .ok data

theorem timeError_eq_expiredRedirect_iff {data : UrlCacheData} {url : String} :
    timeError data = .expiredRedirect url ↔ orNone data.expiredRedirectUrl = some url := by
  unfold timeError orNone
  cases data.expiredRedirectUrl with
  | none => simp
  | some fallback => by_cases hempty : fallback = "" <;> simp [hempty, Option.filter_some]

/-- Where visitors of the link are sent while it is live. -/
def SelectedLink.destinations : SelectedLink → List String
  | .v2 doc => doc.longUrl :: (doc.geoRules.map PyDict.values).getD [] ++ variantUrls doc.abVariants
  | .v1 row => [row.url]
  | .emoji row => [row.url]

section

variable {env : RedirectEnv} {request : HttpRequest} {roll : Nat} {doc : UrlV2Doc} {now : Int}
  {url : String}

end

section

open PublicPreviewService

variable {env : RedirectEnv} {lib : PreviewLib} {request : HttpRequest} {roll : Nat}
  {doc : UrlV2Doc} {now : Int} {shortUrl : String}

end

/-! ## Legacy links -/

section

open PublicPreviewService

variable {env : RedirectEnv} {lib : PreviewLib} {request : HttpRequest} {roll : Nat}
  {row : LegacyUrlRow} {link : SelectedLink} {now : Int} {shortUrl url : String}

end

/-! ## The preview of a code -/

/-- The route on the system domain, where nobody is a bot. -/
def plainRedirectEnv : RedirectEnv where
  cfg := plainDispatch
  readers := plainReaders
  agents := ⟨fun _ => some true, fun _ => false⟩
  verifyPasswordHash _ _ := false
  countryOfIp _ := none
  upper := String.toUpper
  hostnameOf _ := none
  renderPreview _ := "<html>"
  edgeComposedErrors := false

/-- A visitor with a browser. -/
def plainVisit : HttpRequest where
  hostname := "spoo.me"
  path := "/aaa"
  userAgent := "Firefox"

/-- The stores with one link. -/
def storesOf (row : UrlRow) : Stores where
  urls := {
    docs := [row]
    nodup_id := List.nodup_singleton _
    nodup_key := List.nodup_singleton _ }
  legacy := .empty
  emoji := .empty

end Spoo
