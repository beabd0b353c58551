import Spoo.Schemas.Url

/-!
# The redirect cache (`infrastructure/cache/url_cache.py`)

`UrlCacheData` is the projection of a link the redirect path serves from. The cache is the
Redis instance it lives in, one entry per `url_cache:<domain>:<alias>`; an entry that timed
out is a missing one.
-/

namespace Spoo

/-- `UrlCacheData` (`url_cache.py:28-62`), with the types of a status and of an owner's id.
`schemaVersion` is "v1", "v2" or "emoji". -/
structure UrlCacheData (Status : Type := UrlStatus) (Owner : Type := ObjectId) where
  id : String
  linkAlias : String
  longUrl : String
  blockBots : Bool
  passwordHash : Option String
  expirationTime : Option Int
  maxClicks : Option Int
  urlStatus : Status
  schemaVersion : String
  ownerId : Option Owner
  totalClicks : Int := 0
  domain : String := ""
  geoRules : Option (PyDict String String) := none
  expiredRedirectUrl : Option String := none
  abVariants : Option (List AbVariant) := none
  metaTitle : Option String := none
  metaDescription : Option String := none
  metaImage : Option String := none
  metaColor : Option String := none
  metaImageWidth : Option Int := none
  metaImageHeight : Option Int := none
  startTime : Option Int := none
  preStartUrl : Option String := none

namespace UrlCacheData

/-- `from_v2_doc` (`url_cache.py:64-102`). -/
def fromV2Doc (doc : UrlV2Doc) : UrlCacheData where
  id := toString doc.id
  linkAlias := doc.linkAlias
  longUrl := doc.longUrl
  blockBots := doc.blockBots.getD false
  passwordHash := doc.password
  expirationTime := doc.expireAfter.map toUnixTimestamp
  maxClicks := doc.maxClicks.map (↑)
  urlStatus := doc.status
  schemaVersion := "v2"
  ownerId := some doc.ownerId
  domain := doc.domain
  geoRules := doc.geoRules
  expiredRedirectUrl := doc.expiredRedirectUrl
  abVariants := doc.abVariants
  metaTitle := doc.metaTags.map (·.title)
  metaDescription := doc.metaTags.bind (·.description)
  metaImage := doc.metaTags.bind (·.image)
  metaColor := doc.metaTags.bind (·.color)
  metaImageWidth := (doc.metaTags.bind (·.imageMeta)).bind fun size => size.width.map (↑)
  metaImageHeight := (doc.metaTags.bind (·.imageMeta)).bind fun size => size.height.map (↑)
  startTime := doc.startsAt.map toUnixTimestampCeil
  preStartUrl := doc.preStartUrl

/-- `ObjectId(data.id)`: `none` where the id is not one of a v2 link. -/
def objectId (data : UrlCacheData) : Option ObjectId :=
  let digits := data.id.toList
  if digits ≠ [] ∧ digits.all Char.isDigit then some (Nat.ofDigitChars 10 digits 0) else none

/-- `is_not_yet_live`, with the clock in microseconds (`url_cache.py:104-108`). -/
def isNotYetLive (data : UrlCacheData) (now : Int) : Bool :=
  data.startTime.any fun start => now < start * 1000000

/-- `is_time_expired`, with the clock in microseconds (`url_cache.py:110-115`). -/
def isTimeExpired (data : UrlCacheData) (now : Int) : Bool :=
  data.expirationTime.any fun expiry => expiry * 1000000 ≤ now

end UrlCacheData

/-- The entries of the redirect cache under their Redis keys. -/
structure UrlCache where
  entries : String → Option UrlCacheData

namespace UrlCache

/-- `_key` (`url_cache.py:137-138`). -/
def key (shortCode domain : String) : String := "url_cache:" ++ domain ++ ":" ++ shortCode

/-- The empty cache. -/
def empty : UrlCache := ⟨fun _ => none⟩

/-- `get` (`url_cache.py:140-150`). -/
def get (cache : UrlCache) (shortCode domain : String) : Option UrlCacheData :=
  cache.entries (key shortCode domain)

/-- `set`: the domain is read off the data (`url_cache.py:152-164`). -/
def set (cache : UrlCache) (shortCode : String) (data : UrlCacheData) : UrlCache :=
  ⟨fun k => if k = key shortCode data.domain then some data else cache.entries k⟩

/-- `invalidate` (`url_cache.py:166-175`). -/
def invalidate (cache : UrlCache) (shortCode domain : String) : UrlCache :=
  ⟨fun k => if k = key shortCode domain then none else cache.entries k⟩

/-- `invalidate_many` (`url_cache.py:177-195`). -/
def invalidateMany (cache : UrlCache) (shortCodes : List String) (domain : String) :
    UrlCache :=
  ⟨fun k => if k ∈ shortCodes.map (key · domain) then none else cache.entries k⟩

/-- An invalidation only ever removes entries. -/
theorem entries_invalidate_eq_some {cache : UrlCache} {shortCode domain k : String}
    {data : UrlCacheData} :
    (cache.invalidate shortCode domain).entries k = some data ↔
      k ≠ key shortCode domain ∧ cache.entries k = some data := by
  simp [invalidate]

end UrlCache

end Spoo
