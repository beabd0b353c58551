import Spoo.Lib.Mongo
import Spoo.Shared.DatetimeUtils
import Spoo.Shared.UrlUtils

/-!
# URL documents (`schemas/models/url.py`)

`UrlRow` is a document of the `urlsV2` collection as it is stored, `UrlV2Doc` the model the
services read it into, and `LegacyUrlRow` a document of the `urls` and `emojis` collections.
A stored field is a `DocField` where some query tells a missing field from a null one, and an
`Option` where nothing does.
-/

namespace Spoo

open Mongo (DocField)

/-- A BSON `ObjectId`. -/
abbrev ObjectId := Nat

/-- The owner of unowned links (`schemas/models/base.py:46`). -/
def anonymousOwnerId : ObjectId := 0

/-- `UrlStatus`. `scheduled` is derived from `starts_at` and never stored. -/
inductive UrlStatus where
  | active
  | inactive
  | expired
  | blocked
  | scheduled
  deriving DecidableEq, Repr

/-- `MetaImageMeta`: what the redirect cache takes from it. -/
structure MetaImageMeta where
  width : Option Nat
  height : Option Nat
  deriving DecidableEq, Repr

/-- `LinkMetaTags` (`url.py:78-121`). -/
structure LinkMetaTags where
  title : String
  description : Option String := none
  image : Option String := none
  color : Option String := none
  imageMeta : Option MetaImageMeta := none
  updatedIp : Option String := none
  deriving DecidableEq, Repr

/-- `AbVariant`: a split destination with its percentage (`url.py:216-221`). -/
structure AbVariant where
  url : String
  weight : Nat
  weight_bounds : 1 ≤ weight ∧ weight ≤ 100
  deriving DecidableEq, Repr

/-- `variant_urls` (`shared/ab_variants.py:26-28`). -/
def variantUrls (variants : Option (List AbVariant)) : List String :=
  (variants.getD []).map (·.url)

/-! ## Destinations -/

/-- `UrlDestination` (`url.py:150-213`). An empty `secondary_hosts` is stored as a missing
field, which no query tells from an empty array. -/
structure UrlDestination where
  scheme : String := ""
  host : String := ""
  subdomain : String := ""
  registrableDomain : String := ""
  secondaryHosts : List String := []
  secondaryRegistrable : List String := []
  deriving DecidableEq, Repr

namespace UrlDestination

/-- The hosts `dest_host_filter` looks at. -/
def hosts (dest : UrlDestination) : List String := dest.host :: dest.secondaryHosts

/-- `for_link` (`url.py:175-202`). -/
def forLink (lib : UrlLib) (longUrl : String) (geoRules : Option (PyDict String String))
    (variants : List String) (preStartUrl expiredRedirectUrl : Option String) :
    Option UrlDestination :=
  let main := parseDestination lib longUrl
  let urls := linkDestinationUrls none geoRules (some variants) preStartUrl expiredRedirectUrl
  let exclude := (main.map (·.host)).getD ""
  let extra := Spoo.secondaryHosts lib urls exclude
  if main = none ∧ extra = [] then none
  else some {
    scheme := (main.map (·.scheme)).getD ""
    host := (main.map (·.host)).getD ""
    subdomain := (main.map (·.subdomain)).getD ""
    registrableDomain := (main.map (·.registrableDomain)).getD ""
    secondaryHosts := extra
    secondaryRegistrable := secondaryRegistrables lib urls exclude }

/-- The stamp of a link holds exactly the hosts of the URLs it routes to. -/
theorem mem_hosts_forLink {lib : UrlLib} {longUrl h : String}
    {geoRules : Option (PyDict String String)} {variants : List String}
    {preStartUrl expiredRedirectUrl : Option String} (hne : h ≠ "") :
    (∃ dest ∈ forLink lib longUrl geoRules variants preStartUrl expiredRedirectUrl,
        h ∈ dest.hosts) ↔
      ∃ url ∈ linkDestinationUrls (some longUrl) geoRules (some variants) preStartUrl
        expiredRedirectUrl, destinationHost lib url = some h := by
  have hsplit : (∃ url ∈ linkDestinationUrls (some longUrl) geoRules (some variants)
      preStartUrl expiredRedirectUrl, destinationHost lib url = some h) ↔
      destinationHost lib longUrl = some h ∨ ∃ url ∈ linkDestinationUrls none geoRules
        (some variants) preStartUrl expiredRedirectUrl, destinationHost lib url = some h := by
    simp only [mem_linkDestinationUrls, Option.some.injEq]
    constructor
    · rintro ⟨url, ⟨hurl, rfl | hrest⟩, hh⟩
      · exact .inl hh
      · exact .inr ⟨url, ⟨hurl, .inr hrest⟩, hh⟩
    · rintro (hh | ⟨url, ⟨hurl, hrest⟩, hh⟩)
      · refine ⟨longUrl, ⟨?_, .inl rfl⟩, hh⟩
        rintro rfl
        simp [destinationHost, parseDestination] at hh
      · exact ⟨url, ⟨hurl, .inr (hrest.resolve_left (by simp))⟩, hh⟩
  rw [hsplit]
  unfold forLink
  cases hmain : parseDestination lib longUrl with
  | none =>
    have hhost : destinationHost lib longUrl = none := by simp [destinationHost, hmain]
    simp only [hhost, Option.map_none, Option.getD_none, true_and, reduceCtorEq, false_or]
    split
    · rename_i hextra
      have hmem : h ∉ Spoo.secondaryHosts lib (linkDestinationUrls none geoRules
          (some variants) preStartUrl expiredRedirectUrl) "" := by
        simp [hextra]
      rw [mem_secondaryHosts] at hmem
      simpa [hne] using hmem
    · simp [hosts, hne, mem_secondaryHosts]
  | some parts =>
    have hhost : destinationHost lib longUrl = some parts.host := by
      simp [destinationHost, hmain]
    simp only [hhost, Option.map_some, Option.getD_some, reduceCtorEq, false_and, if_false,
      Option.mem_some, exists_eq_left', hosts, List.mem_cons, mem_secondaryHosts,
      Option.some.injEq]
    by_cases heq : h = parts.host
    · simp [heq]
    · simp [heq, Ne.symm heq]

end UrlDestination

/-! ## Stored documents -/

/-- A document of the `urlsV2` collection. -/
structure UrlRow where
  id : ObjectId
  linkAlias : String
  ownerId : ObjectId := anonymousOwnerId
  domain : String
  creationIp : Option String := none
  longUrl : String
  dest : Option UrlDestination := none
  password : Option String := none
  blockBots : Option Bool := none
  maxClicks : Option Nat := none
  expireAfter : Option BsonDate := none
  startsAt : Option BsonDate := none
  preStartUrl : Option String := none
  geoRules : Option (PyDict String String) := none
  tagIds : List ObjectId := []
  abVariants : Option (List AbVariant) := none
  expiredRedirectUrl : Option String := none
  status : UrlStatus := .active
  blockedAt : Option BsonDate := none
  blockedReason : DocField String := .missing
  blockedHosts : DocField (List String) := .missing
  unblockedAt : Option BsonDate := none
  privateStats : Option Bool := some true
  metaTags : Option LinkMetaTags := none
  totalClicks : Nat := 0
  lastClick : Option BsonDate := none
  updatedAt : Option BsonDate := none
  claimTokenHash : Option String := none
  claimedAt : Option BsonDate := none
  deriving DecidableEq

/-- The unique index of `urlsV2` is over `(domain, alias)`. -/
instance : Mongo.Document UrlRow ObjectId (String × String) :=
  ⟨UrlRow.id, fun row => (row.domain, row.linkAlias)⟩

/-- The destination hosts of a link: `dest.host` and the members of `dest.secondary_hosts`. -/
def UrlRow.hosts (row : UrlRow) : List String := (row.dest.map UrlDestination.hosts).getD []

/-- The URLs a link routes to. -/
def UrlRow.destinationUrls (row : UrlRow) : List String :=
  linkDestinationUrls (some row.longUrl) row.geoRules (some (variantUrls row.abVariants))
    row.preStartUrl row.expiredRedirectUrl

/-- The `dest` of a link is the stamp of its URLs. -/
def UrlRow.IsStamped (lib : UrlLib) (row : UrlRow) : Prop :=
  row.dest = UrlDestination.forLink lib row.longUrl row.geoRules (variantUrls row.abVariants)
    row.preStartUrl row.expiredRedirectUrl

theorem UrlRow.IsStamped.mem_hosts {lib : UrlLib} {row : UrlRow} (hrow : row.IsStamped lib)
    {h : String} (hne : h ≠ "") :
    h ∈ row.hosts ↔ ∃ url ∈ row.destinationUrls, destinationHost lib url = some h := by
  rw [destinationUrls, ← UrlDestination.mem_hosts_forLink hne, ← hrow]
  cases hd : row.dest <;> simp [hosts, hd]

/-- `UrlV2Doc`: what the services read a stored link into (`url.py:224-347`). -/
structure UrlV2Doc where
  id : ObjectId
  linkAlias : String
  ownerId : ObjectId
  domain : String
  longUrl : String
  password : Option String
  blockBots : Option Bool
  maxClicks : Option Nat
  expireAfter : Option Datetime
  startsAt : Option Datetime
  preStartUrl : Option String
  geoRules : Option (PyDict String String)
  tagIds : List ObjectId
  abVariants : Option (List AbVariant)
  expiredRedirectUrl : Option String
  status : UrlStatus
  privateStats : Option Bool
  metaTags : Option LinkMetaTags
  totalClicks : Nat
  claimTokenHash : Option String

/-- `UrlV2Doc.from_mongo`. -/
def UrlV2Doc.fromMongo (row : UrlRow) : UrlV2Doc where
  id := row.id
  linkAlias := row.linkAlias
  ownerId := row.ownerId
  domain := row.domain
  longUrl := row.longUrl
  password := row.password
  blockBots := row.blockBots
  maxClicks := row.maxClicks
  expireAfter := row.expireAfter.map BsonDate.decode
  startsAt := row.startsAt.map BsonDate.decode
  preStartUrl := row.preStartUrl
  geoRules := row.geoRules
  tagIds := row.tagIds
  abVariants := row.abVariants
  expiredRedirectUrl := row.expiredRedirectUrl
  status := row.status
  privateStats := row.privateStats
  metaTags := row.metaTags
  totalClicks := row.totalClicks
  claimTokenHash := row.claimTokenHash

/-- `UrlV2Doc.effective_status` (`url.py:301-320`). -/
def UrlV2Doc.effectiveStatus (doc : UrlV2Doc) (now : Int) : UrlStatus :=
  if doc.status ≠ .active then doc.status
  else if doc.expireAfter.any fun expireAfter => asAwareUtc expireAfter ≤ now then .expired
  else if doc.maxClicks.any fun maxClicks => maxClicks ≤ doc.totalClicks then .expired
  else if doc.startsAt.any fun startsAt => now < asAwareUtc startsAt then .scheduled
  else doc.status

/-- A value of a field that code of several generations has written. -/
inductive LegacyValue where
  | missing
  | null
  | bool (b : Bool)
  | int (n : Int)
  | str (s : String)
  | date (d : BsonDate)
  /-- A double, by its `repr`. -/
  | double (repr : String)
  /-- An array, a document or another value that is no number: its truth value and its `str`. -/
  | other (truth : Bool) (text : String)
  deriving DecidableEq, Repr

namespace LegacyValue

/-- `bool(value)` in Python. -/
def truthy : LegacyValue → Bool
  | missing => false
  | null => false
  | bool b => b
  | int n => n ≠ 0
  | str s => s ≠ ""
  | date _ => true
  | double repr => repr ≠ "0.0" && repr ≠ "-0.0"
  | other truth _ => truth

/-- Whether a filter `{field: b}` matches the value. -/
def is (b : Bool) : LegacyValue → Bool
  | bool x => x = b
  | _ => false

end LegacyValue

/-- A document of the `urls` and `emojis` collections. Its `_id` is the short code, and
`blocked` is its whole enforcement state: a missing flag reads as false. -/
structure LegacyUrlRow where
  code : String
  url : String
  password : Option String := none
  blockBots : Option Bool := none
  maxClicks : LegacyValue := .missing
  totalClicks : LegacyValue := .missing
  expirationTime : LegacyValue := .missing
  dest : Option UrlDestination := none
  blocked : LegacyValue := .missing
  blockedAt : Option BsonDate := none
  blockedReason : Option String := none
  unblockedAt : Option BsonDate := none
  /-- The model accepts the fields that are not embedded (the analytics, the last click) and the types
  of those that have one type here. -/
  restTyped : Bool := true
  deriving DecidableEq

instance : Mongo.Document LegacyUrlRow String String := ⟨LegacyUrlRow.code, LegacyUrlRow.code⟩

end Spoo
