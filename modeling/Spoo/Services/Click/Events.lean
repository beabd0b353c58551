import Spoo.Infrastructure.UrlCache
import Spoo.Lib.PyList
import Spoo.Schemas.Webhook

/-!
# The click stream (`services/click/events.py`)

A `ClickEvent` is built by its validators, goes onto a Redis stream as JSON, and is built again from what is
read there. JSON texts, ISO dates, and what pydantic makes of a value of another type are parameters.
-/

namespace Spoo.ClickStream

/-- `UrlCacheData`, whose status and owner go over the wire as texts. -/
abbrev UrlCacheData : Type := Spoo.UrlCacheData String String

/-- The fields of a `ClickEvent`, as they are given or after their validators. -/
structure ClickFields (Time : Type) where
  shortCode : String
  schemaKey : String
  isEmoji : Bool
  url : UrlCacheData
  clientIp : String
  userAgent : String
  referrer : Option String
  cfCity : Option String
  resolvedCountry : Option String := none
  geoMatched : Bool := false
  variantIndex : Option Int := none
  utmSource : Option String := none
  utmMedium : Option String := none
  utmCampaign : Option String := none
  redirectMs : Int
  enqueuedAt : Time

/-- `_UTM_MAX_LEN`. -/
def utmMaxLen : Nat := 100

/-- `_CONTROL_CHARS_RE`. -/
def isControlChar (c : Char) : Bool := c.toNat ≤ 0x1F || (0x7F ≤ c.toNat && c.toNat ≤ 0x9F)

/-- `_CONTROL_CHARS_RE.sub("", value).strip()[:_UTM_MAX_LEN]`. -/
def cleanUtm (value : String) : List Char :=
  (PyList.strip isPySpace (value.toList.filter fun c => !isControlChar c)).take utmMaxLen

/-- `_sanitize_utm`. -/
def sanitizeUtm (value : Option String) : Option String :=
  value.bind fun value => if cleanUtm value = [] then none else some (String.ofList (cleanUtm value))

/-- `_strip_password_hash`. -/
def stripPasswordHash (url : UrlCacheData) : UrlCacheData :=
  if url.passwordHash.isSome then { url with passwordHash := none } else url

variable {Time : Type}

/-- What the validators make of the fields. -/
def ClickFields.validated (fields : ClickFields Time) : ClickFields Time :=
  { fields with
    url := stripPasswordHash fields.url
    utmSource := sanitizeUtm fields.utmSource
    utmMedium := sanitizeUtm fields.utmMedium
    utmCampaign := sanitizeUtm fields.utmCampaign }

/-- `ClickEvent`: there is none whose fields no validator has seen. -/
structure ClickEvent (Time : Type) where
  fields : ClickFields Time
  isValidated : ∃ given : ClickFields Time, fields = given.validated

/-- `ClickEvent(…)`. -/
def ClickEvent.build (given : ClickFields Time) : ClickEvent Time := ⟨given.validated, given, rfl⟩

/-- What the codec asks of pydantic. -/
structure WireLib (Time : Type) where
  /-- JSON as text, and read from it. -/
  print : Json → String
  parse : String → Option Json
  /-- Dates in ISO 8601. -/
  showTime : Time → String
  readTime : String → Option Time
  /-- What counts as a number, a truth value or a date without being one. -/
  laxInt : Json → Option Int
  laxBool : Json → Option Bool
  laxTime : Json → Option Time
  /-- `datetime.now(timezone.utc)`. -/
  now : Time

/-! ## `model_dump_json` -/

def dumpOption {α : Type} (dump : α → Json) (value : Option α) : Json := (value.map dump).getD .null

/-- `AbVariant.model_dump`. -/
def dumpVariant (variant : AbVariant) : Json :=
  .obj [("url", .str variant.url), ("weight", .num variant.weight)]

def dumpRules (rules : PyDict String String) : Json := .obj (rules.entries.map fun e => (e.1, .str e.2))

/-- The fields of a dumped `UrlCacheData`. The id goes by its name, not by its alias `_id`. -/
def dumpUrl (url : UrlCacheData) : List (String × Json) :=
  [("id", .str url.id),
    ("alias", .str url.linkAlias),
    ("long_url", .str url.longUrl),
    ("block_bots", .bool url.blockBots),
    ("password_hash", dumpOption .str url.passwordHash),
    ("expiration_time", dumpOption .num url.expirationTime),
    ("max_clicks", dumpOption .num url.maxClicks),
    ("url_status", .str url.urlStatus),
    ("schema_version", .str url.schemaVersion),
    ("owner_id", dumpOption .str url.ownerId),
    ("total_clicks", .num url.totalClicks),
    ("domain", .str url.domain),
    ("geo_rules", dumpOption dumpRules url.geoRules),
    ("expired_redirect_url", dumpOption .str url.expiredRedirectUrl),
    ("ab_variants", dumpOption (fun variants => .arr (variants.map dumpVariant)) url.abVariants),
    ("meta_title", dumpOption .str url.metaTitle),
    ("meta_description", dumpOption .str url.metaDescription),
    ("meta_image", dumpOption .str url.metaImage),
    ("meta_color", dumpOption .str url.metaColor),
    ("meta_image_width", dumpOption .num url.metaImageWidth),
    ("meta_image_height", dumpOption .num url.metaImageHeight),
    ("start_time", dumpOption .num url.startTime),
    ("pre_start_url", dumpOption .str url.preStartUrl)]

variable (lib : WireLib Time)

/-- The fields of a dumped `ClickEvent`. -/
def dumpFields (fields : ClickFields Time) : List (String × Json) :=
  [("short_code", .str fields.shortCode),
    ("schema_key", .str fields.schemaKey),
    ("is_emoji", .bool fields.isEmoji),
    ("url", .obj (dumpUrl fields.url)),
    ("client_ip", .str fields.clientIp),
    ("user_agent", .str fields.userAgent),
    ("referrer", dumpOption .str fields.referrer),
    ("cf_city", dumpOption .str fields.cfCity),
    ("resolved_country", dumpOption .str fields.resolvedCountry),
    ("geo_matched", .bool fields.geoMatched),
    ("variant_index", dumpOption .num fields.variantIndex),
    ("utm_source", dumpOption .str fields.utmSource),
    ("utm_medium", dumpOption .str fields.utmMedium),
    ("utm_campaign", dumpOption .str fields.utmCampaign),
    ("redirect_ms", .num fields.redirectMs),
    ("enqueued_at", .str (lib.showTime fields.enqueuedAt))]

def ClickEvent.dump (event : ClickEvent Time) : Json := .obj (dumpFields lib event.fields)

/-- `to_stream_fields`. -/
def toStreamFields (event : ClickEvent Time) : PyDict String String :=
  PyDict.ofList [("v", "1"), ("type", "click.recorded"), ("__data__", lib.print (event.dump lib))]

/-! ## `model_validate_json` -/

def loadStr : Json → Option String
  | .str value => some value
  | _ => none

def loadInt : Json → Option Int
  | .num value => some value
  | value => lib.laxInt value

def loadBool : Json → Option Bool
  | .bool value => some value
  | value => lib.laxBool value

def loadTime : Json → Option Time
  | .str value => lib.readTime value
  | value => lib.laxTime value

def loadOption {α : Type} (load : Json → Option α) : Json → Option (Option α)
  | .null => some none
  | value => (load value).map some

/-- A JSON object, of which a key that is there twice counts as it is there last. -/
def loadObject : Json → Option (PyDict String Json)
  | .obj fields => some (PyDict.ofList fields)
  | _ => none

/-- A field that must be there. -/
def required {α : Type} (load : Json → Option α) (value : Option Json) : Option α := value.bind load

/-- A field with a default. -/
def defaulted {α : Type} (default : α) (load : Json → Option α) (value : Option Json) : Option α :=
  value.elim (some default) load

/-- `weight: int = Field(ge=1, le=100)`. -/
def loadVariant (value : Json) : Option AbVariant := do
  let fields ← loadObject value
  let url ← required loadStr (fields.get? "url")
  let weight ← required (loadInt lib) (fields.get? "weight")
  if h : 1 ≤ weight.toNat ∧ weight.toNat ≤ 100 then some ⟨url, weight.toNat, h⟩ else none

def loadVariants : Json → Option (List AbVariant)
  | .arr values => values.mapM (loadVariant lib)
  | _ => none

def loadRules (value : Json) : Option (PyDict String String) := do
  let fields ← loadObject value
  let rules ← fields.entries.mapM fun e => (loadStr e.2).map (e.1, ·)
  return PyDict.ofList rules

/-- `populate_by_name`: the id may go by its alias or by its name. -/
def loadUrl (value : Json) : Option UrlCacheData := do
  let fields ← loadObject value
  return {
    id := ← required loadStr ((fields.get? "_id").or (fields.get? "id"))
    linkAlias := ← required loadStr (fields.get? "alias")
    longUrl := ← required loadStr (fields.get? "long_url")
    blockBots := ← required (loadBool lib) (fields.get? "block_bots")
    passwordHash := ← required (loadOption loadStr) (fields.get? "password_hash")
    expirationTime := ← required (loadOption (loadInt lib)) (fields.get? "expiration_time")
    maxClicks := ← required (loadOption (loadInt lib)) (fields.get? "max_clicks")
    urlStatus := ← required loadStr (fields.get? "url_status")
    schemaVersion := ← required loadStr (fields.get? "schema_version")
    ownerId := ← required (loadOption loadStr) (fields.get? "owner_id")
    totalClicks := ← defaulted 0 (loadInt lib) (fields.get? "total_clicks")
    domain := ← defaulted "" loadStr (fields.get? "domain")
    geoRules := ← defaulted none (loadOption loadRules) (fields.get? "geo_rules")
    expiredRedirectUrl := ← defaulted none (loadOption loadStr) (fields.get? "expired_redirect_url")
    abVariants := ← defaulted none (loadOption (loadVariants lib)) (fields.get? "ab_variants")
    metaTitle := ← defaulted none (loadOption loadStr) (fields.get? "meta_title")
    metaDescription := ← defaulted none (loadOption loadStr) (fields.get? "meta_description")
    metaImage := ← defaulted none (loadOption loadStr) (fields.get? "meta_image")
    metaColor := ← defaulted none (loadOption loadStr) (fields.get? "meta_color")
    metaImageWidth := ← defaulted none (loadOption (loadInt lib)) (fields.get? "meta_image_width")
    metaImageHeight := ← defaulted none (loadOption (loadInt lib)) (fields.get? "meta_image_height")
    startTime := ← defaulted none (loadOption (loadInt lib)) (fields.get? "start_time")
    preStartUrl := ← defaulted none (loadOption loadStr) (fields.get? "pre_start_url") }

def loadFields (value : Json) : Option (ClickFields Time) := do
  let fields ← loadObject value
  return {
    shortCode := ← required loadStr (fields.get? "short_code")
    schemaKey := ← required loadStr (fields.get? "schema_key")
    isEmoji := ← required (loadBool lib) (fields.get? "is_emoji")
    url := ← required (loadUrl lib) (fields.get? "url")
    clientIp := ← required loadStr (fields.get? "client_ip")
    userAgent := ← required loadStr (fields.get? "user_agent")
    referrer := ← required (loadOption loadStr) (fields.get? "referrer")
    cfCity := ← required (loadOption loadStr) (fields.get? "cf_city")
    resolvedCountry := ← defaulted none (loadOption loadStr) (fields.get? "resolved_country")
    geoMatched := ← defaulted false (loadBool lib) (fields.get? "geo_matched")
    variantIndex := ← defaulted none (loadOption (loadInt lib)) (fields.get? "variant_index")
    utmSource := ← defaulted none (loadOption loadStr) (fields.get? "utm_source")
    utmMedium := ← defaulted none (loadOption loadStr) (fields.get? "utm_medium")
    utmCampaign := ← defaulted none (loadOption loadStr) (fields.get? "utm_campaign")
    redirectMs := ← required (loadInt lib) (fields.get? "redirect_ms")
    enqueuedAt := ← defaulted lib.now (loadTime lib) (fields.get? "enqueued_at") }

/-- `from_stream_fields`: what cannot be read is `None`. -/
def fromStreamFields (fields : PyDict String String) : Option (ClickEvent Time) :=
  match fields.get? "__data__" with
  | none => none
  | some raw =>
    if raw = "" then none
    else ((lib.parse raw).bind (loadFields lib)).map ClickEvent.build

end Spoo.ClickStream
