import Spoo.Lib.UrlSplit
import Spoo.Services.Click.Events

/-!
# The copy of the lossy flavors (`services/webhooks/renderers/copy.py`)

Every event as a title with pairs, lines, changes or a code block. Characters carry where they come from,
which no function here asks for: it is there for what is said of the texts. JSON texts, the `str` of a list
or a dictionary and dates are parameters. `none` is where Python raises.
-/

namespace Spoo.Renderers

open ClickStream (loadObject)

/-! ## Texts -/

/-- Where a character of a text comes from: from the code, from a value of the payload, or from one that is
the target of a link. -/
inductive Origin where
  | code
  | value
  | target
  deriving DecidableEq, Repr

structure Glyph where
  char : Char
  origin : Origin
  deriving DecidableEq, Repr

abbrev Text := List Glyph

def ofChars (origin : Origin) (chars : List Char) : Text := chars.map fun c => ⟨c, origin⟩

/-- A text of the code. -/
def lit (s : String) : Text := ofChars .code s.toList

/-- A text from the payload. -/
def val (s : String) : Text := ofChars .value s.toList

/-- What the copy takes from elsewhere. -/
structure CopyLib where
  /-- `unicodedata`, `str.lower` and `ipaddress`. -/
  text : UrlSplit.TextLib
  /-- `json.dumps(value, separators=(",", ":"), default=str)`. -/
  dumps : Json → String
  /-- `str` of a list or a dictionary. -/
  repr : Json → String
  /-- `datetime.fromisoformat(s)`: `none` for a `ValueError`. -/
  fromisoformat : String → Option Datetime
  /-- `int(dt.timestamp())`. -/
  timestamp : Datetime → Int

/-- `_VALUE_MAX`. -/
def valueMax : Nat := 512

/-- `_CODE_MAX`. -/
def codeMax : Nat := 1500

/-- `clip`. -/
def clip (text : Text) (limit : Nat) : Text :=
  if text.length ≤ limit then text else text.take (limit - 1) ++ lit "…"

/-- `f"{n:,}"` of the digits, from the last on. -/
def groupDigits : List Char → List Char
  | a :: b :: c :: d :: rest => a :: b :: c :: ',' :: groupDigits (d :: rest)
  | digits => digits

/-- `f"{n:,}"`. -/
def thousands (n : Int) : List Char :=
  (if n < 0 then ['-'] else []) ++ (groupDigits (Nat.toDigits 10 n.natAbs).reverse).reverse

/-! ## Values -/

/-- `payload.get(name)`. -/
def get (payload : PyDict String Json) (name : String) : Json := (payload.get? name).getD .null

/-- The value where `isinstance(value, int)`. A truth value is an integer. -/
def asInt : Json → Option Int
  | .num n => some n
  | .bool b => some (if b then 1 else 0)
  | _ => none

section

variable (lib : CopyLib)

/-- `str(value)`. -/
def pyStr : Json → String
  | .null => "None"
  | .bool b => if b then "True" else "False"
  | .num n => toString n
  | .str s => s
  | value => lib.repr value

/-- `_SENTINELS`. -/
def sentinels : List String := ["", "unknown", "(none)"]

/-- `_present`. -/
def present : Json → Bool
  | .null => false
  | .str s => !sentinels.contains (String.ofList (lib.text.lower (pyStrip s).toList))
  | _ => true

/-- `_fmt`. -/
def fmt : Json → Text
  | .null => lit "none"
  | .bool b => if b then lit "yes" else lit "no"
  | .num n => clip (val (toString n)) valueMax
  | .str s => clip (val s) valueMax
  | value => clip (val (lib.dumps value)) valueMax

/-! ## The parts -/

/-- `Copy`. The names of pairs are texts of the code. -/
structure Copy where
  title : Text
  titleUrl : Option Json
  context : Text
  notice : Option Text
  label : Text
  display : Option Text
  subtitle : Option Text
  lines : List Text := []
  pairs : List (String × Text) := []
  changes : List (Text × Text × Text) := []
  code : Option Text := none

/-- `EVENT_LABELS`. -/
def eventLabels : PyDict String String :=
  PyDict.ofList [
    ("link.created", "Link created"),
    ("link.updated", "Link updated"),
    ("link.deleted", "Link deleted"),
    ("link.expired", "Link expired"),
    ("link.clicked", "Click"),
    ("webhook.test", "Test delivery")]

/-- `EVENT_LABELS.get(event_type, event_type)`. -/
def labelOf (eventType : String) : Text := lit ((eventLabels.get? eventType).getD eventType)

/-- `_EXPIRY_REASONS`. -/
def expiryReasons : PyDict String String :=
  PyDict.ofList [("max_clicks_reached", "Max clicks reached"), ("time_expired", "Expiry time passed")]

/-- `_link_of`. -/
def linkOf (eventType : String) (payload : PyDict String Json) : PyDict String Json :=
  if eventType = "link.clicked" then payload else (loadObject (get payload "link")).getD .empty

/-- `f"{domain}/{alias}"` where both are there. -/
def displayOf (link : PyDict String Json) : Option Text :=
  if present lib (get link "alias") && present lib (get link "domain") then
    some (val (pyStr lib (get link "domain")) ++ lit "/" ++ val (pyStr lib (get link "alias")))
  else none

/-- `_title`. -/
def title (eventType : String) (link : PyDict String Json) : Text :=
  match displayOf lib link with
  | some display => labelOf eventType ++ lit ": " ++ display
  | none => labelOf eventType

/-- `_notice`. -/
def notice (payload : PyDict String Json) : Option Text :=
  match asInt (get payload "dropped_since_last") with
  | some dropped =>
    if 0 < dropped then
      some (val (pyStr lib (get payload "dropped_since_last")) ++ lit " earlier " ++
        lit (if dropped = 1 then "delivery" else "deliveries") ++ lit " dropped")
    else none
  | none => none

/-- `_referrer_host`. -/
def referrerHost (referrer : Json) : Option Text :=
  match UrlSplit.urlsplit lib.text (pyStr lib referrer).toList with
  | none => none
  | some parts =>
    match parts.netloc with
    | none | some [] => some (val (pyStr lib referrer))
    | some host => some (ofChars .value host)

/-- `_date_part`. -/
def datePart (value : Json) : Text :=
  if present lib value then (val (pyStr lib value)).take 10 else lit "never"

/-- `_age_days`. A naive date and an aware one have no difference. -/
def ageDays (createdAt : Json) (occurredAt : String) : Option Int :=
  match lib.fromisoformat (pyStr lib createdAt), lib.fromisoformat occurredAt with
  | some (.aware created), some (.aware occurred) => some (max 0 ((occurred - created) / 86400000000))
  | some (.naive created), some (.naive occurred) => some (max 0 ((occurred - created) / 86400000000))
  | _, _ => none

/-- `len(text) == 2 and text.isascii() and text.isalpha()`. -/
def isCountryCode (text : List Char) : Bool := decide (text.length = 2) && text.all Char.isAlpha

/-- The regional indicators of a code. -/
def flag (upper : List Char) : List Char := upper.map fun c => Char.ofNat (0x1F1E6 + c.toNat - 65)

/-- `_country_display`. -/
def countryDisplay (code : Json) : Text :=
  let text := (pyStr lib code).toList
  if isCountryCode text then
    ofChars .value (flag (text.map Char.toUpper)) ++ lit " " ++ ofChars .value (text.map Char.toUpper)
  else ofChars .value text

/-- `_country_display_bold`. -/
def countryDisplayBold (esc : Text → Text) (code : Json) : Text :=
  let text := (pyStr lib code).toList
  if isCountryCode text then
    ofChars .value (flag (text.map Char.toUpper)) ++ lit " **" ++ ofChars .value (text.map Char.toUpper) ++
      lit "**"
  else esc (ofChars .value text)

/-- The values of `utm` that are there, joined. -/
def campaignOf (esc : Text → Text) (payload : PyDict String Json) : Text :=
  match loadObject (get payload "utm") with
  | none => []
  | some utm =>
    List.intercalate (lit " / ")
      ((utm.entries.filter fun e => present lib e.2).map fun e => esc (val (pyStr lib e.2)))

/-- A pair for a value that is there. -/
def pairOf (payload : PyDict String Json) (name field : String) : List (String × Text) :=
  if present lib (get payload field) then [(name, val (pyStr lib (get payload field)))] else []

/-- Where a click came from. -/
def clickSource (payload : PyDict String Json) : Option Text :=
  if present lib (get payload "referrer") then referrerHost lib (get payload "referrer")
  else some (lit "direct")

/-- `_clicked_pairs`. -/
def clickedPairs (payload : PyDict String Json) : Option (List (String × Text)) :=
  let country := if present lib (get payload "country") then
    [("Country", countryDisplay lib (get payload "country"))] else []
  let campaign := campaignOf lib id payload
  let utm := if campaign ≠ [] then [("UTM", campaign)] else []
  let bot := if (get payload "is_bot").truthy then
    [("Bot", if present lib (get payload "bot_name") then val (pyStr lib (get payload "bot_name"))
      else lit "detected")] else []
  let total := match asInt (get payload "total_clicks") with
    | some total => [("Clicks so far", ofChars .value (thousands total))]
    | none => []
  (clickSource lib payload).map fun source =>
    (country ++ pairOf lib payload "City" "city" ++ pairOf lib payload "Browser" "browser" ++
      pairOf lib payload "OS" "os" ++ pairOf lib payload "Device" "device" ++ [("From", source)] ++ utm ++
      bot ++ total).map fun pair => (pair.1, clip pair.2 valueMax)

/-- `_updated_changes`. -/
def updatedChanges (payload : PyDict String Json) : List (Text × Text × Text) :=
  match loadObject (get payload "changes") with
  | none => []
  | some changes => changes.entries.map fun entry =>
    match loadObject entry.2 with
    | some change => (val entry.1, fmt lib (get change "old"), fmt lib (get change "new"))
    | none => (val entry.1, fmt lib .null, fmt lib entry.2)

/-- `_EXPIRY_REASONS.get(reason, _fmt(reason))`: a list or a dictionary is no key. -/
def reasonOf : Json → Option Text
  | .arr _ | .obj _ => none
  | .str reason => some (((expiryReasons.get? reason).map lit).getD (fmt lib (.str reason)))
  | reason => some (fmt lib reason)

/-- How many there are, in a word of the singular or of the plural. -/
def countOf (n : Nat) (one many : String) : Text :=
  if n = 0 then lit "none"
  else ofChars .value (Nat.toDigits 10 n) ++ lit " " ++ lit (if n = 1 then one else many)

/-- The configuration of a link that was created. -/
def createdPairs (link : PyDict String Json) : List (String × Text) :=
  [("Expires", datePart lib (get link "expires_at")),
    ("Max clicks", ((asInt (get link "max_clicks")).map fun n => ofChars .value (thousands n)).getD
      (lit "unlimited")),
    ("Password", lit (if (get link "password_protected").truthy then "protected" else "none")),
    ("Bots", lit (if (get link "block_bots").truthy then "blocked" else "allowed")),
    ("Meta tags", lit (if (get link "meta_tags").truthy then "custom" else "default")),
    ("Tags", match get link "tag_ids" with
      | .arr tags => countOf tags.length "tag" "tags"
      | _ => lit "none"),
    ("Geo targeting", match loadObject (get link "geo_rules") with
      | some rules => countOf rules.entries.length "rule" "rules"
      | none => lit "none")]

/-- The age of a link that was deleted, where its dates can be read. -/
def agePairs (link : PyDict String Json) (occurredAt : String) : List (String × Text) :=
  match ageDays lib (get link "created_at") occurredAt with
  | some age => [("Age", if age = 1 then lit "1 day" else ofChars .value (thousands age) ++ lit " days")]
  | none => []

/-- The clicks of a link that is gone. -/
def lifetimePairs (link : PyDict String Json) : List (String × Text) :=
  match asInt (get link "total_clicks") with
  | some total => [("Lifetime clicks", ofChars .value (thousands total))]
  | none => []

/-- `_lifecycle_pairs`. -/
def lifecyclePairs (eventType : String) (payload : PyDict String Json) (occurredAt : String) :
    Option (List (String × Text)) :=
  let link := linkOf eventType payload
  let destination := if present lib (get link "long_url") then
    [("Destination", fmt lib (get link "long_url"))] else []
  let created := if eventType = "link.created" then createdPairs lib link else []
  let total := if eventType = "link.deleted" ∨ eventType = "link.expired" then lifetimePairs link else []
  let age := if eventType = "link.deleted" then agePairs lib link occurredAt else []
  let pairs := destination ++ created ++ total ++ age
  if eventType = "link.expired" then
    (reasonOf lib (get payload "reason")).map fun reason => ("Reason", reason) :: pairs
  else some pairs

/-- The line of the place, in the country or without one. -/
def placeLines (esc : Text → Text) (payload : PyDict String Json) : List Text :=
  let city := if present lib (get payload "city") then [esc (val (pyStr lib (get payload "city")))] else []
  if present lib (get payload "country") then
    [countryDisplayBold lib esc (get payload "country") ++ city.flatMap fun text => lit "  " ++ text]
  else city

/-- The software and the device, empty where neither is there. -/
def deviceText (esc : Text → Text) (payload : PyDict String Json) : Text :=
  let software := List.intercalate (lit " on ")
    ((["browser", "os"].filter fun field => present lib (get payload field)).map fun field =>
      esc (val (pyStr lib (get payload field))))
  if present lib (get payload "device") then
    (if software ≠ [] then software ++ lit ", " else []) ++ esc (val (pyStr lib (get payload "device")))
  else software

/-- The source of a visit, before its campaign. -/
def sourceText (esc : Text → Text) (payload : PyDict String Json) : Option Text :=
  if present lib (get payload "referrer") then
    (referrerHost lib (get payload "referrer")).map fun host => lit "from **" ++ esc host ++ lit "**"
  else some (lit "direct visit")

def campaignText (esc : Text → Text) (payload : PyDict String Json) : Text :=
  let campaign := campaignOf lib esc payload
  if campaign ≠ [] then lit "  (" ++ campaign ++ lit ")" else []

def botLines (esc : Text → Text) (payload : PyDict String Json) : List Text :=
  if (get payload "is_bot").truthy then
    [if present lib (get payload "bot_name") then
      lit "bot  **" ++ esc (val (pyStr lib (get payload "bot_name"))) ++ lit "**"
      else lit "bot traffic"] else []

/-- `clicked_summary`, with the count for the footer. -/
def clickedSummary (esc : Text → Text) (payload : PyDict String Json) : Option (List Text × Option Text) :=
  let device := deviceText lib esc payload
  (sourceText lib esc payload).map fun source =>
    ((placeLines lib esc payload ++ (if device ≠ [] then [device] else []) ++
        [source ++ campaignText lib esc payload] ++ botLines lib esc payload).map (clip · valueMax),
      (asInt (get payload "total_clicks")).map fun total => ofChars .value (thousands total))

/-- The events that have a subtitle and lead with pairs. -/
def isLifecycle (eventType : String) : Bool :=
  ["link.created", "link.deleted", "link.expired"].contains eventType

/-- What the copies of all events have (`common`, and the first arguments of each `Copy`). -/
def commonCopy (eventType timestamp : String) (payload : PyDict String Json) : Copy :=
  let link := linkOf eventType payload
  { title := title lib eventType link
    titleUrl := if present lib (get link "short_url") then some (get link "short_url") else none
    context := lit "spoo.me · " ++ lit timestamp ++ ((notice lib payload).elim [] fun text => lit " · " ++ text)
    notice := notice lib payload
    label := labelOf eventType
    display := displayOf lib link
    subtitle :=
      if isLifecycle eventType && present lib (get link "long_url") then
        some (val (pyStr lib (get link "long_url")))
      else none }

/-- `build_copy`. -/
def buildCopy (eventType timestamp : String) (payload : PyDict String Json) : Option Copy :=
  let common := commonCopy lib eventType timestamp payload
  if eventType = "link.clicked" then (clickedPairs lib payload).map fun pairs => { common with pairs }
  else if eventType = "webhook.test" then
    some { common with
      lines := if present lib (get payload "message") then
        [clip (val (pyStr lib (get payload "message"))) valueMax] else [] }
  else if eventType = "link.updated" then some { common with changes := updatedChanges lib payload }
  else if isLifecycle eventType then
    (lifecyclePairs lib eventType payload timestamp).map fun pairs => { common with pairs }
  else
    let shown := payload.entries.filter fun e => e.1 ≠ "dropped_since_last"
    some { common with code := some (clip (val (lib.dumps (.obj shown))) codeMax) }

end

end Spoo.Renderers
