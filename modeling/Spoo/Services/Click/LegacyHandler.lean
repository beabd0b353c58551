import Spoo.Lib.BsonUpdate
import Spoo.Lib.Totals
import Spoo.Services.UrlService.Service

/-!
# Clicks on v1 links (`services/click/handlers.py`, `services/public_stats_service.py`)

The analytics of a v1 or an emoji link are counters in its own document. What a click is counted under
becomes a field on the way in, and the fields are read back for the stats page.
-/

namespace Spoo

open Bson

/-- What the handler of v1 clicks asks. -/
structure LegacyClickLib where
  url : UrlLib
  /-- `ua_parse`: the families of the browser and of the operating system. -/
  uaParse : String → Option (String × String)
  getCountry : String → Option String
  isBotRequest : String → Bool
  getBotName : String → Option String
  /-- `clicked_at.strftime("%Y-%m-%d")`. -/
  day : Int → String
  /-- `clicked_at.strftime("%Y-%m-%d %H:%M:%S")`. -/
  second : Int → String
  /-- The names of fields that the server stores. -/
  accepts : String → Bool

/-- What `LegacyClickHandler.handle` reads of a `ClickContext`. -/
structure LegacyClickContext where
  blockBots : Bool := false
  clientIp : String
  userAgent : String
  referrer : Option String := none
  clickedAt : Int
  deriving DecidableEq, Repr

/-- Why a click is not recorded. -/
inductive ClickFailure where
  | raised (error : AppError)
  | write (error : UpdateError)

/-- A click as it is counted: the keys of its dimensions. -/
structure LegacyClick where
  browser : String
  osName : String
  country : String
  referrer : Option String
  bot : Option String
  clientIp : String
  lastClickCountry : Value
  day : String
  second : String

namespace LegacyClickHandler

/-- `re.sub(r"[.$\x00-\x1F\x7F-\x9F]", "_", name)`. -/
def sanitizedKey (name : String) : String :=
  let isUnsafe (c : Char) : Bool :=
    c = '.' || c = '$' || c.toNat ≤ 0x1F || (0x7F ≤ c.toNat && c.toNat ≤ 0x9F)
  String.ofList (name.toList.map fun c => if isUnsafe c then '_' else c)

/-- `country.replace(".", " ")`. -/
def withoutDots (country : String) : String :=
  String.ofList (country.toList.map fun c => if c = '.' then ' ' else c)

variable (lib : LegacyClickLib)

/-- The part of `handle` before the update (`handlers.py:260-330`). -/
def readClick (context : LegacyClickContext) : Except AppError LegacyClick :=
  if context.userAgent = "" then .error ⟨.validation, "Invalid User-Agent", none⟩
  else match lib.uaParse context.userAgent with
    | none => .error ⟨.validation, "Invalid User-Agent", none⟩
    | some (browser, osName) =>
      let isBot := lib.isBotRequest context.userAgent
      let country := (lib.getCountry context.clientIp).map withoutDots
      let referrer := ((context.referrer.filter (· ≠ "")).map fun referrer =>
        sanitizedKey (registrableDomain lib.url referrer)).filter (· ≠ "")
      if isBot ∧ context.blockBots then .error ⟨.forbidden, "Access Denied, Bots not allowed", none⟩
      else .ok {
        browser
        osName
        -- `f"country.{None}"`.
        country := country.getD "None"
        referrer
        bot := if isBot then ((lib.getBotName context.userAgent).filter (· ≠ "")).map sanitizedKey else none
        clientIp := context.clientIp
        lastClickCountry := (country.map Value.str).getD .null
        day := lib.day context.clickedAt
        second := lib.second context.clickedAt }

/-- The paths `f"{field}.{key}.counts"` and `f"{field}.{key}.ips"`. -/
def entryPath (field key leaf : String) : String := field ++ "." ++ key ++ "." ++ leaf

/-- The update of a click, its `$inc`, `$set`, `$max` and `$addToSet` in turn. The average of the
redirection times is left out. -/
def updates (click : LegacyClick) : List (String × UpdateOp) :=
  (click.referrer.toList.map fun referrer => (entryPath "referrer" referrer "counts", .inc 1)) ++
  [(entryPath "country" click.country "counts", .inc 1),
    (entryPath "browser" click.browser "counts", .inc 1),
    (entryPath "os_name" click.osName "counts", .inc 1)] ++
  (click.bot.toList.map fun bot => ("bots" ++ "." ++ bot, .inc 1)) ++
  [("counter" ++ "." ++ click.day, .inc 1), ("unique_counter" ++ "." ++ click.day, .inc 1),
    ("total-clicks", .inc 1),
    ("last-click-browser", .set (.str click.browser)), ("last-click-os", .set (.str click.osName)),
    ("last-click-country", .set click.lastClickCountry),
    ("last-click", .max click.second)] ++
  (click.referrer.toList.map fun referrer =>
    (entryPath "referrer" referrer "ips", .addToSet click.clientIp)) ++
  [(entryPath "country" click.country "ips", .addToSet click.clientIp),
    (entryPath "browser" click.browser "ips", .addToSet click.clientIp),
    (entryPath "os_name" click.osName "ips", .addToSet click.clientIp),
    ("ips", .addToSet click.clientIp)]

/-- `handle`, on the document of the link, below the limit of its size. -/
def handle (context : LegacyClickContext) (root : Value) : Except ClickFailure Value := do
  let click ← (readClick lib context).mapError .raised
  (update lib.accepts (updates click) root).mapError .write

/-- Clicks on one link, one after the other: the document, and the clicks that were recorded. A click that
is not recorded leaves the document as it is. -/
def handleAll (contexts : List LegacyClickContext) (root : Value) : Value × List LegacyClickContext :=
  contexts.foldl (fun (root, recorded) context =>
    match handle lib context root with
    | .ok root => (root, recorded ++ [context])
    | .error _ => (root, recorded)) (root, [])

end LegacyClickHandler

namespace PublicStatsService

variable (readers : LegacyReaders)

/-- `int(value or 0)`: `none` is a `TypeError` or a `ValueError`. -/
def intOrZero : Value → Option Int
  | .null => some 0
  | .int n => some n
  | .str s => if s = "" then some 0 else readers.intOfStr s
  | .array items => if items.isEmpty then some 0 else none
  | .doc fields => if fields.isEmpty then some 0 else none

/-- The count of an entry. -/
def entryCount : Value → Option Int
  | .doc fields => intOrZero readers ((get? fields "counts").getD (.int 0))
  | value => intOrZero readers value

/-- A text of an array. -/
def asText : Value → Option String
  | .str s => some s
  | _ => none

/-- The addresses of an entry. -/
def entryIps : Value → List String
  | .doc fields =>
    match get? fields "ips" with
    | some (.array items) => items.filterMap asText
    | _ => []
  | _ => []

/-- The counts, the addresses and the entries that were skipped, as the loop fills them. -/
structure DimensionRows where
  clicks : PyDict String Int := .empty
  uniqueIps : PyDict String (List String) := .empty
  skipped : List String := []

/-- One turn of the loop of `_v1_dimension_rows` (`public_stats_service.py:434-460`). -/
def addEntry (transform : String → String) (rows : DimensionRows) (entry : String × Value) :
    DimensionRows :=
  match entryCount readers entry.2 with
  | none => { rows with skipped := rows.skipped ++ [entry.1] }
  | some count =>
    let value := transform entry.1
    { rows with
      clicks := rows.clicks.assign value ((rows.clicks.get? value).getD 0 + count)
      uniqueIps := rows.uniqueIps.assign value
        (((rows.uniqueIps.get? value).getD []) ++ entryIps entry.2).dedup }

/-- `_v1_dimension_rows`: the values with their clicks and with their unique clicks. -/
def v1DimensionRows (transform : String → String) (source : List (String × Value)) :
    List (String × Int) × List (String × Nat) :=
  let rows := source.foldl (addEntry readers transform) {}
  let ordered := rows.clicks.entries.insertionSort fun a b => b.2 ≤ a.2
  (ordered, ordered.map fun row => (row.1, ((rows.uniqueIps.get? row.1).getD []).length))

/-- A field of the document that is a map. -/
def mapOf (root : Value) (field : String) : List (String × Value) :=
  match root with
  | .doc fields =>
    match get? fields field with
    | some (.doc entries) => entries
    | _ => []
  | _ => []

/-- The dimensions of `_synthesize_v1_stats`, each with its field and the way its values are shown. -/
inductive V1Dimension where
  | browser
  | os
  | country
  deriving DecidableEq, Repr

/-- The field of a dimension. -/
def V1Dimension.field : V1Dimension → String
  | .browser => "browser"
  | .os => "os_name"
  | .country => "country"

/-- The transform of a dimension. -/
def V1Dimension.transform (convertCountryName : String → String) : V1Dimension → String → String
  | .country => convertCountryName
  | _ => id

/-- The sum of the clicks that the stats page shows for a dimension. -/
def shownClicks (convertCountryName : String → String) (dimension : V1Dimension) (root : Value) : Int :=
  ((v1DimensionRows readers (dimension.transform convertCountryName)
    (mapOf root dimension.field)).1.map Prod.snd).sum

end PublicStatsService

end Spoo
