import Spoo.Services.UrlService.Dispatch
import Spoo.Services.UrlService.Handlers

/-!
# The status of a public page (`services/public_link_resolver.py`) and the public link preview
(`services/public_preview_service.py`)

The public pages read v1 and emoji documents raw, so that the legacy fields survive.
`GET /api/v1/public/preview/{short_code}` describes a link in whatever state it is in.
-/

namespace Spoo

/-! ## The status -/

/-- `int(value)`. -/
def pyInt (readers : LegacyReaders) : LegacyValue → Except PyError Int
  | .bool b => .ok (if b then 1 else 0)
  | .int n => .ok n
  | .str s => (readers.intOfStr s).elim (.error .value) .ok
  | .double repr => readers.intOfDouble repr
  | _ => .error .value

/-- `str(value)` of a value that is neither null nor a date. -/
def pyStr : LegacyValue → String
  | .bool b => if b then "True" else "False"
  | .int n => toString n
  | .str s => s
  | .double repr => repr
  | .other _ text => text
  | _ => ""

/-- `datetime.min` and `datetime.max`, in microseconds since the epoch. -/
def datetimeMin : Int := -62135596800000000

def datetimeMax : Int := 253402300799999999

/-- `convert_to_gmt`: a naive value is no instant, and an instant that leaves the years 1 to 9999 in
UTC is an `OverflowError` (`datetime_utils.py:98-113`). -/
def convertToGmt (readers : LegacyReaders) (text : String) : Except PyError (Option Int) :=
  match readers.fromisoformat text with
  | none => .error .value
  | some (.aware us) =>
    if datetimeMin ≤ us ∧ us ≤ datetimeMax then .ok (some us) else .error .overflow
  | some _ => .ok none

/-- `except (TypeError, ValueError)`. -/
def catchValue {α : Type} (default : α) : Except PyError α → Except PyError α
  | .error .value => .ok default
  | result => result

/-- `int(data.get("total-clicks") or 0)`. -/
def LegacyUrlRow.pageClicks (readers : LegacyReaders) (row : LegacyUrlRow) : Except PyError Int :=
  pyInt readers (if row.totalClicks.truthy then row.totalClicks else .int 0)

/-- The first half of `v1_is_expired`: `max-clicks` is reached. -/
def v1CapReached (readers : LegacyReaders) (row : LegacyUrlRow) : Except PyError Bool :=
  match row.maxClicks with
  | .missing => .ok false
  | .null => .ok false
  | maxClicks => catchValue false do
    let clicks ← row.pageClicks readers
    let cap ← pyInt readers maxClicks
    return decide (cap ≤ clicks)

/-- The second half: the instant `expiration-time` stands for. The driver returns dates naive. -/
def v1ExpiresAt (readers : LegacyReaders) (row : LegacyUrlRow) : Except PyError (Option Int) :=
  match row.expirationTime with
  | .missing => .ok none
  | .null => .ok none
  | .date _ => .ok none
  | value => catchValue none (convertToGmt readers (pyStr value))

/-- `v1_is_expired`, with the `OverflowError` that it leaves to its caller
(`public_link_resolver.py:58-91`). -/
def v1IsExpired (readers : LegacyReaders) (row : LegacyUrlRow) (now : Int) : Except PyError Bool := do
  if ← v1CapReached readers row then return true
  return (← v1ExpiresAt readers row).any fun expiresAt => expiresAt ≤ now

/-- `ResolvedPublicLink.effective_status` (`public_link_resolver.py:129-139`). -/
def SelectedLink.effectiveStatus (readers : LegacyReaders) (now : Int) :
    SelectedLink → Except PyError UrlStatus
  | .v2 doc => .ok (doc.effectiveStatus now)
  | .v1 row => legacyStatus row
  | .emoji row => legacyStatus row
where
  legacyStatus (row : LegacyUrlRow) : Except PyError UrlStatus := do
    if row.blocked.truthy then return .blocked
    return if ← v1IsExpired readers row now then .expired else .active

/-! ## The preview -/

namespace PublicPreviewService

variable (lib : PreviewLib) (readers : LegacyReaders)

/-- `url.split("/")[0]`. -/
def firstPart (url : String) : String := String.ofList (url.toList.takeWhile (· ≠ '/'))

end PublicPreviewService

end Spoo
