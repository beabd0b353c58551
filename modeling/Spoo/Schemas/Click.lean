import Spoo.Schemas.Url

/-!
# Clicks and their dimensions (`schemas/models/click.py`, `schemas/enums/stats.py`)

A click is a document of the `clicks` time series. Each dimension of the statistics that a click carries
is one of its fields.
-/

namespace Spoo

open Mongo

/-- `StatsDimension`. -/
inductive StatsDimension where
  | time
  | browser
  | os
  | device
  | country
  | city
  | referrer
  | shortCode
  | urlId
  | utmSource
  | utmMedium
  | utmCampaign
  | tag
  | tagId
  | variant
  deriving DecidableEq, Repr

namespace StatsDimension

/-- Every dimension. -/
def all : List StatsDimension :=
  [time, browser, os, device, country, city, referrer, shortCode, urlId, utmSource, utmMedium, utmCampaign,
    tag, tagId, variant]

/-- The value of the enumeration, which is the name on the wire. -/
def value : StatsDimension → String
  | time => "time"
  | browser => "browser"
  | os => "os"
  | device => "device"
  | country => "country"
  | city => "city"
  | referrer => "referrer"
  | shortCode => "short_code"
  | urlId => "url_id"
  | utmSource => "utm_source"
  | utmMedium => "utm_medium"
  | utmCampaign => "utm_campaign"
  | tag => "tag"
  | tagId => "tag_id"
  | variant => "variant"

/-- The dimension of a name. -/
def ofValue (name : String) : Option StatsDimension := all.find? fun dimension => dimension.value = name

/-- `ALLOWED_FILTERS`. -/
def allowedFilters : List StatsDimension :=
  [browser, os, device, country, city, referrer, shortCode, urlId, utmSource, utmMedium, utmCampaign, tag,
    tagId, variant]

/-- `LINK_ALLOWED_FILTERS`. -/
def linkAllowedFilters : List StatsDimension :=
  allowedFilters.filter fun dimension => dimension ∉ [shortCode, urlId, tag, tagId]

/-- `_DIMENSION_FIELDS`, with the name on the wire where the two agree. -/
def storedField : StatsDimension → String
  | variant => "variant_index"
  | dimension => dimension.value

end StatsDimension

/-- A scalar of a document. -/
inductive StoredScalar where
  | text (value : String)
  | number (value : Nat)
  deriving DecidableEq, Repr

/-- `str`. -/
def StoredScalar.str : StoredScalar → String
  | text value => value
  | number value => toString value

/-- A document of `clicks`: what the statistics read of it. A field may be missing or null, for a bucket
of the series keeps the shape that it was written in. -/
structure ClickDoc where
  clickedAt : Int
  urlId : ObjectId
  shortCode : String
  ownerId : ObjectId
  ipAddress : String
  country : DocField String := .value "Unknown"
  city : DocField String := .value "Unknown"
  browser : DocField String
  os : DocField String
  device : DocField String := .missing
  referrer : DocField String := .missing
  utmSource : DocField String := .missing
  utmMedium : DocField String := .missing
  utmCampaign : DocField String := .missing
  variantIndex : DocField Nat := .missing
  deriving DecidableEq

/-- A field of texts. -/
def textField : DocField String → DocField StoredScalar
  | .missing => .missing
  | .null => .null
  | .value s => .value (.text s)

/-- A field of numbers. -/
def numberField : DocField Nat → DocField StoredScalar
  | .missing => .missing
  | .null => .null
  | .value n => .value (.number n)

/-- What a click stores of a dimension, under its `storedField`; nothing of those that are not on the
click. -/
def ClickDoc.field (click : ClickDoc) : StatsDimension → DocField StoredScalar
  | .browser => textField click.browser
  | .os => textField click.os
  | .device => textField click.device
  | .country => textField click.country
  | .city => textField click.city
  | .referrer => textField click.referrer
  | .utmSource => textField click.utmSource
  | .utmMedium => textField click.utmMedium
  | .utmCampaign => textField click.utmCampaign
  | .variant => numberField click.variantIndex
  | .time | .shortCode | .urlId | .tag | .tagId => .missing

/-- Names that lead back to their dimension are distinct. -/
theorem StatsDimension.injective_of_find {name : StatsDimension → String}
    (h : ∀ dimension, all.find? (fun other => name other = name dimension) = some dimension) :
    Function.Injective name := by
  intro a b hab
  have ha := h a
  rw [hab, h b, Option.some.injEq] at ha
  exact ha.symm

end Spoo
