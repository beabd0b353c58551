import Spoo.Schemas.Url

/-!
# Listing links by effective status (`services/url_service.py`)

The list page filters in the database by the status that `UrlV2Doc.effective_status` derives in
Python.
-/

namespace Spoo

open Mongo

/-- Dates compare by their milliseconds. -/
instance : LE BsonDate := ⟨fun d e => d.ms ≤ e.ms⟩

instance : LT BsonDate := ⟨fun d e => d.ms < e.ms⟩

instance : DecidableLE BsonDate := fun d e => inferInstanceAs (Decidable (d.ms ≤ e.ms))

instance : DecidableLT BsonDate := fun d e => inferInstanceAs (Decidable (d.ms < e.ms))

/-- A document of `urlsV2` with the optional fields that `effective_status_clause` compares as
MongoDB holds them. -/
structure StoredUrl where
  row : UrlRow
  expireAfter : DocField BsonDate
  maxClicks : DocField Nat
  startsAt : DocField BsonDate
  expireAfter_row : row.expireAfter = expireAfter.toOption
  maxClicks_row : row.maxClicks = maxClicks.toOption
  startsAt_row : row.startsAt = startsAt.toOption
  /-- SCHEDULED is derived only and never persisted. -/
  persisted : row.status ≠ .scheduled

/-- The field paths the clause compares. -/
inductive StatusField where
  | status
  | expireAfter
  | maxClicks
  | startsAt
  deriving DecidableEq

abbrev StatusQuery := Query StatusField StoredUrl

/-- `"status": status`. -/
def storedStatusIs (status : UrlStatus) : Key StatusField × (StoredUrl → Bool) :=
  Query.field .status fun doc => doc.row.status = status

/-- `_derived_scheduled_arm` (`url_service.py:1983-1987`). The driver encodes `now` as it encodes the
stored instants. -/
def derivedScheduledArm (now : Int) : StatusQuery :=
  PyDict.ofList [
    storedStatusIs .active,
    Query.field .startsAt fun doc => doc.startsAt.gt (.encode now)]

/-- `_derived_expiry_arms` (`url_service.py:1990-2002`). -/
def derivedExpiryArms (now : Int) : List StatusQuery := [
  PyDict.ofList [
    storedStatusIs .active,
    Query.field .expireAfter fun doc => doc.expireAfter.lte (.encode now)],
  PyDict.ofList [
    storedStatusIs .active,
    Query.field .maxClicks fun doc => doc.maxClicks.isNotNull,
    Query.expr fun doc => (DocField.value doc.row.totalClicks).exprGte doc.maxClicks]]

/-- `effective_status_clause` (`url_service.py:2005-2022`). -/
def effectiveStatusClause (status : UrlStatus) (now : Int) : StatusQuery :=
  if status = .expired then
    PyDict.ofList [
      Query.or (PyDict.ofList [storedStatusIs .expired] :: derivedExpiryArms now)]
  else if status = .scheduled then
    -- Expiry wins over the start, here as in the property.
    (derivedScheduledArm now).extend [Query.nor (derivedExpiryArms now)]
  else if status = .active then
    PyDict.ofList [
      storedStatusIs .active,
      Query.nor (derivedExpiryArms now ++ [derivedScheduledArm now])]
  else PyDict.ofList [storedStatusIs status]

end Spoo
