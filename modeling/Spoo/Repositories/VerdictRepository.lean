import Spoo.Shared.DatetimeUtils

/-!
# Verdicts (`schemas/models/verdict.py`, `schemas/enums/safety.py`, `repositories/verdict_repository.py`)

One verdict per destination host: the collection has a unique index on the host, so that it is a partial map
from hosts. Of the provenance of an investigation only the scope and the pattern are kept, which other code
reads back.
-/

namespace Spoo

/-- `VerdictTier`. -/
inductive VerdictTier where
  | toxic
  | gray
  | benign
  | uncertain
  deriving DecidableEq, Repr

/-- How far a verdict reaches: the values of `scope`. -/
inductive VerdictScope where
  | host
  | links
  | pathPattern
  deriving DecidableEq, Repr

/-- `VerdictDoc`. A missing `decided_by` reads as "system". -/
structure VerdictDoc where
  host : String
  registrableDomain : String := ""
  sampleUrl : Option String := none
  tier : VerdictTier
  reason : Option String := none
  source : String := "local_feeds"
  trigger : String := "report"
  decidedBy : String := "system"
  scope : Option VerdictScope := none
  pathPattern : Option String := none
  updatedAt : Option BsonDate := none
  deriving DecidableEq, Repr

/-- A human's call. -/
def VerdictDoc.isHuman (verdict : VerdictDoc) : Bool := verdict.decidedBy ≠ "system"

/-! ## The repository -/

/-- The `safety_verdicts` collection. -/
structure VerdictStore where
  entries : String → Option VerdictDoc

namespace VerdictRepository

/-- The keyword arguments of `upsert_verdict` after the host. `scope` is the outer `none` where
it says nothing, and `provenance` the scope and the pattern an investigation merges in. -/
structure VerdictFields where
  registrableDomain : String
  tier : VerdictTier
  reason : Option String
  source : String
  trigger : String
  sampleUrl : Option String := none
  decidedBy : String := "system"
  scope : Option VerdictScope := none
  pathPattern : Option String := none
  provenance : Option (VerdictScope × Option String) := none

/-- What `$set` leaves of the scope and the pattern: the provenance last. -/
def VerdictFields.reach (fields : VerdictFields) (before : Option VerdictDoc) :
    Option VerdictScope × Option String :=
  match fields.provenance with
  | some (scope, pathPattern) => (some scope, pathPattern)
  | none =>
    match fields.scope with
    | some scope => (some scope, fields.pathPattern)
    | none => (before.bind (·.scope), before.bind (·.pathPattern))

/-- The document an upsert leaves. -/
def VerdictFields.doc (fields : VerdictFields) (host : String) (before : Option VerdictDoc)
    (now : Int) : VerdictDoc where
  host
  registrableDomain := fields.registrableDomain
  sampleUrl := fields.sampleUrl
  tier := fields.tier
  reason := fields.reason
  source := fields.source
  trigger := fields.trigger
  decidedBy := fields.decidedBy
  scope := (fields.reach before).1
  pathPattern := (fields.reach before).2
  updatedAt := some (.encode now)

/-- `upsert_verdict`. The query of a system write asks for a system verdict, so that a human
one makes it an insert, which the unique index refuses (`verdict_repository.py:21-83`). -/
def upsertVerdict (store : VerdictStore) (host : String) (fields : VerdictFields) (now : Int) :
    VerdictStore × Bool :=
  let before := store.entries host
  if fields.decidedBy = "system" ∧ before.any (·.isHuman) then (store, false)
  else
    (⟨fun h => if h = host then some (fields.doc host before now) else store.entries h⟩, true)

/-- `find_by_host`. -/
def findByHost (store : VerdictStore) (host : String) : Option VerdictDoc := store.entries host

end VerdictRepository

end Spoo
