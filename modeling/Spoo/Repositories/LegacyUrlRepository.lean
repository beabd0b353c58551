import Spoo.Schemas.Url
import Spoo.Shared.EmojiPolicy

/-!
# Legacy links (`schemas/models/url.py`, `repositories/legacy/`)

`LegacyUrlDoc` and `EmojiUrlDoc` read loosely typed documents into typed ones. How strings and
numbers are read is a parameter: Python's own conversions, and those of the model.

`LegacyUrlRepository` and `EmojiUrlRepository` implement the enforcement surface with the
same queries over two collections of one shape; one definition stands for both. A v1 link has
one `blocked` flag and no record of what it was blocked for.
-/

namespace Spoo

open Mongo

/-! ## Documents as models -/

/-- What a conversion in Python raises: a `TypeError` or a `ValueError`, or an `OverflowError`. -/
inductive PyError where
  | value
  | overflow
  deriving DecidableEq, Repr

/-- The conversions a legacy field goes through. -/
structure LegacyReaders where
  /-- `int(s)`: `none` for a `ValueError`. -/
  intOfStr : String → Option Int
  /-- `int` of the double with the `repr`. -/
  intOfDouble : String → Except PyError Int
  /-- `datetime.fromisoformat(s)`: `none` for a `ValueError`. -/
  fromisoformat : String → Option Datetime
  /-- What a `bool` field of a model makes of a value that is no `bool`: `none` for a
  `ValidationError`. -/
  modelBool : LegacyValue → Option Bool
  /-- What an `int` field of a model makes of a value. -/
  modelInt : LegacyValue → Option Int
  /-- What a `datetime` field of a model makes of a value. -/
  modelDatetime : LegacyValue → Option Datetime

/-- `LegacyUrlDoc` and `EmojiUrlDoc`. -/
structure LegacyUrlDoc where
  code : String
  url : String
  password : Option String
  blocked : Bool
  maxClicks : Option Int
  totalClicks : Int
  blockBots : Option Bool
  expirationTime : Option Datetime

/-- An optional field: missing and null are `None`. -/
def LegacyValue.optional {α : Type} (read : LegacyValue → Option α) :
    LegacyValue → Option (Option α)
  | missing => some none
  | null => some none
  | value => (read value).map some

/-- A field with a default, which null is no value of. -/
def LegacyValue.withDefault {α : Type} (default : α) (read : LegacyValue → Option α) :
    LegacyValue → Option α
  | missing => some default
  | null => none
  | value => read value

/-- A `bool` field of a model. -/
def LegacyReaders.flag (readers : LegacyReaders) : LegacyValue → Option Bool
  | .bool b => some b
  | value => readers.modelBool value

/-- `from_mongo`: `none` for a `ValidationError` (`url.py:323-398`). -/
def LegacyUrlDoc.fromMongo (readers : LegacyReaders) (row : LegacyUrlRow) :
    Option LegacyUrlDoc := do
  let blocked ← row.blocked.withDefault false readers.flag
  let maxClicks ← row.maxClicks.optional readers.modelInt
  let totalClicks ← row.totalClicks.withDefault 0 readers.modelInt
  let expirationTime ← row.expirationTime.optional readers.modelDatetime
  let doc : LegacyUrlDoc := {
    code := row.code
    url := row.url
    password := row.password
    blocked
    maxClicks
    totalClicks
    blockBots := row.blockBots
    expirationTime }
  if row.restTyped then some doc else none

/-- What the conversions return on decimal digits and on two instants: half a second past the epoch, and
the last second of the year 9999 twelve hours west of Greenwich. -/
def plainReaders : LegacyReaders where
  intOfStr := digits
  intOfDouble repr := .error (if repr = "inf" then .overflow else .value)
  fromisoformat := instant
  modelBool _ := none
  modelInt
    | .int n => some n
    | .bool b => some (if b then 1 else 0)
    | .str s => digits s
    | _ => none
  modelDatetime
    | .date d => some d.decode
    | .str s => instant s
    | _ => none
where
  digits (s : String) : Option Int :=
    if s ≠ "" ∧ s.toList.all Char.isDigit then some (Nat.ofDigitChars 10 s.toList 0) else none
  instant (s : String) : Option Datetime :=
    if s = "1970-01-01T00:00:00.500+00:00" then some (.aware 500000)
    else if s = "9999-12-31T23:59:59-12:00" then some (.aware 253402343999000000)
    else none

/-- `ValidationError`, for a stored document. -/
inductive ValidationError where
  | rejected
  deriving DecidableEq, Repr

/-! ## The repositories -/

/-- The field paths the enforcement queries filter on. -/
inductive LegacyUrlField where
  | id
  | destHost
  | blocked
  deriving DecidableEq

abbrev LegacyUrlQuery := Query LegacyUrlField LegacyUrlRow

/-- The `urls` or the `emojis` collection. -/
abbrev LegacyUrlStore := Collection LegacyUrlRow

namespace LegacyUrlRepository

/-! ## Reads and inserts -/

/-- `{"_id": shortCode}`. -/
def idFilter (shortCode : String) : LegacyUrlQuery :=
  PyDict.ofList [Query.field .id fun row => row.code = shortCode]

/-- The document of a code, as it is stored. -/
def findById (store : LegacyUrlStore) (shortCode : String) : Option LegacyUrlRow :=
  store.findOne (idFilter shortCode).Matches

/-- `find_by_id`, which reads the document through its model (`legacy_url_repository.py:28-30`). -/
def findTyped (readers : LegacyReaders) (store : LegacyUrlStore) (shortCode : String) :
    Except ValidationError (Option LegacyUrlRow) :=
  match findById store shortCode with
  | none => .ok none
  | some row =>
    if (LegacyUrlDoc.fromMongo readers row).isSome then .ok (some row) else .error .rejected

/-- `check_exists` (`legacy_url_repository.py:100-103`). -/
def checkExists (store : LegacyUrlStore) (shortCode : String) : Bool :=
  (findById store shortCode).isSome

/-- `check_exists_vs16_insensitive` of the emoji repository
(`emoji_url_repository.py:171-182`). -/
def checkExistsVs16Insensitive (store : LegacyUrlStore) (canonical : String) : Bool :=
  (store.findOne fun row => matchesVs16Insensitive canonical.toList row.code.toList).isSome

/-- `insert`: `none` is a `DuplicateKeyError` (`legacy_url_repository.py:32-56`). -/
protected def insert (store : LegacyUrlStore) (row : LegacyUrlRow) : Option LegacyUrlStore :=
  store.insertOne row

/-! ## Safety enforcement -/

/-- `"dest.host": host`. -/
def destHostIs (host : String) : Key LegacyUrlField × (LegacyUrlRow → Bool) :=
  Query.field .destHost fun row => row.dest.any (·.host = host)

/-- `"_id": {"$in": shortCodes}`. -/
def idIn (shortCodes : List String) : Key LegacyUrlField × (LegacyUrlRow → Bool) :=
  Query.field .id fun row => row.code ∈ shortCodes

/-- `"blocked": True`. -/
def blockedIs : Key LegacyUrlField × (LegacyUrlRow → Bool) :=
  Query.field .blocked fun row => row.blocked.is true

/-- `"blocked": {"$ne": True}`. -/
def blockedIsNot : Key LegacyUrlField × (LegacyUrlRow → Bool) :=
  Query.field .blocked fun row => !row.blocked.is true

/-- `{"dest.host": host}`. -/
def destHostFilter (host : String) : LegacyUrlQuery := PyDict.ofList [destHostIs host]

/-- `list_by_dest_host` (`legacy_url_repository.py:113-125`). -/
def listByDestHost (store : LegacyUrlStore) (host : String) (limit : Nat := 50000) :
    List (String × String) :=
  ((store.find (destHostFilter host).Matches).take limit).map fun row => (row.code, row.url)

/-- `{"$set": {"blocked": True, "blocked_at": now, "blocked_reason": reason}}`. -/
def setBlocked (reason : String) (now : Int) : KeyedUpdate LegacyUrlRow where
  apply row := { row with
    blocked := .bool true
    blockedAt := some (.encode now)
    blockedReason := some reason }
  id_apply _ := rfl
  key_apply _ := rfl

/-- `{"$unset": {"blocked": ""}, "$set": {"unblocked_at": now}}`. -/
def unsetBlocked (now : Int) : KeyedUpdate LegacyUrlRow where
  apply row := { row with blocked := .missing, unblockedAt := some (.encode now) }
  id_apply _ := rfl
  key_apply _ := rfl

/-- The filter of `unblock_by_dest_host`. -/
def unblockFilter (host : String) : LegacyUrlQuery :=
  PyDict.ofList [destHostIs host, blockedIs]

/-- `unblock_by_dest_host` (`legacy_url_repository.py:127-137`). -/
def unblockByDestHost (store : LegacyUrlStore) (host : String) (now : Int) :
    LegacyUrlStore × Nat :=
  (store.updateMany (unblockFilter host).Matches (unsetBlocked now),
    store.modifiedCount (unblockFilter host).Matches (unsetBlocked now).toUpdate)

/-- The filter of `block_by_ids`. -/
def blockIdsFilter (shortCodes : List String) : LegacyUrlQuery :=
  PyDict.ofList [idIn shortCodes, blockedIsNot]

/-- `block_by_ids` (`legacy_url_repository.py:139-153`). -/
def blockByIds (store : LegacyUrlStore) (shortCodes : List String) (reason : String)
    (now : Int) : LegacyUrlStore × Nat :=
  if shortCodes = [] then (store, 0)
  else
    (store.updateMany (blockIdsFilter shortCodes).Matches (setBlocked reason now),
      store.modifiedCount (blockIdsFilter shortCodes).Matches
        (setBlocked reason now).toUpdate)

/-- The filter of `block_by_dest_host`. -/
def blockHostFilter (host : String) : LegacyUrlQuery :=
  PyDict.ofList [destHostIs host, blockedIsNot]

/-- `block_by_dest_host` (`legacy_url_repository.py:155-171`). -/
def blockByDestHost (store : LegacyUrlStore) (host reason : String) (now : Int) :
    LegacyUrlStore × Nat :=
  (store.updateMany (blockHostFilter host).Matches (setBlocked reason now),
    store.modifiedCount (blockHostFilter host).Matches (setBlocked reason now).toUpdate)

/-- The filter of `unblock`. -/
def unblockOneFilter (shortCode : String) : LegacyUrlQuery :=
  PyDict.ofList [Query.field .id fun row => row.code = shortCode, blockedIs]

/-- `unblock`: the restore of one link (`legacy_url_repository.py:173-190`). -/
def unblock (store : LegacyUrlStore) (shortCode : String) (now : Int) : LegacyUrlStore × Bool :=
  (store.updateMany (unblockOneFilter shortCode).Matches (unsetBlocked now),
    0 < store.modifiedCount (unblockOneFilter shortCode).Matches (unsetBlocked now).toUpdate)

/-! ## What the filters select -/

section

variable {row : LegacyUrlRow}

@[simp] theorem matches_idFilter (shortCode : String) :
    (idFilter shortCode).Matches row = decide (row.code = shortCode) := by
  simp [idFilter, Query.Matches, PyDict.ofList, PyDict.assignEntry, Query.field]

@[simp] theorem matches_destHostFilter (host : String) :
    (destHostFilter host).Matches row = row.dest.any (·.host = host) := by
  simp [destHostFilter, Query.Matches, PyDict.ofList, PyDict.assignEntry, destHostIs,
    Query.field]

@[simp] theorem matches_unblockFilter (host : String) :
    (unblockFilter host).Matches row =
      (row.dest.any (·.host = host) && row.blocked.is true) := by
  simp [unblockFilter, Query.Matches, PyDict.ofList, PyDict.assignEntry, destHostIs,
    blockedIs, Query.field]

@[simp] theorem matches_blockIdsFilter (shortCodes : List String) :
    (blockIdsFilter shortCodes).Matches row =
      (decide (row.code ∈ shortCodes) && !row.blocked.is true) := by
  simp [blockIdsFilter, Query.Matches, PyDict.ofList, PyDict.assignEntry, idIn,
    blockedIsNot, Query.field]

@[simp] theorem matches_unblockOneFilter (shortCode : String) :
    (unblockOneFilter shortCode).Matches row =
      (decide (row.code = shortCode) && row.blocked.is true) := by
  simp [unblockOneFilter, Query.Matches, PyDict.ofList, PyDict.assignEntry, blockedIs,
    Query.field]

end

end LegacyUrlRepository

end Spoo
