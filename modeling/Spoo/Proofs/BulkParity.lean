import Spoo.Proofs.BulkEffects
import Spoo.Proofs.NewKeys

/-!
# A bulk call and the calls for single links

What a bulk call does to the links and answers for each, against the method for a single link applied
to the distinct ids in the order of the request.
-/

namespace Spoo

open Fallible Interleave Mongo Mongo.Collection Itemwise

/-! ## Verdicts -/

/-- `error_code` of the exception (`errors.py`). -/
def ErrorKind.errorCode : ErrorKind → String
  | .validation => "validation_error"
  | .forbidden => "forbidden"
  | .notFound => "not_found"
  | .conflict => "conflict"
  | .internal => "internal_error"

/-- What becomes of one link: it is done, it is refused, or the call ends with an error of the driver
or without an answer. -/
inductive ItemVerdict where
  | done
  | refused (code message : String)
  | failed
  deriving DecidableEq, Repr

namespace ItemVerdict

def isDone (verdict : ItemVerdict) : Bool := decide (verdict = .done)

/-- The verdict in a row of a report. -/
def ofRow (row : BulkUrlResultRow) : ItemVerdict :=
  if row.ok then .done else .refused (row.errorCode.getD "") (row.error.getD "")

/-- The verdict of a method for one link. -/
def ofOutcome : Option (Except Raised UrlV2Doc) → ItemVerdict
  | some (.ok _) => .done
  | some (.error (.app e)) => .refused e.kind.errorCode e.message
  | some (.error .duplicateKey) => .failed
  | none => .failed

/-- The verdicts of a bulk call for its distinct ids; one that raises refuses them all. -/
def ofBulk (ids : List ObjectId) : Except AppError (Option BulkUrlOperationResponse) → List ItemVerdict
  | .ok (some report) => report.results.map ofRow
  | .ok none => ids.eraseDups.map fun _ => .failed
  | .error e => ids.eraseDups.map fun _ => .refused e.kind.errorCode e.message

/-- The verdicts of a method for one link, called for the distinct ids in turn. -/
def ofSingles (call : ObjectId → Stores → Option (Except Raised UrlV2Doc) × Stores)
    (ids : List ObjectId) (s : Stores) : List ItemVerdict :=
  (inTurn call ids.eraseDups s).1.map ofOutcome

theorem ofBulk_itemReport {final : UrlV2Doc → BulkUrlResultRow} {message : String} {urls : UrlStore}
    {ids : List ObjectId} {ownerId : ObjectId} :
    ofBulk ids (.ok (some (BulkUrlService.itemReport final message urls ids ownerId))) =
      ids.eraseDups.map fun i =>
        ofRow (BulkUrlService.itemRow final message i (BulkUrlService.ownedDoc urls ownerId i)) :=
  List.map_map

end ItemVerdict

/-! ## One update -/

namespace UrlService

open BulkUrlService (isLive KeepsKey)

section

variable {env : UpdateEnv} {edge : EdgeConfig} {request : UpdateUrlRequest} {ownerId : ObjectId}
  {clientIp : Option String} {now : Int} {urls : UrlStore} {i : ObjectId}

/-- The link after an update. -/
def updateEffect (env : UpdateEnv) (request : UpdateUrlRequest) (ownerId : ObjectId)
    (clientIp : Option String) (now : Int) (row : UrlRow) : Option UrlRow :=
  some (if isLive ownerId row then
    match buildOps env now request clientIp (.fromMongo row) with
    | .ok ops =>
      if ops = {} then row else ({ ops with updatedAt := some now } : UrlOps).toUpdate.apply row
    | .error _ => row
  else row)

/-- What an update returns or raises, by the link that it finds. -/
def updateOutcome (env : UpdateEnv) (request : UpdateUrlRequest) (ownerId : ObjectId)
    (clientIp : Option String) (now : Int) (found : Option UrlRow) : Option (Except Raised UrlV2Doc) :=
  match loadOwned (found.map .fromMongo) ownerId "Cannot modify a blocked URL" with
  | .error e => some (.error (.app e))
  | .ok existing =>
    match buildOps env now request clientIp existing with
    | .error e => some (.error (.app e))
    | .ok ops =>
      some (.ok (if ops = {} then existing
        else ({ ops with updatedAt := some now } : UrlOps).merge existing))

theorem id_updateEffect (row row' : UrlRow)
    (h : updateEffect env request ownerId clientIp now row = some row') : row'.id = row.id := by
  unfold updateEffect at h
  cases h
  split
  · split
    · split <;> rfl
    · rfl
  · rfl

theorem not_isLive_of_loadOwned {message : String} {e : AppError} {row : UrlRow}
    (h : loadOwned (some (.fromMongo row)) ownerId message = .error e) : isLive ownerId row = false := by
  by_cases howner : row.ownerId = ownerId
  · by_cases hblocked : row.status = .blocked
    · simp [isLive, hblocked]
    · simp [loadOwned, UrlV2Doc.fromMongo, howner, hblocked] at h
  · simp [isLive, howner]

theorem loadOwned_of_not_isLive {message : String} {row : UrlRow} (h : isLive ownerId row = false) :
    ∃ e, loadOwned (some (.fromMongo row)) ownerId message = .error e := by
  by_cases howner : row.ownerId = ownerId
  · have hblocked : row.status = .blocked := by simpa [isLive, howner] using h
    refine ⟨⟨.forbidden, message, none⟩, ?_⟩
    simp [loadOwned, UrlV2Doc.fromMongo, howner, hblocked]
  · refine ⟨⟨.forbidden, "Access denied: you do not own this URL", none⟩, ?_⟩
    simp [loadOwned, UrlV2Doc.fromMongo, howner]

theorem loadOwned_of_isLive {message : String} {row : UrlRow} (h : isLive ownerId row = true) :
    loadOwned (some (.fromMongo row)) ownerId message = .ok (.fromMongo row) := by
  simp only [isLive, Bool.and_eq_true, decide_eq_true_eq] at h
  simp [loadOwned, UrlV2Doc.fromMongo, h.1, h.2]

/-- Nothing changes while the link with the id is as it was. -/
theorem docs_of_lookup {effect : UrlRow → Option UrlRow}
    (h : ∀ row ∈ urls.lookup i, effect row = some row) : rewrite (· = i) effect urls.docs = urls.docs :=
  rewrite_eq_self fun row hrow hid =>
    h row (lookup_eq_some_iff.2 ⟨hrow, of_decide_eq_true hid⟩)

/-- An update that leaves the key of a link alone is a call for that link. -/
theorem item_update (hkeeps : ∀ row ops,
      buildOps env now request clientIp (.fromMongo row) = .ok ops → KeepsKey ops) :
    Item Stores.urls (fun i s => update env edge i request ownerId clientIp now s)
      (updateEffect env request ownerId clientIp now)
      (fun _ found => updateOutcome env request ownerId clientIp now found) := by
  have hcall (i : ObjectId) (s : Stores) :
      (update env edge i request ownerId clientIp now s).1 =
          updateOutcome env request ownerId clientIp now (s.urls.lookup i) ∧
        (update env edge i request ownerId clientIp now s).2.urls.docs =
          rewrite (· = i) (updateEffect env request ownerId clientIp now) s.urls.docs := by
    unfold updateOutcome
    rw [← UrlRepository.findById_eq]
    cases hload : loadOwned (UrlRepository.findById s.urls i) ownerId "Cannot modify a blocked URL" with
    | error e =>
      rw [update_refused hload]
      refine ⟨rfl, (docs_of_lookup fun row hrow => ?_).symm⟩
      rw [UrlRepository.findById_eq, Option.mem_def.1 hrow] at hload
      simp [updateEffect, not_isLive_of_loadOwned hload]
    | ok existing =>
      obtain ⟨row, hrow, rfl, howner, hstatus⟩ := loadOwned_ok hload
      have hlive : isLive ownerId row = true := by simp [isLive, howner, hstatus]
      dsimp only
      cases hbuild : buildOps env now request clientIp (.fromMongo row) with
      | error e =>
        rw [update_rejected hload hbuild]
        refine ⟨rfl, (docs_of_lookup fun found hfound => ?_).symm⟩
        cases hrow.symm.trans hfound
        simp [updateEffect, hlive, hbuild]
      | ok ops =>
        by_cases hops : ops = {}
        · subst hops
          rw [update_unchanged hload hbuild]
          refine ⟨by simp, (docs_of_lookup fun found hfound => ?_).symm⟩
          cases hrow.symm.trans hfound
          simp [updateEffect, hlive, hbuild]
        · have hkey : KeepsKey ({ ops with updatedAt := some now } : UrlOps) := hkeeps row ops hbuild
          have hwrite : UrlRepository.update s.urls i
              ({ ops with updatedAt := some now } : UrlOps).toUpdate = some _ :=
            updateManyUnique_of_key s.urls _ ⟨_, hkey.key_toUpdate⟩
          have hwritten : (update env edge i request ownerId clientIp now s).1 = _ ∧ _ :=
            update_written hload hbuild hops hwrite
          rw [hwritten.1, hwritten.2, docs_updateManyUnique hwrite]
          refine ⟨by simp [hops], ?_⟩
          unfold updateEffect
          rw [rewrite_some]
          refine List.map_congr_left fun d hd => ?_
          by_cases hid : d.id = i
          · cases hrow.symm.trans (lookup_eq_some_iff.2 ⟨hd, hid⟩)
            rw [applyWhere_of_matches _ (by simp [hid])]
            simp [Document.id, hid, hlive, hbuild, hops]
          · simp [applyWhere, Document.id, hid]
  exact ⟨fun i s => (hcall i s).2, fun i s => (hcall i s).1⟩

end

/-! ## The expiry of one link -/

section

variable {env : UpdateEnv} {ownerId : ObjectId} {clientIp : Option String} {now : Int}
  {expireAfter : Option Int} {row : UrlRow}

/-- A request for an expiry alone. -/
def expiryRequest (expireAfter : Option Int) : UpdateUrlRequest := { expireAfter := some expireAfter }

/-- The link starts at the requested expiry or later. -/
def StartsLate (expireAfter : Option Int) (row : UrlRow) : Prop :=
  ∃ value ∈ expireAfter, ∃ startsAt ∈ row.startsAt, value ≤ startsAt.ms * 1000

instance (expireAfter : Option Int) (row : UrlRow) : Decidable (StartsLate expireAfter row) :=
  inferInstanceAs (Decidable (∃ value ∈ expireAfter, ∃ startsAt ∈ row.startsAt,
    value ≤ startsAt.ms * 1000))

/-- The other handlers have nothing to do for it. -/
theorem buildOps_expiryRequest (existing : UrlV2Doc) :
    buildOps env now (expiryRequest expireAfter) clientIp existing = (do
      let ops ← handleExpireAfter env now (expiryRequest expireAfter) existing {}
      if ops.startsAt.isSome ∨ ops.expireAfter.isSome then
        checkStartBeforeExpiry (mergedInstant ops.startsAt existing.startsAt)
          (mergedInstant ops.expireAfter existing.expireAfter)
      .ok (((ops.restamp env.lib existing).stampMetaIp clientIp).autoReactivate existing now)) := by
  have hothers : fieldHandlers.foldlM (fun ops handler =>
      handler env now (expiryRequest expireAfter) existing ops) ({} : UrlOps) =
        handleExpireAfter env now (expiryRequest expireAfter) existing {} >>= fun ops => .ok ops := rfl
  unfold buildOps
  rw [hothers]
  cases handleExpireAfter env now (expiryRequest expireAfter) existing {} <;> rfl

theorem buildOps_expiry_past {value : Int} (hpast : value ≤ now) (existing : UrlV2Doc) :
    buildOps env now (expiryRequest (some value)) clientIp existing =
      .error ⟨.validation, "expire_after must be in the future", some "expire_after"⟩ := by
  rw [buildOps_expiryRequest]
  simp [handleExpireAfter, expiryRequest, hpast, validationError, bind, Except.bind]

/-- A new expiry brings an EXPIRED link back. -/
theorem autoReactivate_expiry (hfuture : ∀ value ∈ expireAfter, now < value) (existing : UrlV2Doc) :
    ((({ expireAfter := some expireAfter } : UrlOps).restamp env.lib existing).stampMetaIp
        clientIp).autoReactivate existing now =
      { expireAfter := some expireAfter
        status := if existing.status = .expired then some .active else none } := by
  have himproves : ({ expireAfter := some expireAfter } : UrlOps).improvesExpiry existing now = true := by
    cases expireAfter with
    | none => rfl
    | some value => simp [UrlOps.improvesExpiry, hfuture value rfl]
  have hstamped : ((({ expireAfter := some expireAfter } : UrlOps).restamp env.lib existing).stampMetaIp
      clientIp) = { expireAfter := some expireAfter } := rfl
  rw [hstamped, UrlOps.autoReactivate, himproves]
  by_cases hexpired : existing.status = .expired <;> simp [hexpired]

/-- What an update of the expiry writes. -/
theorem buildOps_expiry (hfuture : ∀ value ∈ expireAfter, now < value) :
    buildOps env now (expiryRequest expireAfter) clientIp (.fromMongo row) =
      if BulkUrlService.expiryDiffers expireAfter (.fromMongo row) then
        if StartsLate expireAfter row then
          .error ⟨.validation, "starts_at must be before expire_after", some "starts_at"⟩
        else .ok { expireAfter := some expireAfter
                   status := if row.status = .expired then some .active else none }
      else .ok {} := by
  rw [buildOps_expiryRequest]
  have hstatus : (UrlV2Doc.fromMongo row).status = row.status := rfl
  cases expireAfter with
  | none =>
    have hnever : ¬StartsLate none row := by
      rintro ⟨value, hvalue, -⟩
      cases hvalue
    by_cases hset : (UrlV2Doc.fromMongo row).expireAfter.isSome = true
    · have hhandled : handleExpireAfter env now (expiryRequest none) (.fromMongo row) {} =
          .ok { expireAfter := some none } := by
        simp [handleExpireAfter, expiryRequest, hset]
      have hchecked (startsAt : Option Datetime) : checkStartBeforeExpiry startsAt none = .ok () := by
        cases startsAt <;> rfl
      rw [hhandled, BulkUrlService.expiryDiffers, if_pos hset, if_neg hnever, ← hstatus,
        ← @autoReactivate_expiry env clientIp now none hfuture]
      simp [bind, Except.bind, mergedInstant, hchecked]
    · have hhandled : handleExpireAfter env now (expiryRequest none) (.fromMongo row) {} = .ok {} := by
        simp [handleExpireAfter, expiryRequest, hset]
      have hnothing : ((({} : UrlOps).restamp env.lib (.fromMongo row)).stampMetaIp
          clientIp).autoReactivate (.fromMongo row) now = {} := by
        simp [UrlOps.restamp, UrlOps.changesDestination, UrlOps.stampMetaIp, UrlOps.autoReactivate,
          UrlOps.improvesExpiry]
      rw [hhandled, BulkUrlService.expiryDiffers, if_neg hset]
      exact congrArg Except.ok hnothing
  | some value =>
    have hlt : ¬value ≤ now := Int.not_le.2 (hfuture value rfl)
    -- A stored date is naive, so it never equals the one of a request.
    have hdiffers : (UrlV2Doc.fromMongo row).expireAfter ≠ some (.aware value) := by
      cases hstored : row.expireAfter <;> simp [UrlV2Doc.fromMongo, hstored, BsonDate.decode]
    have hhandled : handleExpireAfter env now (expiryRequest (some value)) (.fromMongo row) {} =
        .ok { expireAfter := some (some value) } := by
      simp [handleExpireAfter, expiryRequest, hlt, hdiffers]
    rw [hhandled, BulkUrlService.expiryDiffers, if_pos (decide_eq_true hdiffers), ← hstatus,
      ← @autoReactivate_expiry env clientIp now (some value) hfuture]
    have hstored : (UrlV2Doc.fromMongo row).startsAt = row.startsAt.map BsonDate.decode := rfl
    cases hstart : row.startsAt with
    | none =>
      have hnever : ¬StartsLate (some value) row := by
        rintro ⟨_, -, startsAt, hs, -⟩
        cases hstart.symm.trans hs
      simp [if_neg hnever, bind, Except.bind, mergedInstant, hstored, hstart, checkStartBeforeExpiry]
    | some startsAt =>
      have hlate : StartsLate (some value) row ↔ value ≤ startsAt.ms * 1000 := by
        simp [StartsLate, hstart]
      by_cases hle : value ≤ startsAt.ms * 1000
      · simp [if_pos (hlate.2 hle), bind, Except.bind, mergedInstant, hstored, hstart,
          checkStartBeforeExpiry, asAwareUtc, BsonDate.decode, hle, validationError]
      · simp [if_neg (hle ∘ hlate.1), bind, Except.bind, mergedInstant, hstored, hstart,
          checkStartBeforeExpiry, asAwareUtc, BsonDate.decode, hle]

theorem keepsKey_expiry {ops : UrlOps}
    (h : buildOps env now (expiryRequest expireAfter) clientIp (.fromMongo row) = .ok ops) :
    KeepsKey ops := by
  by_cases hfuture : ∀ value ∈ expireAfter, now < value
  · rw [buildOps_expiry hfuture] at h
    split at h
    · split at h
      · cases h
      · cases h
        exact ⟨rfl, rfl⟩
    · cases h
      exact ⟨rfl, rfl⟩
  · push Not at hfuture
    obtain ⟨value, rfl, hpast⟩ := hfuture
    rw [buildOps_expiry_past hpast] at h
    cases h

/-- An update of the expiry leaves a link alone that starts too late, and does to the others what the
bulk call does. -/
theorem updateEffect_expiry (hfuture : ∀ value ∈ expireAfter, now < value) :
    updateEffect env (expiryRequest expireAfter) ownerId clientIp now row =
      if StartsLate expireAfter row then some row
      else BulkUrlService.expiryEffect expireAfter ownerId now row := by
  unfold updateEffect BulkUrlService.expiryEffect
  rw [buildOps_expiry hfuture]
  by_cases hlate : StartsLate expireAfter row
  · rw [if_pos hlate, if_pos hlate]
    by_cases hdiffers : BulkUrlService.expiryDiffers expireAfter (.fromMongo row) = true <;>
      simp [hdiffers]
  · rw [if_neg hlate, if_neg hlate]
    by_cases hdiffers : BulkUrlService.expiryDiffers expireAfter (.fromMongo row) = true
    · by_cases hexpired : row.status = .expired
      · simp [hdiffers, hexpired, BulkUrlService.reactOps, BulkUrlService.plainOps]
      · simp [hdiffers, hexpired, BulkUrlService.plainOps]
    · simp [hdiffers]

theorem isDone_updateOutcome_expiry (hfuture : ∀ value ∈ expireAfter, now < value)
    (found : Option UrlRow) :
    (ItemVerdict.ofOutcome
        (updateOutcome env (expiryRequest expireAfter) ownerId clientIp now found)).isDone =
      found.any fun row => isLive ownerId row && decide (¬StartsLate expireAfter row) := by
  unfold updateOutcome
  cases found with
  | none => rfl
  | some row =>
    rw [Option.map_some, Option.any_some]
    by_cases hlive : isLive ownerId row = true
    · rw [loadOwned_of_isLive hlive]
      dsimp only
      rw [buildOps_expiry hfuture]
      by_cases hlate : StartsLate expireAfter row
      · have hdiffers : BulkUrlService.expiryDiffers expireAfter (.fromMongo row) = true := by
          obtain ⟨value, rfl, -⟩ := hlate
          cases hstored : row.expireAfter <;>
            simp [BulkUrlService.expiryDiffers, UrlV2Doc.fromMongo, hstored, BsonDate.decode]
        simp [hdiffers, hlate, ItemVerdict.ofOutcome, ItemVerdict.isDone]
      · by_cases hdiffers : BulkUrlService.expiryDiffers expireAfter (.fromMongo row) = true <;>
          simp [hdiffers, hlate, hlive, ItemVerdict.ofOutcome, ItemVerdict.isDone]
    · obtain ⟨e, hrefused⟩ : ∃ e, loadOwned (some (.fromMongo row)) ownerId
          "Cannot modify a blocked URL" = .error e := loadOwned_of_not_isLive (by simpa using hlive)
      simp [hrefused, hlive, ItemVerdict.ofOutcome, ItemVerdict.isDone]

/-- An expiry that is past is refused for every link. -/
theorem isDone_updateOutcome_past {value : Int} (hpast : value ≤ now) (found : Option UrlRow) :
    (ItemVerdict.ofOutcome
      (updateOutcome env (expiryRequest (some value)) ownerId clientIp now found)).isDone = false := by
  unfold updateOutcome
  cases loadOwned (found.map .fromMongo) ownerId "Cannot modify a blocked URL" with
  | error e => rfl
  | ok existing =>
    dsimp only
    rw [buildOps_expiry_past hpast]
    rfl

theorem updateEffect_expiry_past {value : Int} (hpast : value ≤ now) :
    updateEffect env (expiryRequest (some value)) ownerId clientIp now row = some row := by
  unfold updateEffect
  rw [buildOps_expiry_past hpast, ite_self]

end

end UrlService

/-! ## bulk_set_expiry -/

section

variable {edge : EdgeConfig} {ids : List ObjectId} {ownerId : ObjectId} {now : Int} {s : Stores}

theorem BulkUrlService.isDone_itemRow {message : String} {i : ObjectId} :
    (ItemVerdict.ofRow (itemRow BulkBatch.okRow message i (ownedDoc s.urls ownerId i))).isDone =
      (s.urls.lookup i).any (isLive ownerId) := by
  unfold ownedDoc
  cases s.urls.lookup i with
  | none => rfl
  | some row =>
    by_cases howner : row.ownerId = ownerId
    · by_cases hblocked : row.status = .blocked <;>
        simp [itemRow, isLive, Option.filter_some, howner, hblocked, UrlV2Doc.fromMongo,
          ItemVerdict.ofRow, ItemVerdict.isDone, BulkBatch.refusedRow, BulkBatch.okRow]
    · simp [itemRow, isLive, Option.filter_some, howner, ItemVerdict.ofRow, ItemVerdict.isDone,
        BulkBatch.refusedRow]

end

/-- A bulk expiry change leaves the links, and succeeds and fails for each, as the updates of the
distinct ids do in turn, exactly if none of the links that it changes starts at a new expiry or
later. -/
theorem bulk_expiry_parity_iff (env : UpdateEnv) (edge : EdgeConfig) (ids : List ObjectId)
    (expireAfter : Option Int) (ownerId : ObjectId) (clientIp : Option String) (now : Int) (s : Stores) :
    ((BulkUrlService.bulkSetExpiry edge ids expireAfter ownerId now s).2.urls.docs =
        (inTurn (fun i s => UrlService.update env edge i (UrlService.expiryRequest expireAfter) ownerId
          clientIp now s) ids.eraseDups s).2.urls.docs ∧
      (ItemVerdict.ofBulk ids
          (BulkUrlService.bulkSetExpiry edge ids expireAfter ownerId now s).1).map ItemVerdict.isDone =
        (ItemVerdict.ofSingles (fun i s => UrlService.update env edge i
          (UrlService.expiryRequest expireAfter) ownerId clientIp now s) ids s).map ItemVerdict.isDone) ↔
      ∀ value ∈ expireAfter, now < value → ∀ row ∈ s.urls.docs, row.id ∈ ids →
        BulkUrlService.isLive ownerId row = true → ∀ startsAt ∈ row.startsAt,
          startsAt.ms * 1000 < value := by
  have hitem : Item Stores.urls (fun i s => UrlService.update env edge i
      (UrlService.expiryRequest expireAfter) ownerId clientIp now s) _ _ :=
    UrlService.item_update fun row ops h => UrlService.keepsKey_expiry h
  have hdocs := docs_inTurn hitem UrlService.id_updateEffect (nodup_eraseDups ids) s
  have hverdicts := verdicts_inTurn hitem UrlService.id_updateEffect (nodup_eraseDups ids) s
  unfold ItemVerdict.ofSingles
  rw [hdocs, hverdicts]
  by_cases hfuture : ∀ value ∈ expireAfter, now < value
  · have hbulk : (BulkUrlService.bulkSetExpiry edge ids expireAfter ownerId now s).1 = _ ∧ _ :=
      BulkUrlService.bulkSetExpiry_eq hfuture
    obtain ⟨hreport, hwritten⟩ := hbulk
    rw [hreport, hwritten, ItemVerdict.ofBulk_itemReport]
    simp only [List.map_map, Function.comp_def, List.map_inj_left, BulkUrlService.isDone_itemRow,
      UrlService.isDone_updateOutcome_expiry hfuture, List.mem_eraseDups]
    constructor
    · rintro ⟨-, hsame⟩ value hvalue - row hrow hi hlive startsAt hs
      have hfound : s.urls.lookup row.id = some row := lookup_eq_some_iff.2 ⟨hrow, rfl⟩
      have hdone := hsame row.id hi
      rw [hfound, Option.any_some, Option.any_some, hlive, Bool.true_and, eq_comm,
        decide_eq_true_eq] at hdone
      exact Int.not_le.1 fun hle => hdone ⟨value, hvalue, startsAt, hs, hle⟩
    · intro hearly
      have hnever (row : UrlRow) (hrow : row ∈ s.urls.docs) (hi : row.id ∈ ids)
          (hlive : BulkUrlService.isLive ownerId row = true) :
          ¬UrlService.StartsLate expireAfter row := by
        rintro ⟨value, hvalue, startsAt, hs, hle⟩
        have hlt := hearly value hvalue (hfuture value hvalue) row hrow hi hlive startsAt hs
        omega
      constructor
      · refine rewrite_congr fun row hrow hi => ?_
        rw [UrlService.updateEffect_expiry hfuture]
        by_cases hlive : BulkUrlService.isLive ownerId row = true
        · have hmem : row.id ∈ ids := of_decide_eq_true hi
          rw [if_neg (hnever row hrow hmem hlive)]
        · simp [BulkUrlService.expiryEffect, hlive]
      · intro i hi
        cases hfound : s.urls.lookup i with
        | none => rfl
        | some row =>
          obtain ⟨hrow, rfl⟩ := lookup_eq_some_iff.1 hfound
          rw [Option.any_some, Option.any_some]
          by_cases hlive : BulkUrlService.isLive ownerId row = true
          · simp [hnever row hrow hi hlive]
          · simp [hlive]
  · push Not at hfuture
    obtain ⟨value, rfl, hpast⟩ := hfuture
    have hbulk : (BulkUrlService.bulkSetExpiry edge ids (some value) ownerId now s).1 = _ ∧ _ :=
      BulkUrlService.bulkSetExpiry_past hpast
    obtain ⟨hreport, hwritten⟩ := hbulk
    refine iff_of_true ⟨?_, ?_⟩ ?_
    · rw [hwritten, rewrite_eq_self fun row _ _ => UrlService.updateEffect_expiry_past hpast]
    · rw [hreport]
      simp only [ItemVerdict.ofBulk, List.map_map, Function.comp_def,
        UrlService.isDone_updateOutcome_past hpast]
      rfl
    · rintro _ ⟨⟩ hlt
      omega

/-- A link that starts at 5 s. -/
def scheduledLink : Stores :=
  (UrlService.create openCreateEnv plainEdge scheduledRequest (some 7) "192.0.2.1" none 0 noLinks).2

/-- An expiry of 2 s, which the update refuses. -/
theorem bulk_expiry_parity_scheduledLink :
    ItemVerdict.ofSingles (fun i s => UrlService.update openEnv plainEdge i
        (UrlService.expiryRequest (some 2000000)) 7 none 1 s) [1] scheduledLink =
      [.refused "validation_error" "starts_at must be before expire_after"] ∧
    ItemVerdict.ofBulk [1]
      (BulkUrlService.bulkSetExpiry plainEdge [1] (some 2000000) 7 1 scheduledLink).1 = [.done] ∧
    (BulkUrlService.bulkSetExpiry plainEdge [1] (some 2000000) 7 1 scheduledLink).2.urls.docs ≠
      (inTurn (fun i s => UrlService.update openEnv plainEdge i
        (UrlService.expiryRequest (some 2000000)) 7 none 1 s) [1] scheduledLink).2.urls.docs := by
  decide +kernel

/-! ## bulk_delete and bulk_set_status -/

namespace UrlService

open BulkUrlService (isLive KeepsKey deleteEffect statusEffect)

section

variable {env : UpdateEnv} {edge : EdgeConfig} {ownerId : ObjectId} {clientIp : Option String}
  {now : Int} {status : OwnerStatus}

/-- What a method answers that does its work on every link of the owner that is not BLOCKED. -/
def ownedVerdict (message : String) (ownerId : ObjectId) (found : Option UrlRow) : ItemVerdict :=
  match loadOwned (found.map .fromMongo) ownerId message with
  | .error e => .refused e.kind.errorCode e.message
  | .ok _ => .done

/-- What a deletion returns or raises, by the link that it finds. -/
def deleteOutcome (ownerId : ObjectId) (found : Option UrlRow) : Option (Except Raised UrlV2Doc) :=
  match loadOwned (found.map .fromMongo) ownerId "Cannot delete a blocked URL" with
  | .error e => some (.error (.app e))
  | .ok existing => some (.ok existing)

theorem ofOutcome_deleteOutcome (found : Option UrlRow) :
    ItemVerdict.ofOutcome (deleteOutcome ownerId found) =
      ownedVerdict "Cannot delete a blocked URL" ownerId found := by
  unfold deleteOutcome ownedVerdict
  cases loadOwned (found.map .fromMongo) ownerId "Cannot delete a blocked URL" <;> rfl

theorem id_deleteEffect (row row' : UrlRow) (h : deleteEffect ownerId row = some row') :
    row'.id = row.id := by
  unfold deleteEffect at h
  split at h
  · cases h
  · cases h
    rfl

/-- A deletion is a call for one link. -/
theorem item_delete : Item Stores.urls (fun i s => delete edge i ownerId s) (deleteEffect ownerId)
    (fun _ found => deleteOutcome ownerId found) := by
  have hcall (i : ObjectId) (s : Stores) :
      (delete edge i ownerId s).1 = deleteOutcome ownerId (s.urls.lookup i) ∧
        (delete edge i ownerId s).2.urls.docs =
          rewrite (· = i) (deleteEffect ownerId) s.urls.docs := by
    unfold deleteOutcome
    rw [← UrlRepository.findById_eq]
    cases hload : loadOwned (UrlRepository.findById s.urls i) ownerId "Cannot delete a blocked URL" with
    | error e =>
      have hdelete : delete edge i ownerId s = (some (.error (.app e)), s) := by
        simp only [delete, deleteCalls, runActions_cons, runActions_nil, readForDelete, hload,
          writeDelete, invalidateKeys, dropEdge, onPending]
      rw [hdelete]
      refine ⟨rfl, (docs_of_lookup fun row hrow => ?_).symm⟩
      rw [UrlRepository.findById_eq, Option.mem_def.1 hrow] at hload
      simp [deleteEffect, not_isLive_of_loadOwned hload]
    | ok existing =>
      obtain ⟨row, hrow, rfl, howner, hstatus⟩ := loadOwned_ok hload
      have hlive : isLive ownerId row = true := by simp [isLive, howner, hstatus]
      have hurls : (delete edge i ownerId s).2.urls = UrlRepository.delete s.urls i := by
        simp only [delete, deleteCalls, runActions_cons, runActions_nil, readForDelete, hload,
          writeDelete, dropEdge, onPending, vars_invalidateKeys, apply_ite Stores.urls,
          urls_invalidateKeys, ite_self]
      have houtcome : (delete edge i ownerId s).1 = some (.ok (.fromMongo row)) := by
        simp only [delete, deleteCalls, runActions_cons, runActions_nil, readForDelete, hload,
          writeDelete, dropEdge, onPending, vars_invalidateKeys]
      refine ⟨houtcome, ?_⟩
      unfold deleteEffect
      rw [hurls, rewrite_removed]
      refine List.filter_congr fun d hd => congrArg (!·) ?_
      by_cases hid : d.id = i
      · cases hrow.symm.trans (lookup_eq_some_iff.2 ⟨hd, hid⟩)
        simp [Document.id, hid, hlive]
      · simp [Document.id, hid]
  exact ⟨fun i s => (hcall i s).2, fun i s => (hcall i s).1⟩

/-- A request for a status alone. -/
def statusRequest (status : OwnerStatus) : UpdateUrlRequest := { status := some status }

/-- What an update of the status writes. -/
theorem buildOps_status (existing : UrlV2Doc) :
    buildOps env now (statusRequest status) clientIp existing =
      .ok (if status.toUrlStatus ≠ existing.status then { status := some status.toUrlStatus } else {}) := by
  have hothers : fieldHandlers.foldlM (fun ops handler =>
      handler env now (statusRequest status) existing ops) ({} : UrlOps) =
        handleStatus env now (statusRequest status) existing {} >>= fun ops => .ok ops := rfl
  unfold buildOps
  rw [hothers]
  by_cases hsame : status.toUrlStatus = existing.status <;>
    simp [handleStatus, statusRequest, hsame, bind, Except.bind, UrlOps.restamp,
      UrlOps.changesDestination, UrlOps.stampMetaIp, UrlOps.autoReactivate, UrlOps.improvesExpiry]

theorem keepsKey_status {existing : UrlV2Doc} {ops : UrlOps}
    (h : buildOps env now (statusRequest status) clientIp existing = .ok ops) : KeepsKey ops := by
  rw [buildOps_status] at h
  cases h
  split <;> exact ⟨rfl, rfl⟩

theorem updateEffect_status : updateEffect env (statusRequest status) ownerId clientIp now =
    statusEffect status ownerId now := by
  funext row
  unfold updateEffect statusEffect
  rw [buildOps_status]
  have hstored : (UrlV2Doc.fromMongo row).status = row.status := rfl
  by_cases hsame : row.status = status.toUrlStatus
  · simp [hstored, hsame]
  · have hne : ¬status.toUrlStatus = row.status := fun h => hsame h.symm
    simp [hstored, hsame, hne, BulkUrlService.statusOps]

theorem ofOutcome_updateOutcome_status (found : Option UrlRow) :
    ItemVerdict.ofOutcome (updateOutcome env (statusRequest status) ownerId clientIp now found) =
      ownedVerdict "Cannot modify a blocked URL" ownerId found := by
  unfold updateOutcome ownedVerdict
  cases loadOwned (found.map .fromMongo) ownerId "Cannot modify a blocked URL" with
  | error e => rfl
  | ok existing =>
    dsimp only
    rw [buildOps_status]
    rfl

end

end UrlService

/-- The link with the id belongs to someone else. -/
def IsForeign (urls : UrlStore) (ownerId i : ObjectId) : Prop :=
  ∃ row ∈ urls.lookup i, row.ownerId ≠ ownerId

instance (urls : UrlStore) (ownerId i : ObjectId) : Decidable (IsForeign urls ownerId i) :=
  inferInstanceAs (Decidable (∃ row ∈ urls.lookup i, row.ownerId ≠ ownerId))

namespace ItemVerdict

/-- The answer for a link that is not there. -/
def missing : ItemVerdict := .refused "not_found" "URL not found"

/-- The answer of a method for one link that belongs to someone else. -/
def denied : ItemVerdict := .refused "forbidden" "Access denied: you do not own this URL"

end ItemVerdict

/-- What a bulk call answers for a link, against the method for one link: the same, but a link of someone
else is reported as missing where the method denies access. -/
def Mirrors (urls : UrlStore) (ownerId i : ObjectId) (answer verdict : ItemVerdict) : Prop :=
  if IsForeign urls ownerId i then answer = .missing ∧ verdict = .denied else answer = verdict

/-- A bulk call against the calls for its distinct ids in turn: the same links, and answers that mirror
theirs. -/
def AgreesInTurn (ids : List ObjectId) (ownerId : ObjectId) (s : Stores)
    (bulk : Except AppError (Option BulkUrlOperationResponse) × Stores)
    (single : ObjectId → Stores → Option (Except Raised UrlV2Doc) × Stores) : Prop :=
  bulk.2.urls.docs = (inTurn single ids.eraseDups s).2.urls.docs ∧
    ∃ answer verdict : ObjectId → ItemVerdict,
      ItemVerdict.ofBulk ids bulk.1 = ids.eraseDups.map answer ∧
      ItemVerdict.ofSingles single ids s = ids.eraseDups.map verdict ∧
      ∀ i ∈ ids, Mirrors s.urls ownerId i (answer i) (verdict i)

theorem UrlService.ownedVerdict_of_isForeign {urls : UrlStore} {ownerId i : ObjectId} {message : String}
    (h : IsForeign urls ownerId i) : ownedVerdict message ownerId (urls.lookup i) = .denied := by
  obtain ⟨row, hrow, howner⟩ := h
  rw [Option.mem_def.1 hrow]
  simp [ownedVerdict, loadOwned, UrlV2Doc.fromMongo, howner, ErrorKind.errorCode, ItemVerdict.denied]

/-- The row of a link, where a bulk call does its work on all it may change. -/
theorem BulkUrlService.mirrors_itemRow {urls : UrlStore} {ownerId i : ObjectId} {message : String} :
    Mirrors urls ownerId i
      (ItemVerdict.ofRow (itemRow BulkBatch.okRow message i (ownedDoc urls ownerId i)))
      (UrlService.ownedVerdict message ownerId (urls.lookup i)) := by
  unfold Mirrors
  split
  · rename_i hforeign
    refine ⟨?_, UrlService.ownedVerdict_of_isForeign hforeign⟩
    obtain ⟨row, hrow, howner⟩ := hforeign
    rw [ownedDoc, Option.mem_def.1 hrow]
    simp [itemRow, Option.filter_some, howner, ItemVerdict.ofRow, ItemVerdict.missing,
      BulkBatch.refusedRow]
  · rename_i hforeign
    unfold ownedDoc UrlService.ownedVerdict
    cases hfound : urls.lookup i with
    | none => simp [itemRow, loadOwned, BulkBatch.refusedRow, ItemVerdict.ofRow, ErrorKind.errorCode]
    | some row =>
      have howner : row.ownerId = ownerId := by
        by_contra hother
        exact hforeign ⟨row, hfound, hother⟩
      by_cases hblocked : row.status = .blocked <;>
        simp [itemRow, loadOwned, Option.filter_some, howner, hblocked, UrlV2Doc.fromMongo,
          ItemVerdict.ofRow, BulkBatch.refusedRow, BulkBatch.okRow, ErrorKind.errorCode]

section

variable {env : UpdateEnv} {edge : EdgeConfig} {ids : List ObjectId} {ownerId : ObjectId}
  {clientIp : Option String} {now : Int} {s : Stores}

/-- Where a bulk call and the calls for single links do the same to a link and answer by what they find. -/
theorem agreesInTurn_of_item {bulk : Except AppError (Option BulkUrlOperationResponse) × Stores}
    {single : ObjectId → Stores → Option (Except Raised UrlV2Doc) × Stores}
    {effect : UrlRow → Option UrlRow} {outcome : Option UrlRow → Option (Except Raised UrlV2Doc)}
    {message : String} (hitem : Item Stores.urls single effect fun _ found => outcome found)
    (hid : ∀ row row', effect row = some row' → row'.id = row.id)
    (houtcome : ∀ found, ItemVerdict.ofOutcome (outcome found) =
      UrlService.ownedVerdict message ownerId found)
    (hbulk : bulk.1 = .ok (some
        (BulkUrlService.itemReport BulkBatch.okRow message s.urls ids ownerId)) ∧
      bulk.2.urls.docs = rewrite (· ∈ ids) effect s.urls.docs) :
    AgreesInTurn ids ownerId s bulk single := by
  obtain ⟨hreport, hwritten⟩ := hbulk
  refine ⟨?_, _, fun i => UrlService.ownedVerdict message ownerId (s.urls.lookup i), ?_, ?_,
    fun i _ => BulkUrlService.mirrors_itemRow⟩
  · rw [hwritten, docs_inTurn hitem hid (nodup_eraseDups ids)]
    simp only [List.mem_eraseDups]
  · rw [hreport, ItemVerdict.ofBulk_itemReport]
  · rw [ItemVerdict.ofSingles, verdicts_inTurn hitem hid (nodup_eraseDups ids), List.map_map]
    exact List.map_congr_left fun i _ => houtcome _

theorem bulkDelete_agreesInTurn : AgreesInTurn ids ownerId s
    (BulkUrlService.bulkDelete edge ids ownerId now s) (fun i s => UrlService.delete edge i ownerId s) :=
  agreesInTurn_of_item UrlService.item_delete UrlService.id_deleteEffect
    UrlService.ofOutcome_deleteOutcome BulkUrlService.bulkDelete_eq

theorem bulkSetStatus_agreesInTurn {status : OwnerStatus} : AgreesInTurn ids ownerId s
    (BulkUrlService.bulkSetStatus edge ids status ownerId now s)
    (fun i s => UrlService.update env edge i (UrlService.statusRequest status) ownerId clientIp now s) := by
  refine agreesInTurn_of_item
    (UrlService.item_update fun row ops h => UrlService.keepsKey_status h)
    UrlService.id_updateEffect UrlService.ofOutcome_updateOutcome_status ?_
  rw [UrlService.updateEffect_status]
  exact BulkUrlService.bulkSetStatus_eq status

end

end Spoo
