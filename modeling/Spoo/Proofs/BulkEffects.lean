import Spoo.Lib.Itemwise
import Spoo.Proofs.OwnerSteps

/-!
# What a bulk call comes to

The links that a bulk call changes, as one rewrite of the documents, and the row that it reports for each
id. Both are said by the link that has the id, as it was.
-/

namespace Spoo

open Interleave Mongo Mongo.Collection Itemwise

/-! ## Rows -/

namespace BulkBatch

variable {batch : BulkBatch} {i : ObjectId}

/-- The row of a success. -/
def okRow (doc : UrlV2Doc) : BulkUrlResultRow := ⟨toString doc.id, some doc.linkAlias, true, none, none⟩

/-- The row of a refusal. -/
def refusedRow (urlId : ObjectId) (code message : String) (linkAlias : Option String) :
    BulkUrlResultRow :=
  ⟨toString urlId, linkAlias, false, some code, some message⟩

/-- A row for each of several documents. -/
def assignAll (row : UrlV2Doc → BulkUrlResultRow) (batch : BulkBatch) (docs : List UrlV2Doc) :
    BulkBatch :=
  docs.foldl (fun b doc => { b with rows := b.rows.assign doc.id (row doc) }) batch

@[simp] theorem order_assignAll (row : UrlV2Doc → BulkUrlResultRow) (docs : List UrlV2Doc) :
    (batch.assignAll row docs).order = batch.order := by
  induction docs generalizing batch with
  | nil => rfl
  | cons doc docs ih => exact ih

/-- The documents have distinct ids, so that each is reported as it stands. -/
theorem get?_assignAll {row : UrlV2Doc → BulkUrlResultRow} {docs : List UrlV2Doc}
    (hids : (docs.map (·.id)).Nodup) : (batch.assignAll row docs).rows.get? i =
      ((docs.find? (·.id = i)).map row).or (batch.rows.get? i) := by
  induction docs generalizing batch with
  | nil => rfl
  | cons doc docs ih =>
    rw [List.map_cons, List.nodup_cons] at hids
    have hrest := @ih { batch with rows := batch.rows.assign doc.id (row doc) } hids.2
    have hstep : (batch.assignAll row (doc :: docs)).rows.get? i = _ := hrest
    rw [hstep, PyDict.get?_assign]
    by_cases hi : doc.id = i
    · have hnone : docs.find? (·.id = i) = none := by
        rw [List.find?_eq_none]
        intro other hother hsame
        have hid : other.id = doc.id := by simpa [hi] using hsame
        exact hids.1 (hid ▸ List.mem_map_of_mem hother)
      simp [hi, hnone]
    · simp [hi]

/-- The response over some rows. -/
def reportOf (rows : List BulkUrlResultRow) : BulkUrlOperationResponse :=
  ⟨rows.length, rows.countP (·.ok), rows.length - rows.countP (·.ok), rows⟩

theorem report_eq {row : ObjectId → BulkUrlResultRow}
    (h : ∀ i ∈ batch.order, batch.rows.get? i = some (row i)) :
    batch.report = some (reportOf (batch.order.map row)) := by
  have hrows : ∀ order : List ObjectId, (∀ i ∈ order, batch.rows.get? i = some (row i)) →
      order.mapM batch.rows.get? = some (order.map row) := by
    intro order
    induction order with
    | nil => intro _; rfl
    | cons i order ih =>
      intro hall
      rw [List.forall_mem_cons] at hall
      simp [List.mapM_cons, hall.1, ih hall.2]
  rw [report, hrows batch.order h]
  rfl

/-- A batch in which every id has a row is reported with them. -/
theorem report_of_rows {ids : List ObjectId} {P : ObjectId → BulkUrlResultRow → Prop}
    (horder : batch.order = ids.eraseDups)
    (h : ∀ i ∈ ids, ∃ answer, batch.rows.get? i = some answer ∧ P i answer) :
    ∃ row : ObjectId → BulkUrlResultRow,
      batch.report = some (reportOf (ids.eraseDups.map row)) ∧ ∀ i ∈ ids, P i (row i) := by
  have : Nonempty BulkUrlResultRow := ⟨refusedRow 0 "" "" none⟩
  choose! row hrow hall using h
  refine ⟨row, ?_, hall⟩
  rw [← horder]
  exact report_eq fun i hi => hrow i (List.mem_eraseDups.1 (horder ▸ hi))

end BulkBatch

namespace BulkUrlService

open BulkBatch

variable {urls : UrlStore} {ids : List ObjectId} {ownerId : ObjectId} {message : String} {i : ObjectId}

/-- A link that a call of the owner may change. -/
def isLive (ownerId : ObjectId) (row : UrlRow) : Bool := row.ownerId = ownerId && row.status ≠ .blocked

/-- The link with an id, when a call of the owner may change it. -/
def liveDoc (urls : UrlStore) (ownerId i : ObjectId) : Option UrlV2Doc :=
  ((urls.lookup i).filter (isLive ownerId)).map .fromMongo

/-- What `_load` reports of an id. -/
def loadRow (message : String) (i : ObjectId) (found : Option UrlV2Doc) : Option BulkUrlResultRow :=
  match found with
  | none => some (refusedRow i "not_found" "URL not found" none)
  | some doc =>
    if doc.status = .blocked then some (refusedRow i "forbidden" message (some doc.linkAlias)) else none

theorem get?_foldl_loadVerdict (order : List ObjectId) (batch : BulkBatch) :
    (order.foldl (loadVerdict message) batch).rows.get? i =
      (if i ∈ order then loadRow message i (batch.doc? i) else none).or (batch.rows.get? i) := by
  induction order generalizing batch with
  | nil => simp
  | cons urlId order ih =>
    have hdoc : (loadVerdict message batch urlId).doc? i = batch.doc? i := by
      unfold loadVerdict
      split
      · rfl
      · split <;> rfl
    have hone : (loadVerdict message batch urlId).rows.get? i =
        (if i = urlId then loadRow message i (batch.doc? i) else none).or (batch.rows.get? i) := by
      by_cases hi : i = urlId
      · subst hi
        cases hfound : batch.doc? i with
        | none => simp [loadVerdict, loadRow, hfound, reject, PyDict.get?_assign, refusedRow]
        | some doc =>
          by_cases hblocked : doc.status = .blocked
          · simp [loadVerdict, loadRow, hfound, hblocked, reject, PyDict.get?_assign, refusedRow]
          · simp [loadVerdict, loadRow, hfound, hblocked]
      · have hne : ¬ urlId = i := fun h => hi h.symm
        unfold loadVerdict
        split
        · rw [if_neg hi]
          simp [reject, PyDict.get?_assign, hne]
        · rw [if_neg hi]
          split
          · simp [reject, PyDict.get?_assign, hne]
          · rfl
    rw [List.foldl_cons, ih, hone, hdoc, ← Option.or_assoc]
    congr 1
    by_cases hi : i = urlId
    · subst hi
      by_cases horder : i ∈ order <;> simp [horder]
    · simp [hi]

theorem doc?_load_eq (hi : i ∈ ids) : (load urls ids ownerId message).doc? i =
    ((urls.lookup i).filter (·.ownerId = ownerId)).map .fromMongo := by
  ext doc
  rw [doc?_load hi]
  simp only [Option.map_eq_some_iff, Option.filter_eq_some_iff, decide_eq_true_eq]
  constructor
  · rintro ⟨row, hrow, howner, rfl⟩
    exact ⟨row, ⟨hrow, howner⟩, rfl⟩
  · rintro ⟨row, ⟨hrow, howner⟩, rfl⟩
    exact ⟨row, hrow, howner, rfl⟩

/-- `_load` reports the ids that it refuses. -/
theorem get?_load (hi : i ∈ ids) : (load urls ids ownerId message).rows.get? i =
    loadRow message i (((urls.lookup i).filter (·.ownerId = ownerId)).map .fromMongo) := by
  have hdocs : ((load urls ids ownerId message).doc? i) =
      (BulkBatch.doc? { docs := UrlRepository.findByIdsAndOwner urls ids.eraseDups ownerId } i) := by
    rw [doc?, doc?, load_spec.2.1]
  rw [← @doc?_load_eq _ _ _ message _ hi, hdocs, load, get?_foldl_loadVerdict]
  simp [hi, doc?, PyDict.get?, PyDict.empty]

/-- `_load` leaves the others to the call, in the order of the request. -/
theorem pending_load_eq : (load urls ids ownerId message).pending =
    ids.eraseDups.filterMap (liveDoc urls ownerId) := by
  rw [pending, load_spec.1]
  refine List.filterMap_congr fun i hi => ?_
  have hmem : i ∈ ids := List.mem_eraseDups.1 hi
  have hkey : i ∈ (load urls ids ownerId message).rows.keys ↔ _ := load_spec.2.2 i hmem
  rw [doc?_load_eq hmem] at hkey ⊢
  unfold liveDoc isLive
  cases hrow : urls.lookup i with
  | none => simp
  | some row =>
    by_cases howner : row.ownerId = ownerId
    · by_cases hblocked : row.status = .blocked
      · have hrefused : i ∈ (load urls ids ownerId message).rows.keys := by
          refine hkey.2 fun doc hdoc => ?_
          simp only [hrow, Option.filter_some, howner, decide_true, if_true, Option.map_some,
            Option.some.injEq] at hdoc
          exact hdoc ▸ hblocked
        simp [hrefused, Option.filter_some, howner, hblocked]
      · have hfree : i ∉ (load urls ids ownerId message).rows.keys := by
          intro hrefused
          refine hblocked (hkey.1 hrefused (.fromMongo row) ?_)
          simp [hrow, howner]
        simp [hfree, Option.filter_some, howner, hblocked]
    · simp [Option.filter_some, howner]

theorem liveDoc_eq_some_iff {doc : UrlV2Doc} : liveDoc urls ownerId i = some doc ↔
    ∃ row, urls.lookup i = some row ∧ isLive ownerId row = true ∧ doc = .fromMongo row := by
  simp only [liveDoc, Option.map_eq_some_iff, Option.filter_eq_some_iff]
  constructor
  · rintro ⟨row, ⟨hrow, hlive⟩, rfl⟩
    exact ⟨row, hrow, hlive, rfl⟩
  · rintro ⟨row, hrow, hlive, rfl⟩
    exact ⟨row, ⟨hrow, hlive⟩, rfl⟩

theorem id_of_liveDoc {doc : UrlV2Doc} (h : liveDoc urls ownerId i = some doc) : doc.id = i := by
  obtain ⟨row, hrow, -, rfl⟩ := liveDoc_eq_some_iff.1 h
  exact (lookup_eq_some_iff.1 hrow).2

theorem mem_pending_load_iff {doc : UrlV2Doc} : doc ∈ (load urls ids ownerId message).pending ↔
    doc.id ∈ ids ∧ liveDoc urls ownerId doc.id = some doc := by
  rw [pending_load_eq, List.mem_filterMap]
  constructor
  · rintro ⟨i, hi, hdoc⟩
    have hid : doc.id = i := id_of_liveDoc hdoc
    exact ⟨hid ▸ List.mem_eraseDups.1 hi, hid ▸ hdoc⟩
  · rintro ⟨hi, hdoc⟩
    exact ⟨doc.id, List.mem_eraseDups.2 hi, hdoc⟩

theorem nodup_pending : ((load urls ids ownerId message).pending.map (·.id)).Nodup := by
  rw [pending_load_eq, List.map_filterMap]
  refine List.Nodup.filterMap ?_ (nodup_eraseDups ids)
  intro i j id hi hj
  obtain ⟨doc, hdoc, rfl⟩ := Option.map_eq_some_iff.1 hi
  obtain ⟨other, hother, hid⟩ := Option.map_eq_some_iff.1 hj
  rw [← id_of_liveDoc hdoc, ← id_of_liveDoc hother, hid]

/-- The documents of a slice, found by id. -/
theorem find?_filter_pending {p : UrlV2Doc → Bool} (hi : i ∈ ids) :
    ((load urls ids ownerId message).pending.filter p).find? (·.id = i) =
      (liveDoc urls ownerId i).filter p := by
  have hfound (doc : UrlV2Doc)
      (h : ((load urls ids ownerId message).pending.filter p).find? (·.id = i) = some doc) :
      liveDoc urls ownerId i = some doc ∧ p doc = true := by
    have hid : doc.id = i := by simpa using List.find?_some h
    obtain ⟨hpending, hp⟩ := List.mem_filter.1 (List.mem_of_find?_eq_some h)
    exact ⟨hid ▸ (mem_pending_load_iff.1 hpending).2, hp⟩
  cases h : ((load urls ids ownerId message).pending.filter p).find? (·.id = i) with
  | some doc =>
    obtain ⟨hdoc, hp⟩ := hfound doc h
    rw [hdoc, Option.filter_some, if_pos hp]
  | none =>
    symm
    rw [Option.filter_eq_none_iff]
    intro doc hdoc hp
    have hid : doc.id = i := id_of_liveDoc hdoc
    have hmem : doc ∈ (load urls ids ownerId message).pending.filter p :=
      List.mem_filter.2 ⟨mem_pending_load_iff.2 ⟨hid ▸ hi, hid ▸ hdoc⟩, hp⟩
    simpa [hid] using List.find?_eq_none.1 h doc hmem

/-- The ids of a slice, asked of a stored link. -/
theorem mem_ids_filter_pending {p : UrlV2Doc → Bool} {row : UrlRow} (hrow : row ∈ urls.docs) :
    row.id ∈ ((load urls ids ownerId message).pending.filter p).map (·.id) ↔
      row.id ∈ ids ∧ isLive ownerId row = true ∧ p (.fromMongo row) = true := by
  have hfound : urls.lookup row.id = some row := lookup_eq_some_iff.2 ⟨hrow, rfl⟩
  rw [List.mem_map]
  simp only [List.mem_filter, mem_pending_load_iff]
  constructor
  · rintro ⟨doc, ⟨⟨hi, hdoc⟩, hp⟩, hid⟩
    rw [hid] at hi hdoc
    obtain ⟨found, hlookup, hlive, rfl⟩ := liveDoc_eq_some_iff.1 hdoc
    rw [hfound, Option.some.injEq] at hlookup
    subst hlookup
    exact ⟨hi, hlive, hp⟩
  · rintro ⟨hi, hlive, hp⟩
    exact ⟨.fromMongo row, ⟨⟨hi, liveDoc_eq_some_iff.2 ⟨row, hfound, hlive, rfl⟩⟩, hp⟩, rfl⟩

/-- The link of the owner with an id. -/
def ownedDoc (urls : UrlStore) (ownerId i : ObjectId) : Option UrlV2Doc :=
  ((urls.lookup i).filter (·.ownerId = ownerId)).map .fromMongo

theorem liveDoc_eq : liveDoc urls ownerId i =
    (ownedDoc urls ownerId i).filter fun doc => decide (doc.status ≠ .blocked) := by
  unfold liveDoc ownedDoc isLive
  cases urls.lookup i with
  | none => rfl
  | some row =>
    by_cases howner : row.ownerId = ownerId <;> by_cases hblocked : row.status = .blocked <;>
      simp [Option.filter_some, howner, hblocked, UrlV2Doc.fromMongo]

/-- The row of an id, by what becomes of the links that `_load` leaves to a call. -/
def itemRow (final : UrlV2Doc → BulkUrlResultRow) (message : String) (i : ObjectId)
    (found : Option UrlV2Doc) : BulkUrlResultRow :=
  match found with
  | none => refusedRow i "not_found" "URL not found" none
  | some doc =>
    if doc.status = .blocked then refusedRow i "forbidden" message (some doc.linkAlias) else final doc

/-- A link that is not left to the call has been refused. -/
theorem loadRow_of_liveDoc (h : liveDoc urls ownerId i = none) : ∃ code text linkAlias,
    loadRow message i (ownedDoc urls ownerId i) = some (refusedRow i code text linkAlias) := by
  rw [liveDoc_eq] at h
  cases hfound : ownedDoc urls ownerId i with
  | none => exact ⟨_, _, _, rfl⟩
  | some doc =>
    have hblocked : doc.status = .blocked := by simpa [hfound, Option.filter_some] using h
    exact ⟨"forbidden", message, some doc.linkAlias, if_pos hblocked⟩

/-- The report over the rows of some ids. -/
def itemReport (final : UrlV2Doc → BulkUrlResultRow) (message : String) (urls : UrlStore)
    (ids : List ObjectId) (ownerId : ObjectId) : BulkUrlOperationResponse :=
  reportOf (ids.eraseDups.map fun i => itemRow final message i (ownedDoc urls ownerId i))

/-- A batch that has been loaded, with what has been reported of the links that were left. -/
structure Judged (urls : UrlStore) (ids : List ObjectId) (ownerId : ObjectId) (message : String)
    (judged : UrlV2Doc → Option BulkUrlResultRow) (batch : BulkBatch) : Prop where
  order : batch.order = ids.eraseDups
  rows : ∀ i ∈ ids, batch.rows.get? i =
    ((liveDoc urls ownerId i).bind judged).or (loadRow message i (ownedDoc urls ownerId i))

theorem judged_load : Judged urls ids ownerId message (fun _ => none) (load urls ids ownerId message) where
  order := load_spec.1
  rows i hi := by
    rw [get?_load hi]
    cases liveDoc urls ownerId i <;> rfl

/-- A slice is reported, and the others keep their rows. -/
theorem Judged.assignAll {judged : UrlV2Doc → Option BulkUrlResultRow} {batch : BulkBatch}
    (h : Judged urls ids ownerId message judged batch) (p : UrlV2Doc → Bool)
    (row : UrlV2Doc → BulkUrlResultRow) :
    Judged urls ids ownerId message (fun doc => if p doc then some (row doc) else judged doc)
      (batch.assignAll row ((load urls ids ownerId message).pending.filter p)) where
  order := by rw [order_assignAll, h.order]
  rows i hi := by
    have hids : (((load urls ids ownerId message).pending.filter p).map (·.id)).Nodup :=
      nodup_pending.sublist (List.filter_sublist.map _)
    rw [get?_assignAll hids, find?_filter_pending hi, h.rows i hi]
    cases liveDoc urls ownerId i with
    | none => rfl
    | some doc => by_cases hp : p doc = true <;> simp [hp, Option.filter_some]

/-- Where every link that was left is reported, the report is complete. -/
theorem Judged.report {judged : UrlV2Doc → Option BulkUrlResultRow} {batch : BulkBatch}
    (h : Judged urls ids ownerId message judged batch) {final : UrlV2Doc → BulkUrlResultRow}
    (hfinal : ∀ doc, judged doc = some (final doc)) :
    batch.report = some (itemReport final message urls ids ownerId) := by
  have hrows : ∀ i ∈ batch.order,
      batch.rows.get? i = some (itemRow final message i (ownedDoc urls ownerId i)) := by
    intro i hi
    rw [h.rows i (List.mem_eraseDups.1 (h.order ▸ hi)), liveDoc_eq]
    cases ownedDoc urls ownerId i with
    | none => rfl
    | some doc =>
      by_cases hblocked : doc.status = .blocked
      · simp [loadRow, itemRow, hblocked, Option.filter_some]
      · simp [itemRow, hblocked, Option.filter_some, hfinal]
  rw [report_eq hrows, h.order]
  rfl

variable {edge : EdgeConfig} {now : Int} {s : Stores} {setOps : UrlOps} {v : BulkVars}

/-- The operations name neither an alias nor a domain. -/
def KeepsKey (ops : UrlOps) : Prop := ops.linkAlias = none ∧ ops.domain = none

theorem KeepsKey.key_toUpdate {ops : UrlOps} (h : KeepsKey ops) (row : UrlRow) :
    Document.key (ops.toUpdate.apply row) = Document.key row := by
  simp [Document.key, UrlOps.toUpdate, h.1, h.2]

/-- The links after a grouped write of such operations. -/
def writeOps (urls : UrlStore) (docs : List UrlV2Doc) (ownerId : ObjectId) (ops : UrlOps)
    (hkey : KeepsKey ops) : UrlStore :=
  urls.updateMany (UrlRepository.idsAndOwnerFilter (docs.map (·.id)) ownerId).Matches
    ⟨ops.toUpdate, hkey.key_toUpdate⟩

section

variable (hkey : KeepsKey setOps)

theorem docs_writeOps (docs : List UrlV2Doc) :
    (writeOps urls docs ownerId setOps hkey).docs = urls.docs.map fun row =>
      if row.id ∈ docs.map (·.id) ∧ row.ownerId = ownerId then setOps.toUpdate.apply row else row := by
  refine List.map_congr_left fun row _ => ?_
  simp [applyWhere]

theorem docs_writeOps_slice {p : UrlV2Doc → Bool} :
    (writeOps urls ((load urls ids ownerId message).pending.filter p) ownerId setOps hkey).docs =
      urls.docs.map fun row =>
        if row.id ∈ ids ∧ isLive ownerId row = true ∧ p (.fromMongo row) = true then
          setOps.toUpdate.apply row else row := by
  rw [docs_writeOps]
  refine List.map_congr_left fun row hrow => ?_
  refine if_congr ((and_congr_left' (mem_ids_filter_pending hrow)).trans ?_) rfl rfl
  refine and_iff_left_of_imp fun h => ?_
  have hlive := h.2.1
  simp only [isLive, Bool.and_eq_true, decide_eq_true_eq] at hlive
  exact hlive.1

theorem writeOps_nil : writeOps urls [] ownerId setOps hkey = urls := by
  have hsame : (writeOps urls [] ownerId setOps hkey).docs = urls.docs := by
    simp [docs_writeOps]
  cases urls
  simpa only [writeOps, updateMany, Collection.mk.injEq] using hsame

/-- A grouped write of such operations is never refused. -/
theorem applyUpdate_eq (docs : List UrlV2Doc) (batch : BulkBatch) :
    applyUpdate edge ownerId setOps now docs batch s = (true, batch.okAll docs,
      { s with urls := writeOps s.urls docs ownerId setOps hkey }) := by
  have hwrite : UrlRepository.updateByIdsAndOwner s.urls (docs.map (·.id)) ownerId setOps.toUpdate =
      some (writeOps s.urls docs ownerId setOps hkey) :=
    updateManyUnique_of_key s.urls _ ⟨setOps.toUpdate, hkey.key_toUpdate⟩
  unfold applyUpdate
  rw [hwrite]

theorem writeChanged_eq : writeChanged edge ownerId setOps now v s =
    ({ v with batch := v.batch.okAll v.changed },
      { s with urls := writeOps s.urls v.changed ownerId setOps hkey }) := by
  unfold writeChanged
  split
  · rename_i hnone
    rw [hnone, writeOps_nil, okAll, List.foldl_nil, ← hnone]
  · simp only [applyUpdate_eq hkey, if_true]

theorem writeReactivate_eq : writeReactivate edge ownerId setOps now v s =
    ({ v with batch := v.batch.okAll v.reactivate },
      { s with urls := writeOps s.urls v.reactivate ownerId setOps hkey }) := by
  unfold writeReactivate
  split
  · rename_i hnone
    rw [hnone, writeOps_nil, okAll, List.foldl_nil, ← hnone]
  · simp only [applyUpdate_eq hkey, if_true]

end

/-! ## The calls -/

theorem keepsKey_statusOps (status : OwnerStatus) : KeepsKey (statusOps status now) := ⟨rfl, rfl⟩

theorem keepsKey_plainOps (expireAfter : Option Int) : KeepsKey (plainOps expireAfter now) := ⟨rfl, rfl⟩

theorem keepsKey_reactOps (expireAfter : Option Int) : KeepsKey (reactOps expireAfter now) := ⟨rfl, rfl⟩

/-- A link that is deleted. -/
def deleteEffect (ownerId : ObjectId) (row : UrlRow) : Option UrlRow :=
  if isLive ownerId row then none else some row

/-- A link that gets a status. -/
def statusEffect (status : OwnerStatus) (ownerId : ObjectId) (now : Int) (row : UrlRow) : Option UrlRow :=
  some (if isLive ownerId row ∧ row.status ≠ status.toUrlStatus then
    (statusOps status now).toUpdate.apply row else row)

/-- A link that gets an expiry, and comes back when it had expired. -/
def expiryEffect (expireAfter : Option Int) (ownerId : ObjectId) (now : Int) (row : UrlRow) :
    Option UrlRow :=
  some (if isLive ownerId row ∧ expiryDiffers expireAfter (.fromMongo row) then
    (if row.status = .expired then reactOps expireAfter now
      else plainOps expireAfter now).toUpdate.apply row else row)

theorem bulkSetStatus_eq (status : OwnerStatus) :
    (bulkSetStatus edge ids status ownerId now s).1 =
        .ok (some (itemReport okRow "Cannot modify a blocked URL" s.urls ids ownerId)) ∧
      (bulkSetStatus edge ids status ownerId now s).2.urls.docs =
        rewrite (· ∈ ids) (statusEffect status ownerId now) s.urls.docs := by
  have hedge (v : BulkVars) (s : Stores) :
      (statusEdge edge status now v s).1 = v ∧ (statusEdge edge status now v s).2.urls = s.urls := by
    cases status <;> exact ⟨rfl, rfl⟩
  simp only [bulkSetStatus, bulkSetStatusCalls, runActions_cons, runActions_nil, hedge,
    writeChanged_eq (keepsKey_statusOps status), invalidateApplied, loadForStatus, answer]
  constructor
  · have hloaded : Judged s.urls ids ownerId "Cannot modify a blocked URL" _ _ := judged_load
    have hjudged := (hloaded.assignAll (fun doc => decide (doc.status = status.toUrlStatus)) okRow).assignAll
      (fun doc => decide (doc.status ≠ status.toUrlStatus)) okRow
    refine congrArg Except.ok (hjudged.report fun doc => ?_)
    by_cases hsame : doc.status = status.toUrlStatus <;> simp [hsame]
  · unfold statusEffect
    rw [rewrite_some, docs_writeOps_slice]
    refine List.map_congr_left fun row _ => ?_
    have hstatus : (UrlV2Doc.fromMongo row).status = row.status := rfl
    by_cases hi : row.id ∈ ids <;> simp [Document.id, hi, hstatus]

theorem deleteByIdsAndOwner_nil : UrlRepository.deleteByIdsAndOwner urls [] ownerId = urls := by
  have hdocs : (UrlRepository.deleteByIdsAndOwner urls [] ownerId).docs = urls.docs := by
    simp [UrlRepository.deleteByIdsAndOwner, deleteMany]
  cases urls
  simpa only [UrlRepository.deleteByIdsAndOwner, deleteMany, Collection.mk.injEq] using hdocs

theorem writeDelete_eq : writeDelete ownerId v s =
    ({ v with batch := v.batch.okAll v.changed },
      { s with urls := UrlRepository.deleteByIdsAndOwner s.urls (v.changed.map (·.id)) ownerId }) := by
  unfold writeDelete
  split
  · rename_i hnone
    rw [hnone, List.map_nil, deleteByIdsAndOwner_nil, okAll, List.foldl_nil, ← hnone]
  · rfl

theorem bulkDelete_eq :
    (bulkDelete edge ids ownerId now s).1 =
        .ok (some (itemReport okRow "Cannot delete a blocked URL" s.urls ids ownerId)) ∧
      (bulkDelete edge ids ownerId now s).2.urls.docs =
        rewrite (· ∈ ids) (deleteEffect ownerId) s.urls.docs := by
  have hall : (load s.urls ids ownerId "Cannot delete a blocked URL").pending =
      (load s.urls ids ownerId "Cannot delete a blocked URL").pending.filter fun _ => true := by simp
  simp only [bulkDelete, bulkDeleteCalls, runActions_cons, runActions_nil, writeDelete_eq, purgeChanged,
    invalidateApplied, loadForDelete, answer]
  rw [hall]
  constructor
  · have hloaded : Judged s.urls ids ownerId "Cannot delete a blocked URL" _ _ := judged_load
    have hjudged := hloaded.assignAll (fun _ => true) okRow
    exact congrArg Except.ok (hjudged.report fun doc => rfl)
  · unfold deleteEffect
    rw [rewrite_removed]
    refine List.filter_congr fun row hrow => congrArg (!·) ?_
    have hmem := @mem_ids_filter_pending s.urls ids ownerId "Cannot delete a blocked URL" (fun _ => true)
      row hrow
    rw [UrlRepository.matches_idsAndOwnerFilter, Bool.eq_iff_iff]
    simp only [Bool.and_eq_true, decide_eq_true_eq, hmem, and_true]
    refine and_iff_left_of_imp fun h => ?_
    have hlive := h.2
    simp only [isLive, Bool.and_eq_true, decide_eq_true_eq] at hlive
    exact hlive.1

/-- A value that is not in the future is refused as a whole. -/
theorem bulkSetExpiry_past {value : Int} (hpast : value ≤ now) :
    (bulkSetExpiry edge ids (some value) ownerId now s).1 =
        .error ⟨.validation, "expire_after must be in the future", some "expire_after"⟩ ∧
      (bulkSetExpiry edge ids (some value) ownerId now s).2.urls = s.urls := by
  simp only [bulkSetExpiry, bulkSetExpiryCalls, runActions_cons, runActions_nil, loadForExpiry,
    Option.any_some, hpast, decide_true, if_true, writeChanged, writeReactivate, invalidateApplied,
    expiryEdge, answer, and_self]

theorem bulkSetExpiry_eq {expireAfter : Option Int} (hfuture : ∀ value ∈ expireAfter, now < value) :
    (bulkSetExpiry edge ids expireAfter ownerId now s).1 =
        .ok (some (itemReport okRow "Cannot modify a blocked URL" s.urls ids ownerId)) ∧
      (bulkSetExpiry edge ids expireAfter ownerId now s).2.urls.docs =
        rewrite (· ∈ ids) (expiryEffect expireAfter ownerId now) s.urls.docs := by
  have hany : expireAfter.any (· ≤ now) = false := by
    cases expireAfter with
    | none => rfl
    | some value => simpa using hfuture value rfl
  simp only [bulkSetExpiry, bulkSetExpiryCalls, runActions_cons, runActions_nil, loadForExpiry, hany,
    Bool.false_eq_true, if_false, writeChanged_eq (keepsKey_plainOps expireAfter),
    writeReactivate_eq (keepsKey_reactOps expireAfter), invalidateApplied, expiryEdge, answer,
    List.filter_filter]
  constructor
  · have hloaded : Judged s.urls ids ownerId "Cannot modify a blocked URL" _ _ := judged_load
    have hjudged := ((hloaded.assignAll (fun doc => !expiryDiffers expireAfter doc) okRow).assignAll
      (fun doc => decide (doc.status ≠ .expired) && expiryDiffers expireAfter doc) okRow).assignAll
      (fun doc => decide (doc.status = .expired) && expiryDiffers expireAfter doc) okRow
    refine congrArg Except.ok (hjudged.report fun doc => ?_)
    by_cases hdiffers : expiryDiffers expireAfter doc = true <;>
      by_cases hexpired : doc.status = .expired <;> simp [hdiffers, hexpired]
  · unfold expiryEffect
    rw [rewrite_some, docs_writeOps, docs_writeOps_slice, List.map_map]
    refine List.map_congr_left fun row hrow => ?_
    have hmem := @mem_ids_filter_pending s.urls ids ownerId "Cannot modify a blocked URL"
      (fun doc => decide (doc.status = .expired) && expiryDiffers expireAfter doc) row hrow
    have hstatus : (UrlV2Doc.fromMongo row).status = row.status := rfl
    have howner (hlive : isLive ownerId row = true) : row.ownerId = ownerId := by
      simp only [isLive, Bool.and_eq_true, decide_eq_true_eq] at hlive
      exact hlive.1
    by_cases htouched : row.id ∈ ids ∧ isLive ownerId row = true ∧
        expiryDiffers expireAfter (.fromMongo row) = true
    · obtain ⟨hi, hlive, hdiffers⟩ := htouched
      by_cases hexpired : row.status = .expired
      · simp [hmem, hi, hlive, hdiffers, hstatus, hexpired, howner hlive, Document.id]
      · have hkept : ((plainOps expireAfter now).toUpdate.apply row).id = row.id := rfl
        simp [hkept, hmem, hi, hlive, hdiffers, hstatus, hexpired, Document.id]
    · have hplain : ¬(row.id ∈ ids ∧ isLive ownerId row = true ∧
          (decide ((UrlV2Doc.fromMongo row).status ≠ .expired) &&
            expiryDiffers expireAfter (.fromMongo row)) = true) := by
        simp only [Bool.and_eq_true]
        tauto
      have hreact : row.id ∉ ((load s.urls ids ownerId "Cannot modify a blocked URL").pending.filter
          fun doc => decide (doc.status = .expired) && expiryDiffers expireAfter doc).map (·.id) := by
        rw [hmem]
        simp only [Bool.and_eq_true]
        tauto
      simp only [Function.comp_apply, if_neg hplain, hreact, false_and, if_false]
      split_ifs with hi hboth
      · exact absurd ⟨of_decide_eq_true hi, hboth⟩ htouched
      · exact absurd ⟨of_decide_eq_true hi, hboth⟩ htouched
      · rfl
      · rfl

end BulkUrlService

end Spoo
